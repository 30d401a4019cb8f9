import CountingGame.Decimal
import CountingGame.Rule
/-!
# Calls

At each index a player says the joined words of the rules that hold there, or the index itself
when there is nothing to say. The label of an index is its call as text.
-/
namespace CountingGame

/-- What is said at an index. -/
inductive Call where
  | word (text : String)
  | number (index : Int)
deriving DecidableEq

namespace Call

/-- The call at an index: its word, or the index where that word is empty. -/
def ofIndex (i : Int) : Call :=
  if Rule.wordAt i = "" then .number i else .word (Rule.wordAt i)

/-- A call as text. Only a number needs decimal digits, so only a number can fail. -/
def text : Call → Except Fault String
  | .word t => .ok t
  | .number i => Decimal.write i

theorem ofIndex_eq (i : Int) : ofIndex i =
    if 3 ∣ i then if 5 ∣ i then .word "fizzbuzz" else .word "fizz"
    else if 5 ∣ i then .word "buzz" else .number i := by
  by_cases h3 : (3 : Int) ∣ i <;> by_cases h5 : (5 : Int) ∣ i <;>
    simp [ofIndex, Rule.wordAt_eq, h3, h5]

end Call

def label (i : Int) : Except Fault String := (Call.ofIndex i).text

theorem label_eq (i : Int) : label i =
    if 3 ∣ i then if 5 ∣ i then .ok "fizzbuzz" else .ok "fizz"
    else if 5 ∣ i then .ok "buzz" else Decimal.write i := by
  by_cases h3 : (3 : Int) ∣ i <;> by_cases h5 : (5 : Int) ∣ i <;>
    simp [label, Call.ofIndex_eq, Call.text, h3, h5]

end CountingGame
