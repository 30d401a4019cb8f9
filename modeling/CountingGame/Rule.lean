/-!
# Rules of the game

A rule replaces the multiples of its divisor by its word.
-/
namespace CountingGame

/-- A divisor and the word said at its multiples. -/
structure Rule where
  divisor : Nat
  word : String
deriving DecidableEq

namespace Rule

/-- Division leaves nothing over, rounded down as it is for an index of either sign. -/
def HoldsAt (r : Rule) (i : Int) : Prop := i.fmod r.divisor = 0

instance (r : Rule) (i : Int) : Decidable (r.HoldsAt i) :=
  inferInstanceAs (Decidable (i.fmod r.divisor = 0))

theorem holdsAt_iff_dvd {r : Rule} {i : Int} : r.HoldsAt i ↔ (r.divisor : Int) ∣ i :=
  Int.dvd_iff_fmod_eq_zero.symm

def fizz : Rule := ⟨3, "fizz"⟩

def buzz : Rule := ⟨5, "buzz"⟩

/-- The rules in the order in which their words are said. -/
def table : List Rule := [fizz, buzz]

/-- The words of all rules that hold at an index, joined in table order. -/
def wordAt (i : Int) : String :=
  String.join ((table.filter fun r => r.HoldsAt i).map Rule.word)

def fullWord : String := String.join (table.map Rule.word)

theorem wordAt_eq (i : Int) : wordAt i =
    (if 3 ∣ i then "fizz" else "") ++ (if 5 ∣ i then "buzz" else "") := by
  by_cases h3 : (3 : Int) ∣ i <;> by_cases h5 : (5 : Int) ∣ i <;>
    simp [wordAt, table, fizz, buzz, holdsAt_iff_dvd, h3, h5, String.join]

end Rule
end CountingGame
