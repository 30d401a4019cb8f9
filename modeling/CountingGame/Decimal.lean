import CountingGame.Fault
/-!
# Decimal text

An integer is written as an optional minus sign and its digits, without leading zeros, as long as
it has at most `digitLimit` digits; the sign is not counted. Reading is strict: it takes an optional
minus sign and at least one digit, and nothing else. `read?_text` says that reading undoes writing.
-/
namespace CountingGame.Decimal

/-- The largest number of digits that is ever written. -/
def digitLimit : Nat := 4300

/-- The least natural number that has more digits than that. It is kept folded in proofs. -/
@[irreducible] def bound : Nat := Nat.pow 10 digitLimit

def Fits (i : Int) : Prop := i.natAbs < bound

instance (i : Int) : Decidable (Fits i) := inferInstanceAs (Decidable (i.natAbs < bound))

def chars (i : Int) : List Char :=
  if i < 0 then '-' :: Nat.toDigits 10 i.natAbs else Nat.toDigits 10 i.natAbs

/-- The decimal text of an integer of any size. -/
def text (i : Int) : String := String.ofList (chars i)

/-- The decimal text, refused when it has more than `digitLimit` digits. -/
def write (i : Int) : Except Fault String :=
  if Fits i then .ok (text i) else .error .digitLimit

def readDigits? (cs : List Char) : Option Nat :=
  if cs ≠ [] ∧ cs.all Char.isDigit then some (Nat.ofDigitChars 10 cs 0) else none

def readChars? : List Char → Option Int
  | '-' :: cs => (readDigits? cs).map fun n : Nat => -(n : Int)
  | cs => (readDigits? cs).map fun n : Nat => (n : Int)

def read? (s : String) : Option Int := readChars? s.toList

theorem text_eq_toString (i : Int) : text i = toString i := by
  cases i with
  | ofNat n => rfl
  | negSucc n =>
    have hwritten : toString (Int.negSucc n) = "-" ++ Nat.repr (n + 1) := rfl
    rw [text, chars, if_pos (Int.negSucc_lt_zero n), hwritten]
    apply String.toList_inj.mp
    simp

theorem write_of_fits {i : Int} (h : Fits i) : write i = .ok (text i) := if_pos h

theorem write_of_not_fits {i : Int} (h : ¬ Fits i) : write i = .error .digitLimit := if_neg h

@[simp] theorem fits_neg {i : Int} : Fits (-i) ↔ Fits i := by
  simp [Fits]

private theorem length_toDigits_le_iff_lt_pow (n : Nat) {k : Nat} (hk : 0 < k) :
    (Nat.toDigits 10 n).length ≤ k ↔ n < Nat.pow 10 k :=
  Nat.length_toDigits_le_iff (by decide) hk

theorem fits_iff_length {i : Int} : Fits i ↔ (Nat.toDigits 10 i.natAbs).length ≤ digitLimit := by
  unfold Fits bound
  exact (length_toDigits_le_iff_lt_pow i.natAbs (by decide)).symm

theorem isDigit_of_mem_toDigits {n : Nat} {c : Char} (h : c ∈ Nat.toDigits 10 n) :
    c.isDigit = true :=
  Nat.isDigit_of_mem_toDigits (by decide) (by decide) h

private theorem mem_chars {i : Int} {c : Char} (h : c ∈ chars i) : c = '-' ∨ c.isDigit = true := by
  unfold chars at h
  split at h
  · rcases List.mem_cons.mp h with h | h
    · exact .inl h
    · exact .inr (isDigit_of_mem_toDigits h)
  · exact .inr (isDigit_of_mem_toDigits h)

theorem not_mem_text {c : Char} (hsign : c ≠ '-') (hdigit : c.isDigit = false) (i : Int) :
    c ∉ (text i).toList := by
  intro h
  rw [text, String.toList_ofList] at h
  rcases mem_chars h with h | h
  · exact hsign h
  · simp [hdigit] at h

@[simp] theorem readDigits?_toDigits (n : Nat) : readDigits? (Nat.toDigits 10 n) = some n := by
  have hall : (Nat.toDigits 10 n).all Char.isDigit = true :=
    List.all_eq_true.mpr fun _ hc => isDigit_of_mem_toDigits hc
  rw [readDigits?, if_pos ⟨Nat.toDigits_ne_nil, hall⟩, Nat.ofDigitChars_ten_toDigits]

private theorem readChars?_digits {cs : List Char} (h : cs.head? ≠ some '-') :
    readChars? cs = (readDigits? cs).map fun n : Nat => (n : Int) := by
  unfold readChars?
  split
  · simp at h
  · rfl

private theorem readChars?_chars (i : Int) : readChars? (chars i) = some i := by
  unfold chars
  split
  · simp only [readChars?, readDigits?_toDigits, Option.map_some]
    congr 1
    omega
  · rw [readChars?_digits, readDigits?_toDigits, Option.map_some]
    · congr 1
      omega
    · intro h
      have := isDigit_of_mem_toDigits (List.mem_of_head? h)
      simp at this

@[simp] theorem read?_text (i : Int) : read? (text i) = some i := by
  simp [read?, text, readChars?_chars]

theorem text_injective {i j : Int} (h : text i = text j) : i = j := by
  have := congrArg read? h
  simpa using this

end CountingGame.Decimal
