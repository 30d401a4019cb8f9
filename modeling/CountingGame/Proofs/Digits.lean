import Mathlib
import CountingGame.Decimal
/-!
# Digits

The digits of the positive numbers are the non-empty sequences of digits that do not begin with a
zero. Which multiples a number is of can be read off its digits: the sum of the digits decides for
three, and the last digit for five.
-/
namespace CountingGame.Decimal

def digitValue (c : Char) : Nat := c.toNat - '0'.toNat

/-- A non-empty sequence of digits that does not begin with a zero. -/
structure IsNumeral (ds : List Char) : Prop where
  ne_nil : ds ≠ []
  isDigit : ∀ c ∈ ds, c.isDigit = true
  head_ne_zero : ds.head? ≠ some '0'

private theorem digitValue_lt_ten {c : Char} (h : c.isDigit = true) : digitValue c < 10 := by
  have hc := Char.isDigit_iff_toNat.mp h
  unfold digitValue
  simp only [Char.reduceToNat] at hc ⊢
  omega

private theorem digitChar_digitValue {c : Char} (h : c.isDigit = true) :
    Nat.digitChar (digitValue c) = c := by
  have hlt := digitValue_lt_ten h
  have hc := Char.isDigit_iff_toNat.mp h
  apply Char.toNat_inj.mp
  rw [Nat.toNat_digitChar_of_lt_ten hlt]
  unfold digitValue
  simp only [Char.reduceToNat] at hc ⊢
  omega

theorem text_of_nonneg {i : Int} (h : 0 ≤ i) :
    text i = String.ofList (Nat.toDigits 10 i.natAbs) := by
  rw [text, chars, if_neg (Int.not_lt.mpr h)]

theorem text_of_neg {i : Int} (h : i < 0) :
    text i = String.ofList ('-' :: Nat.toDigits 10 i.natAbs) := by
  rw [text, chars, if_pos h]

private theorem toDigits_append_digit {n : Nat} {c : Char} (hn : 0 < n) (hc : c.isDigit = true) :
    Nat.toDigits 10 (10 * n + digitValue c) = Nat.toDigits 10 n ++ [c] := by
  have hlt := digitValue_lt_ten hc
  rw [← Nat.toDigits_append_toDigits (by decide) hn hlt, Nat.toDigits_of_lt_base hlt,
    digitChar_digitValue hc]

private theorem toDigits_ofDigitChars_of_pos {ds : List Char} (hds : ∀ c ∈ ds, c.isDigit = true)
    {n : Nat} (hn : 0 < n) :
    Nat.toDigits 10 (Nat.ofDigitChars 10 ds n) = Nat.toDigits 10 n ++ ds := by
  induction ds generalizing n with
  | nil => simp
  | cons c ds ih =>
    have hc : c.isDigit = true := hds c List.mem_cons_self
    have htail : ∀ d ∈ ds, d.isDigit = true := fun d hd => hds d (List.mem_cons_of_mem _ hd)
    rw [Nat.ofDigitChars_cons]
    change Nat.toDigits 10 (Nat.ofDigitChars 10 ds (10 * n + digitValue c)) = _
    rw [ih htail (by omega), toDigits_append_digit hn hc, List.append_assoc, List.singleton_append]

theorem toDigits_ofDigitChars {ds : List Char} (h : IsNumeral ds) :
    Nat.toDigits 10 (Nat.ofDigitChars 10 ds 0) = ds := by
  cases ds with
  | nil => exact absurd rfl h.ne_nil
  | cons c ds =>
    have hc : c.isDigit = true := h.isDigit c List.mem_cons_self
    have htail : ∀ d ∈ ds, d.isDigit = true := fun d hd => h.isDigit d (List.mem_cons_of_mem _ hd)
    have hlt := digitValue_lt_ten hc
    -- The first digit is not a zero, so the digits behind it are read behind a positive number.
    have hpos : 0 < digitValue c := by
      apply Nat.pos_of_ne_zero
      intro hzero
      have hchar := digitChar_digitValue hc
      rw [hzero] at hchar
      exact h.head_ne_zero (by rw [List.head?_cons, ← hchar]; rfl)
    rw [Nat.ofDigitChars_cons, Nat.mul_zero, Nat.zero_add]
    change Nat.toDigits 10 (Nat.ofDigitChars 10 ds (digitValue c)) = _
    rw [toDigits_ofDigitChars_of_pos htail hpos, Nat.toDigits_of_lt_base hlt,
      digitChar_digitValue hc, List.singleton_append]

private theorem head?_toDigits_ne_zero (n : Nat) (hn : 0 < n) :
    (Nat.toDigits 10 n).head? ≠ some '0' := by
  induction n using Nat.strongRecOn with
  | ind n ih =>
    by_cases h : n < 10
    · rw [Nat.toDigits_of_lt_base h]
      intro hzero
      simp only [List.head?_cons, Option.some.injEq, Nat.digitChar_eq_zero] at hzero
      omega
    · have hfirst := ih (n / 10) (by omega) (by omega)
      have hne : Nat.toDigits 10 (n / 10) ≠ [] := Nat.toDigits_ne_nil
      obtain ⟨c, cs, hcs⟩ := List.exists_cons_of_ne_nil hne
      rw [hcs] at hfirst
      rw [Nat.toDigits_of_base_le (by decide) (by omega), hcs]
      exact hfirst

theorem isNumeral_toDigits {n : Nat} (hn : 0 < n) : IsNumeral (Nat.toDigits 10 n) :=
  ⟨Nat.toDigits_ne_nil, fun _ => isDigit_of_mem_toDigits, head?_toDigits_ne_zero n hn⟩

private theorem ofDigitChars_mod_three (ds : List Char) (n : Nat) :
    Nat.ofDigitChars 10 ds n % 3 = (n + (ds.map digitValue).sum) % 3 := by
  induction ds generalizing n with
  | nil => simp
  | cons c ds ih =>
    rw [Nat.ofDigitChars_cons]
    change Nat.ofDigitChars 10 ds (10 * n + digitValue c) % 3 = _
    rw [ih, List.map_cons, List.sum_cons]
    omega

theorem three_dvd_ofDigitChars (ds : List Char) :
    3 ∣ Nat.ofDigitChars 10 ds 0 ↔ 3 ∣ (ds.map digitValue).sum := by
  have h := ofDigitChars_mod_three ds 0
  omega

private theorem five_dvd_digitValue {c : Char} (h : c.isDigit = true) :
    5 ∣ digitValue c ↔ c = '0' ∨ c = '5' := by
  constructor
  · intro hdvd
    have hlt := digitValue_lt_ten h
    have hcases : digitValue c = 0 ∨ digitValue c = 5 := by omega
    have hchar := digitChar_digitValue h
    rcases hcases with hv | hv
    · exact .inl (by rw [← hchar, hv]; rfl)
    · exact .inr (by rw [← hchar, hv]; rfl)
  · intro hc
    rcases hc with rfl | rfl
    · decide
    · decide

theorem five_dvd_ofDigitChars {ds : List Char} (h : IsNumeral ds) :
    5 ∣ Nat.ofDigitChars 10 ds 0 ↔ ds.getLast? = some '0' ∨ ds.getLast? = some '5' := by
  have hlast := List.dropLast_concat_getLast h.ne_nil
  have hdigit := h.isDigit _ (List.getLast_mem h.ne_nil)
  have hvalue : Nat.ofDigitChars 10 ds 0 =
      10 * Nat.ofDigitChars 10 ds.dropLast 0 + digitValue (ds.getLast h.ne_nil) := by
    conv => lhs; rw [← hlast]
    rw [Nat.ofDigitChars_append, Nat.ofDigitChars_cons, Nat.ofDigitChars_nil]
    rfl
  have hfive := five_dvd_digitValue hdigit
  rw [List.getLast?_eq_some_getLast h.ne_nil, Option.some.injEq, Option.some.injEq, ← hfive, hvalue]
  omega

end CountingGame.Decimal
