import CountingGame.Proofs.Digits
import CountingGame.Proofs.Labels
/-!
# Which texts are labels

Besides the three words, the labels are the signed numerals within the digit limit that name a
multiple of neither three nor five, which their digits tell.
-/
namespace CountingGame

/-- The digits of an index that is said as a number, told from the digits alone. -/
structure IsNumberLabel (ds : List Char) : Prop where
  one_le_length : 1 ≤ ds.length
  length_le : ds.length ≤ 4300
  isDigit : ∀ c ∈ ds, c.isDigit = true
  head_ne_zero : ds.head? ≠ some '0'
  not_three_dvd_sum : ¬ 3 ∣ (ds.map Decimal.digitValue).sum
  last_ne_zero : ds.getLast? ≠ some '0'
  last_ne_five : ds.getLast? ≠ some '5'

theorem isNumberLabel_iff {ds : List Char} : IsNumberLabel ds ↔
    ∃ n : Nat, ¬ 3 ∣ n ∧ ¬ 5 ∣ n ∧ Decimal.Fits n ∧ Nat.toDigits 10 n = ds := by
  constructor
  · intro h
    have hnumeral : Decimal.IsNumeral ds :=
      ⟨List.ne_nil_of_length_pos h.one_le_length, h.isDigit, h.head_ne_zero⟩
    have hdigits := Decimal.toDigits_ofDigitChars hnumeral
    refine ⟨Nat.ofDigitChars 10 ds 0, ?_, ?_, ?_, hdigits⟩
    · rw [Decimal.three_dvd_ofDigitChars]
      exact h.not_three_dvd_sum
    · rw [Decimal.five_dvd_ofDigitChars hnumeral]
      exact not_or.mpr ⟨h.last_ne_zero, h.last_ne_five⟩
    · rw [Decimal.fits_iff_length, Int.natAbs_natCast, hdigits]
      exact h.length_le
  · intro h
    obtain ⟨n, hthree, hfive, hfits, rfl⟩ := h
    have hpos : 0 < n := by omega
    have hnumeral := Decimal.isNumeral_toDigits hpos
    have hvalue : Nat.ofDigitChars 10 (Nat.toDigits 10 n) 0 = n := Nat.ofDigitChars_ten_toDigits
    rw [← hvalue, Decimal.three_dvd_ofDigitChars] at hthree
    rw [← hvalue, Decimal.five_dvd_ofDigitChars hnumeral, not_or] at hfive
    rw [Decimal.fits_iff_length, Int.natAbs_natCast] at hfits
    exact ⟨Nat.length_toDigits_pos, hfits, hnumeral.isDigit, hnumeral.head_ne_zero, hthree,
      hfive.1, hfive.2⟩

/-- A text is the label of some index just when it is one of the three words, or an optional minus
sign followed by at most 4300 digits that neither begin with a zero, nor have a multiple of three
as their sum, nor end in a zero or a five. -/
theorem exists_label_eq_iff (s : String) : (∃ i, label i = .ok s) ↔
    s = "fizz" ∨ s = "buzz" ∨ s = "fizzbuzz" ∨
      ∃ ds, IsNumberLabel ds ∧ (s = String.ofList ds ∨ s = String.ofList ('-' :: ds)) := by
  constructor
  · intro h
    obtain ⟨i, h⟩ := h
    rcases label_eq_ok_iff.mp h with ⟨_, _, hs⟩ | ⟨_, _, hs⟩ | ⟨_, _, hs⟩ |
      ⟨hthree, hfive, hfits, hs⟩
    · exact .inr (.inr (.inl hs))
    · exact .inl hs
    · exact .inr (.inl hs)
    · have hnumber : IsNumberLabel (Nat.toDigits 10 i.natAbs) :=
        isNumberLabel_iff.mpr ⟨i.natAbs, by omega, by omega, hfits, rfl⟩
      refine .inr (.inr (.inr ⟨_, hnumber, ?_⟩))
      by_cases hneg : i < 0
      · exact .inr (hs.trans (Decimal.text_of_neg hneg))
      · exact .inl (hs.trans (Decimal.text_of_nonneg (Int.not_lt.mp hneg)))
  · intro h
    simp only [label_eq_ok_iff]
    rcases h with hs | hs | hs | ⟨ds, hnumber, hs⟩
    · exact ⟨3, .inr (.inl ⟨by decide, by decide, hs⟩)⟩
    · exact ⟨5, .inr (.inr (.inl ⟨by decide, by decide, hs⟩))⟩
    · exact ⟨15, .inl ⟨by decide, by decide, hs⟩⟩
    · obtain ⟨n, hthree, hfive, hfits, rfl⟩ := isNumberLabel_iff.mp hnumber
      rcases hs with hs | hs
      · refine ⟨n, .inr (.inr (.inr ⟨by omega, by omega, hfits, ?_⟩))⟩
        rw [hs, Decimal.text_of_nonneg (by omega), Int.natAbs_natCast]
      · refine ⟨-n, .inr (.inr (.inr ⟨by omega, by omega, Decimal.fits_neg.mpr hfits, ?_⟩))⟩
        rw [hs, Decimal.text_of_neg (by omega), Int.natAbs_neg, Int.natAbs_natCast]

end CountingGame
