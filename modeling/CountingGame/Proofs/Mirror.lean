import CountingGame.Proofs.Digits
import CountingGame.Proofs.Ladder
/-!
# Spans seen from the other side of zero

A span and its mirror image hold the same indices up to their sign, in the opposite order. Rules and
the digit limit do not look at the sign, so what is said is the same up to the signs of numbers.
-/
namespace CountingGame

/-- A leading minus sign is taken away, or put there where there is none. -/
def flipSign (text : String) : String :=
  match text.toList with
  | '-' :: digits => String.ofList digits
  | digits => String.ofList ('-' :: digits)

/-- The label of the opposite index, told from the label alone. -/
def mirrorLabel (text : String) : String := if text ∈ Rule.words then text else flipSign text

private theorem flipSign_text_of_pos {i : Int} (h : 0 < i) :
    flipSign (Decimal.text i) = Decimal.text (-i) := by
  have htext : (Decimal.text i).toList = Nat.toDigits 10 i.natAbs := by
    rw [Decimal.text_of_nonneg (Int.le_of_lt h), String.toList_ofList]
  unfold flipSign
  split
  · rename_i digits hdigits
    have hsign : '-' ∈ Nat.toDigits 10 i.natAbs := by
      rw [← htext, hdigits]
      exact List.mem_cons_self
    exact absurd (Decimal.isDigit_of_mem_toDigits hsign) (by decide)
  · rw [htext, Decimal.text_of_neg (by omega), Int.natAbs_neg]

private theorem flipSign_text_of_neg {i : Int} (h : i < 0) :
    flipSign (Decimal.text i) = Decimal.text (-i) := by
  have htext : (Decimal.text i).toList = '-' :: Nat.toDigits 10 i.natAbs := by
    rw [Decimal.text_of_neg h, String.toList_ofList]
  simp only [flipSign, htext]
  rw [Decimal.text_of_nonneg (by omega), Int.natAbs_neg]

private theorem mirrorLabel_text {i : Int} (h : i ≠ 0) :
    mirrorLabel (Decimal.text i) = Decimal.text (-i) := by
  rw [mirrorLabel, if_neg (text_not_mem_words i)]
  rcases Int.lt_or_gt_of_ne h with hneg | hpos
  · exact flipSign_text_of_neg hneg
  · exact flipSign_text_of_pos hpos

private theorem label_neg_of_ok {i : Int} {text : String} (h : label i = .ok text) :
    label (-i) = .ok (mirrorLabel text) := by
  rw [label_eq_ok_iff, Int.dvd_neg, Int.dvd_neg, Decimal.fits_neg]
  rcases label_eq_ok_iff.mp h with ⟨hthree, hfive, rfl⟩ | ⟨hthree, hfive, rfl⟩ |
    ⟨hthree, hfive, rfl⟩ | ⟨hthree, hfive, hfits, rfl⟩
  · exact .inl ⟨hthree, hfive, by decide⟩
  · exact .inr (.inl ⟨hthree, hfive, by decide⟩)
  · exact .inr (.inr (.inl ⟨hthree, hfive, by decide⟩))
  · exact .inr (.inr (.inr ⟨hthree, hfive, hfits, mirrorLabel_text (by omega)⟩))

private theorem label_neg_eq_error_iff {i : Int} {fault : Fault} :
    label (-i) = .error fault ↔ label i = .error fault := by
  rw [label_eq_error_iff, label_eq_error_iff, Int.dvd_neg, Int.dvd_neg, Decimal.fits_neg]

namespace Span

def mirror (s : Span) : Span := ⟨-s.last, -s.first⟩

variable {s : Span}

private theorem size_mirror (s : Span) : s.mirror.size = s.size := by
  simp only [size, mirror]
  omega

private theorem labels_mirror_eq_error_iff {fault : Fault} :
    s.mirror.labels = .error fault ↔ s.labels = .error fault := by
  rw [labels_eq_error_iff, labels_eq_error_iff]
  apply and_congr_right
  intro _
  constructor
  · rintro ⟨i, hfirst, hlast, hi⟩
    simp only [mirror] at hfirst hlast
    exact ⟨-i, by omega, by omega, label_neg_eq_error_iff.mpr hi⟩
  · rintro ⟨i, hfirst, hlast, hi⟩
    refine ⟨-i, ?_, ?_, label_neg_eq_error_iff.mpr hi⟩
    · simp only [mirror]
      omega
    · simp only [mirror]
      omega

private theorem labels_mirror_of_ok {labels : List String} (h : s.labels = .ok labels) :
    s.mirror.labels = .ok (labels.reverse.map mirrorLabel) := by
  obtain ⟨hlength, hlabel⟩ := labelsFrom_eq_ok_iff.mp h
  have hmirrored : (labels.reverse.map mirrorLabel).length = labels.length := by
    rw [List.length_map, List.length_reverse]
  apply labelsFrom_eq_ok_iff.mpr
  refine ⟨by rw [hmirrored, hlength, size_mirror], ?_⟩
  intro k hk
  have hk' : k < labels.length := hmirrored ▸ hk
  -- What stands at `k` in the image was said `k` indices before the last of the span.
  have hopposite := label_neg_of_ok (hlabel (labels.length - 1 - k) (by omega))
  have hindex :
      s.mirror.first + (k : Int) = -(s.first + ((labels.length - 1 - k : Nat) : Int)) := by
    unfold size at hlength
    simp only [mirror]
    omega
  rw [hindex, hopposite, List.getElem_map, List.getElem_reverse]

/-- The mirror image of a span is without labels just when the span is, and for the same fault.
Otherwise its labels are those of the span in the opposite order, words as they are and numbers with
the other sign. -/
theorem labels_of_mirror (s : Span) :
    (∀ fault, s.mirror.labels = .error fault ↔ s.labels = .error fault) ∧
    ∀ labels, s.labels = .ok labels → s.mirror.labels = .ok (labels.reverse.map mirrorLabel) := by
  constructor
  · intro fault
    exact labels_mirror_eq_error_iff
  · intro labels h
    exact labels_mirror_of_ok h

theorem labels_of_mirror_across_zero :
    Span.labels ⟨-2, 4⟩ = .ok ["-2", "-1", "fizzbuzz", "1", "2", "fizz", "4"] ∧
      Span.labels ⟨-4, 2⟩ = .ok ["-4", "fizz", "-2", "-1", "fizzbuzz", "1", "2"] := by
  have hlabels : Span.labels ⟨-2, 4⟩ = .ok ["-2", "-1", "fizzbuzz", "1", "2", "fizz", "4"] := by
    decide +kernel
  exact ⟨hlabels, (labels_of_mirror ⟨-2, 4⟩).2 _ hlabels⟩

end Span

end CountingGame
