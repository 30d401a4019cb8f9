import CountingGame.Sink
import CountingGame.Proofs.Digits
import CountingGame.Proofs.Numbering
/-!
# The size of a pass

Besides its label a line holds the digits of its position, a colon, a space and a newline. So the
size of a pass is told by its labels and by the digits of the positions it counts through. Both
passes count through the same positions, save that the ordinal pass has the last in place of zero.
-/
namespace CountingGame

namespace Decimal

def width (n : Nat) : Nat := (text n).length

private theorem width_eq_length_toDigits (n : Nat) : width n = (Nat.toDigits 10 n).length := by
  rw [width, text_of_nonneg (Int.natCast_nonneg n), String.length_ofList, Int.natAbs_natCast]

private theorem width_zero : width 0 = 1 := rfl

private theorem width_of_pos {n : Nat} (hn : 0 < n) : width n = (Nat.digits 10 n).length := by
  have hpos : 0 < (Nat.digits 10 n).length := by
    rw [Nat.lt_digits_length_iff (by decide), Nat.pow_zero]
    exact hn
  rw [width_eq_length_toDigits]
  apply Nat.le_antisymm
  · rw [Nat.length_toDigits_le_iff (by decide) hpos, ← Nat.digits_length_le_iff (by decide)]
  · rw [Nat.digits_length_le_iff (by decide), ← Nat.length_toDigits_le_iff (by decide)
      Nat.length_toDigits_pos]

end Decimal

private theorem newlines_lineText (position : Int) (label : String) :
    (Extent.ofText (Entry.lineText ⟨position, label⟩)).newlines =
      1 + (Extent.ofText label).newlines := by
  have hposition : (Extent.ofText (Decimal.text position)).newlines = 0 :=
    Extent.newlines_eq_zero (Decimal.not_mem_text (by decide) (by decide) position)
  have hbetween : (Extent.ofText ": ").newlines = 0 := rfl
  have hend : (Extent.ofText "\n").newlines = 1 := rfl
  simp only [Entry.lineText, Extent.newlines_append, hposition, hbetween, hend]
  omega

private theorem newlines_join_linesFrom (position : Nat) (labels : List String) :
    (Extent.ofText (String.join (linesFrom position labels))).newlines =
      labels.length + (labels.map fun label => (Extent.ofText label).newlines).sum := by
  induction labels generalizing position with
  | nil => rfl
  | cons label labels ih =>
    rw [linesFrom_cons, String.join_cons, Extent.newlines_append, newlines_lineText,
      ih (position + 1), List.map_cons, List.sum_cons, List.length_cons]
    omega

private theorem length_lineText (position : Nat) (label : String) :
    (Entry.lineText ⟨position, label⟩).length = Decimal.width position + label.length + 3 := by
  simp only [Entry.lineText, Decimal.width, String.length_append]
  change _ + 2 + _ + 1 = _
  omega

private theorem length_join_linesFrom (position : Nat) (labels : List String) :
    (String.join (linesFrom position labels)).length =
      (labels.map String.length).sum + 3 * labels.length +
        ∑ k ∈ Finset.Ico position (position + labels.length), Decimal.width k := by
  induction labels generalizing position with
  | nil => simp
  | cons label labels ih =>
    have hbegin : position < position + (label :: labels).length := by simp
    have hend : position + (label :: labels).length = position + 1 + labels.length := by
      rw [List.length_cons]
      omega
    rw [linesFrom_cons, String.join_cons, String.length_append, length_lineText, ih,
      Finset.sum_eq_sum_Ico_succ_bot hbegin, hend, List.map_cons, List.sum_cons, List.length_cons]
    omega

private theorem length_join_linesFrom_one (labels : List String) :
    (String.join (linesFrom 1 labels)).length =
      (labels.map String.length).sum + 3 * labels.length +
        ∑ k ∈ Finset.Icc 1 labels.length, Decimal.width k := by
  rw [length_join_linesFrom, Nat.add_comm 1, Finset.Ico_add_one_right_eq_Icc]

private theorem sum_from_one (f : Nat → Nat) (n : Nat) :
    f 0 + ∑ k ∈ Finset.Icc 1 n, f k = ∑ k ∈ Finset.Ico 0 n, f k + f n := by
  -- Both sides are the sum from zero to `n`.
  rw [← Finset.sum_Ico_succ_top (Nat.zero_le n),
    Finset.sum_eq_sum_Ico_succ_bot (Nat.add_one_pos n), Nat.zero_add,
    Finset.Ico_add_one_right_eq_Icc]

/-- Each pass has one newline for each label besides those in the labels. The ordinal pass is as
long as the labels, three characters more for each, and the digits of the numbers up to their count;
the offset pass is shorter by one less than the digits of the count. -/
theorem passes_measured (labels : List String) (hne : labels ≠ [])
    (hlt : labels.length < 10 ^ Decimal.digitLimit) :
    ∃ ordinal offset,
      Pass.ordinal.text labels = .ok ordinal ∧ Pass.offset.text labels = .ok offset ∧
      (Extent.ofText ordinal).newlines =
        labels.length + (labels.map fun label => (Extent.ofText label).newlines).sum ∧
      (Extent.ofText offset).newlines =
        labels.length + (labels.map fun label => (Extent.ofText label).newlines).sum ∧
      ordinal.length = (labels.map String.length).sum + 3 * labels.length +
        ∑ k ∈ Finset.Icc 1 labels.length, (Nat.digits 10 k).length ∧
      (ordinal.length : Int) - offset.length = (Nat.digits 10 labels.length).length - 1 := by
  rw [← Decimal.bound_eq_pow] at hlt
  refine ⟨_, _, Pass.ordinal.text_of_lt hlt, Pass.offset.text_of_lt hlt,
    newlines_join_linesFrom _ _, newlines_join_linesFrom _ _, ?_, ?_⟩
  · have hdigits : ∑ k ∈ Finset.Icc 1 labels.length, Decimal.width k =
        ∑ k ∈ Finset.Icc 1 labels.length, (Nat.digits 10 k).length :=
      Finset.sum_congr rfl fun k hk => Decimal.width_of_pos (Finset.mem_Icc.mp hk).1
    rw [← hdigits]
    exact length_join_linesFrom_one labels
  · have hshift := sum_from_one Decimal.width labels.length
    rw [Decimal.width_zero, Decimal.width_of_pos (List.length_pos_of_ne_nil hne)] at hshift
    have hordinal := length_join_linesFrom_one labels
    have hoffset := length_join_linesFrom 0 labels
    rw [Nat.zero_add] at hoffset
    simp only [Pass.start]
    omega

/-- Ten labels bring the first position of two digits, which only the ordinal pass has. -/
theorem passes_measured_ten_labels :
    List.replicate 10 "a\n" ≠ [] ∧ (List.replicate 10 "a\n").length < 10 ^ Decimal.digitLimit ∧
      ∃ ordinal offset, Pass.ordinal.text (List.replicate 10 "a\n") = .ok ordinal ∧
        Pass.offset.text (List.replicate 10 "a\n") = .ok offset ∧
        (Extent.ofText ordinal).newlines = 20 ∧ (Extent.ofText offset).newlines = 20 ∧
        ordinal.length = 61 ∧ offset.length = 60 := by
  have hne : List.replicate 10 "a\n" ≠ [] := by decide
  have hlt : (List.replicate 10 "a\n").length < 10 ^ Decimal.digitLimit :=
    Decimal.lt_ten_pow_digitLimit 2 (by decide) (by decide)
  obtain ⟨ordinal, offset, hordinal, hoffset, hlines, hlines', hlength, hdifference⟩ :=
    passes_measured _ hne hlt
  have hlast : (Nat.digits 10 (List.replicate 10 "a\n").length).length = 2 := by decide
  have hwhole : ordinal.length = 61 := hlength.trans (by decide)
  refine ⟨hne, hlt, ordinal, offset, hordinal, hoffset, hlines.trans (by decide),
    hlines'.trans (by decide), hwhole, ?_⟩
  omega

end CountingGame
