import CountingGame.Proofs.Labels
/-!
# How far labels reach

The least natural with too many digits is a multiple of five, so it and its negative still have a
label, a word. One index further is a multiple of neither three nor five, and it has none. Beyond
that an index has a label just when a rule holds at it, which is never so for three indices in a
row. So the spans that have labels are those between the two bounds, and some of at most two indices
beyond them.
-/
namespace CountingGame

private theorem ten_pow_mod_three (k : Nat) : 10 ^ k % 3 = 1 := by
  rw [Nat.pow_mod]
  simp

private theorem five_dvd_ten_pow {k : Nat} (hk : k ≠ 0) : 5 ∣ 10 ^ k :=
  Dvd.dvd.pow (by decide) hk

namespace Decimal

theorem bound_mod_three : bound % 3 = 1 := by
  rw [bound_eq_pow]
  exact ten_pow_mod_three digitLimit

theorem five_dvd_bound : 5 ∣ bound := by
  rw [bound_eq_pow]
  exact five_dvd_ten_pow (by decide)

private theorem length_toDigits_bound : (Nat.toDigits 10 bound).length = digitLimit + 1 := by
  have hlower : ¬ (Nat.toDigits 10 bound).length ≤ digitLimit := by
    have hfits : ¬ Fits bound := by simp [Fits]
    rwa [fits_iff_length, Int.natAbs_natCast] at hfits
  have hupper : (Nat.toDigits 10 bound).length ≤ digitLimit + 1 := by
    rw [Nat.length_toDigits_le_iff (by decide) (by decide), bound_eq_pow]
    exact Nat.pow_lt_pow_right (by decide) (Nat.lt_succ_self _)
  omega

end Decimal

theorem exists_label_of_le_bound {i : Int} (hlow : -(Decimal.bound : Int) ≤ i)
    (hhigh : i ≤ Decimal.bound) : ∃ text, label i = .ok text := by
  have hfive := Decimal.five_dvd_bound
  rw [exists_label_iff, Decimal.Fits]
  omega

theorem label_of_natAbs {i : Int} (h : i.natAbs = Decimal.bound + 1) :
    label i = .error .digitLimit := by
  have hthree := Decimal.bound_mod_three
  have hfive := Decimal.five_dvd_bound
  rw [label_eq_error_iff, Decimal.Fits]
  exact ⟨by omega, by omega, by omega, rfl⟩

private theorem not_exists_label_of_natAbs {i : Int} (h : i.natAbs = Decimal.bound + 1) :
    ¬ ∃ text, label i = .ok text := by
  rintro ⟨text, htext⟩
  rw [label_of_natAbs h] at htext
  simp at htext

private theorem exists_label_beyond_iff {i : Int} (h : Decimal.bound ≤ i.natAbs) :
    (∃ text, label i = .ok text) ↔ 3 ∣ i ∨ 5 ∣ i := by
  have hfits : ¬ Decimal.Fits i := Nat.not_lt.mpr h
  simp [exists_label_iff, hfits]

private theorem exists_no_rule_of_three (i : Int) :
    ∃ k : Int, i ≤ k ∧ k ≤ i + 2 ∧ ¬ 3 ∣ k ∧ ¬ 5 ∣ k := by
  by_cases hfirst : 3 ∣ i ∨ 5 ∣ i
  · by_cases hsecond : 3 ∣ i + 1 ∨ 5 ∣ i + 1
    · exact ⟨i + 2, by omega, by omega, by omega, by omega⟩
    · exact ⟨i + 1, by omega, by omega, by omega, by omega⟩
  · exact ⟨i, by omega, by omega, by omega, by omega⟩

namespace Span

variable {s : Span}

private theorem exists_labels_iff_within (hfirst : s.first ≤ Decimal.bound)
    (hlast : -(Decimal.bound : Int) ≤ s.last) : (∃ texts, s.labels = .ok texts) ↔
      s.last < s.first ∨ (-(Decimal.bound : Int) ≤ s.first ∧ s.last ≤ Decimal.bound) := by
  rw [exists_labels_iff]
  constructor
  · intro h
    by_contra hout
    rw [not_or, not_and_or] at hout
    -- A span that meets the bounds and leaves them holds the first index behind one of them.
    obtain ⟨hle, hlow | hhigh⟩ := hout
    · have hbefore := h (-(Decimal.bound : Int) - 1) (by omega) (by omega)
      exact not_exists_label_of_natAbs (by omega) hbefore
    · have hbehind := h ((Decimal.bound : Int) + 1) (by omega) (by omega)
      exact not_exists_label_of_natAbs (by omega) hbehind
  · intro h i hi hi'
    apply exists_label_of_le_bound
    · omega
    · omega

private theorem exists_labels_iff_beyond
    (h : s.last < -(Decimal.bound : Int) ∨ Decimal.bound < s.first) :
    (∃ texts, s.labels = .ok texts) ↔ ∀ i, s.first ≤ i → i ≤ s.last → 3 ∣ i ∨ 5 ∣ i := by
  have hbeyond : ∀ i, s.first ≤ i → i ≤ s.last →
      ((∃ text, label i = .ok text) ↔ 3 ∣ i ∨ 5 ∣ i) := by
    intro i hfirst hlast
    apply exists_label_beyond_iff
    omega
  rw [exists_labels_iff]
  constructor
  · intro hall i hfirst hlast
    exact (hbeyond i hfirst hlast).mp (hall i hfirst hlast)
  · intro hall i hfirst hlast
    exact (hbeyond i hfirst hlast).mpr (hall i hfirst hlast)

theorem size_le_two_of_rules (h : ∀ i, s.first ≤ i → i ≤ s.last → 3 ∣ i ∨ 5 ∣ i) :
    s.size ≤ 2 := by
  by_contra hsize
  unfold Span.size at hsize
  obtain ⟨k, hlow, hhigh, hthree, hfive⟩ := exists_no_rule_of_three s.first
  rcases h k hlow (by omega) with hk | hk
  · exact hthree hk
  · exact hfive hk

/-- Let `B` be the least natural with too many digits. A span that meets the integers from `-B` to
`B` has labels just when it holds no others, and a span beyond them just when a rule holds at each
of its indices, of which there are then two at most. -/
theorem labels_frontier (s : Span) (hs : s.first ≤ s.last) :
    let B : Nat := 10 ^ Decimal.digitLimit
    Decimal.digitLimit = 4300 ∧ (Nat.toDigits 10 B).length = 4301 ∧
    (s.first ≤ B → -B ≤ s.last →
      ((∃ texts, s.labels = .ok texts) ↔ -B ≤ s.first ∧ s.last ≤ B)) ∧
    (s.last < -B ∨ B < s.first →
      ((∃ texts, s.labels = .ok texts) ↔ ∀ i, s.first ≤ i → i ≤ s.last → 3 ∣ i ∨ 5 ∣ i) ∧
      ((∃ texts, s.labels = .ok texts) → s.size ≤ 2)) ∧
    ((¬ ∃ texts, s.labels = .ok texts) → s.labels = .error .digitLimit) := by
  intro B
  have hB : B = Decimal.bound := Decimal.bound_eq_pow.symm
  rw [hB]
  refine ⟨rfl, Decimal.length_toDigits_bound, ?_, ?_, ?_⟩
  · intro hfirst hlast
    rw [exists_labels_iff_within hfirst hlast]
    omega
  · intro hbeyond
    have hrules := exists_labels_iff_beyond hbeyond
    exact ⟨hrules, fun h => size_le_two_of_rules (hrules.mp h)⟩
  · intro hnone
    cases h : s.labels with
    | error fault => rw [(labels_eq_error_iff.mp h).1]
    | ok texts => exact absurd ⟨texts, h⟩ hnone

/-- Everything between the bounds has labels, one index more has none, and further out there are two
indices in a row that have labels again. -/
theorem labels_frontier_crossed :
    let B : Nat := 10 ^ Decimal.digitLimit
    (∃ texts, Span.labels ⟨-B, B⟩ = .ok texts) ∧
      Span.labels ⟨B, B + 1⟩ = .error .digitLimit ∧
      ∃ texts, Span.labels ⟨B + 10, B + 11⟩ = .ok texts := by
  intro B
  have hB : B = Decimal.bound := Decimal.bound_eq_pow.symm
  rw [hB]
  have hthree := Decimal.bound_mod_three
  have hfive := Decimal.five_dvd_bound
  have hwithin := labels_frontier ⟨-Decimal.bound, Decimal.bound⟩ (by simp only; omega)
  have hcrossing := labels_frontier ⟨Decimal.bound, Decimal.bound + 1⟩ (by simp only; omega)
  have hbeyond := labels_frontier ⟨Decimal.bound + 10, Decimal.bound + 11⟩ (by simp only; omega)
  simp only [← Decimal.bound_eq_pow] at hwithin hcrossing hbeyond
  refine ⟨?_, ?_, ?_⟩
  · exact (hwithin.2.2.1 (by omega) (by omega)).mpr ⟨by omega, by omega⟩
  · apply hcrossing.2.2.2.2
    rw [hcrossing.2.2.1 (by omega) (by omega)]
    omega
  · apply (hbeyond.2.2.2.1 (.inr (by omega))).1.mpr
    intro i hfirst hlast
    omega

end Span

end CountingGame
