import CountingGame.Proofs.Frontier
/-!
# Cutting a span in two

A span may be cut behind any index, or before its first. It is told by telling one part and then the
other, and what keeps it from being told is what keeps the first part that fails.
-/
namespace CountingGame

/-- The labels of `m + n` indices in a row are those of the first `m`, then those of the other `n`;
no label behind a missing one is ever asked for. -/
theorem labelsFrom_add (i : Int) (m n : Nat) : labelsFrom i (m + n) = do
    let left ← labelsFrom i m
    let right ← labelsFrom (i + m) n
    return left ++ right := by
  induction m generalizing i with
  | zero =>
    rw [Nat.zero_add, Int.natCast_zero, Int.add_zero]
    cases labelsFrom i n <;> rfl
  | succ m ih =>
    have hindex : i + 1 + (m : Int) = i + ((m + 1 : Nat) : Int) := by omega
    have htail := ih (i + 1)
    rw [hindex] at htail
    rw [Nat.add_right_comm, labelsFrom, labelsFrom, htail]
    cases label i with
    | error fault => rfl
    | ok head =>
      cases labelsFrom (i + 1) m with
      | error fault => rfl
      | ok left => cases labelsFrom (i + ((m + 1 : Nat) : Int)) n <;> rfl

namespace Span

/-- The part of a span that ends with an index. -/
def upTo (s : Span) (mid : Int) : Span := { s with last := mid }

/-- The part of a span that begins behind an index. -/
def beyond (s : Span) (mid : Int) : Span := { s with first := mid + 1 }

variable {s : Span} {mid : Int}

private theorem size_upTo_add_size_beyond (hfirst : s.first ≤ mid + 1) (hlast : mid ≤ s.last) :
    (s.upTo mid).size + (s.beyond mid).size = s.size := by
  simp only [size, upTo, beyond]
  omega

private theorem labels_eq_bind (hfirst : s.first ≤ mid + 1) (hlast : mid ≤ s.last) : s.labels = do
    let left ← (s.upTo mid).labels
    let right ← (s.beyond mid).labels
    return left ++ right := by
  have hbegin : s.first + ((s.upTo mid).size : Int) = mid + 1 := by
    simp only [size, upTo]
    omega
  have hadd := labelsFrom_add s.first (s.upTo mid).size (s.beyond mid).size
  rw [size_upTo_add_size_beyond hfirst hlast, hbegin] at hadd
  exact hadd

/-- A span cut behind `mid` has labels just when both parts do, and then those of the first come
before those of the second. A span without labels lacks them for the fault of its first part or, if
that has labels, of its second. -/
theorem labels_cut (s : Span) (mid : Int) (hfirst : s.first ≤ mid + 1) (hlast : mid ≤ s.last) :
    ((∃ labels, s.labels = .ok labels) ↔
      (∃ left, (s.upTo mid).labels = .ok left) ∧ ∃ right, (s.beyond mid).labels = .ok right) ∧
    (∀ left right, (s.upTo mid).labels = .ok left → (s.beyond mid).labels = .ok right →
      s.labels = .ok (left ++ right)) ∧
    ∀ fault, s.labels = .error fault ↔ (s.upTo mid).labels = .error fault ∨
      ((∃ left, (s.upTo mid).labels = .ok left) ∧ (s.beyond mid).labels = .error fault) := by
  rw [labels_eq_bind hfirst hlast]
  cases (s.upTo mid).labels with
  | error fault => simp [bind, Except.bind]
  | ok left =>
    cases (s.beyond mid).labels with
    | error fault => simp [bind, Except.bind]
    | ok right => simp [bind, Except.bind, pure, Except.pure]

/-- A cut at zero puts a negative number and a positive one into different parts, a cut before the
first index leaves the first part empty, and a cut at the bound leaves the second without labels. -/
theorem labels_cut_at_zero_and_at_bound :
    let B : Nat := 10 ^ Decimal.digitLimit
    Span.labels ⟨-1, 1⟩ = .ok (["-1", "fizzbuzz"] ++ ["1"]) ∧
      Span.labels ⟨4, 5⟩ = .ok ([] ++ ["4", "buzz"]) ∧
      Span.labels ⟨B, B + 1⟩ = .error .digitLimit := by
  intro B
  have hB : B = Decimal.bound := Decimal.bound_eq_pow.symm
  rw [hB]
  have hbound : Span.labels ⟨Decimal.bound + 1, Decimal.bound + 1⟩ = .error .digitLimit := by
    have hlabel := label_of_natAbs (i := Decimal.bound + 1) (by omega)
    exact labels_eq_error_iff.mpr ⟨rfl, _, Int.le_refl _, Int.le_refl _, hlabel⟩
  have hbelow : ∃ left, Span.labels ⟨Decimal.bound, Decimal.bound⟩ = .ok left := by
    apply exists_labels_iff.mpr
    intro i hlow hhigh
    exact exists_label_of_le_bound (by simp only at hlow; omega) hhigh
  refine ⟨?_, ?_, ?_⟩
  · exact (labels_cut ⟨-1, 1⟩ 0 (by decide) (by decide)).2.1 _ _ (by decide +kernel)
      (by decide +kernel)
  · exact (labels_cut ⟨4, 5⟩ 3 (by decide) (by decide)).2.1 _ _ (by decide +kernel)
      (by decide +kernel)
  · have hcut := labels_cut ⟨Decimal.bound, Decimal.bound + 1⟩ Decimal.bound (by simp only; omega)
      (by simp only; omega)
    exact (hcut.2.2 .digitLimit).mpr (.inr ⟨hbelow, hbound⟩)

end Span

end CountingGame
