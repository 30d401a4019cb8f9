import CountingGame.Proofs.Frontier
/-!
# Spans told as lines

The labels of a span start at its first index, the ordinal pass at one and the offset pass at zero.
Line `k` of either pass still tells the label of index `first + k`, and there are as many lines as
indices. One index without a label leaves nothing to tell.
-/
namespace CountingGame

namespace Span

variable {s : Span}

private theorem render_of_error {fault : Fault} (h : s.labels = .error fault) :
    s.render = .error fault := by
  simp only [render, h, bind, Except.bind]

private theorem render_of_lt {labels : List String} (h : s.labels = .ok labels)
    (hlt : labels.length < Decimal.bound) : s.render =
      .ok ⟨String.join (linesFrom 1 labels), String.join (linesFrom 0 labels)⟩ := by
  have hordinal := Pass.ordinal.text_of_lt hlt
  have hoffset := Pass.offset.text_of_lt hlt
  simp only [render, h, hordinal, hoffset, bind, Except.bind]
  rfl

private theorem size_eq_max (s : Span) : (s.size : Int) = max 0 (s.last - s.first + 1) := by
  unfold Span.size
  omega

/-- If an index of a span has no label, the span has neither labels nor lines. Otherwise it has one
label for each index, in order, and each pass tells one line for each label, numbered from its own
start; in a span from one the ordinal number is the index. -/
theorem labels_then_lines (s : Span) :
    ((∃ i, s.first ≤ i ∧ i ≤ s.last ∧ ∃ fault, label i = .error fault) →
      s.labels = .error .digitLimit ∧ s.render = .error .digitLimit) ∧
    ((¬ ∃ i, s.first ≤ i ∧ i ≤ s.last ∧ ∃ fault, label i = .error fault) →
      ∃ labels, s.labels = .ok labels ∧
        (labels.length : Int) = max 0 (s.last - s.first + 1) ∧
        (∀ k (hk : k < labels.length), label (s.first + k) = .ok labels[k]) ∧
        (labels.length < 10 ^ Decimal.digitLimit → ∃ ordinal offset,
          Pass.ordinal.lines labels = .ok ordinal ∧ Pass.offset.lines labels = .ok offset ∧
          s.render = .ok ⟨String.join ordinal, String.join offset⟩ ∧
          ordinal.length = labels.length ∧ offset.length = labels.length ∧
          ∀ k (hk : k < labels.length),
            ordinal[k]? = some (toString (k + 1) ++ ": " ++ labels[k] ++ "\n") ∧
            offset[k]? = some (toString k ++ ": " ++ labels[k] ++ "\n") ∧
            (s.first = 1 →
              ordinal[k]? = some (toString (s.first + k) ++ ": " ++ labels[k] ++ "\n")))) := by
  constructor
  · rintro ⟨i, hfirst, hlast, fault, hi⟩
    obtain rfl := fault_of_label hi
    have hlabels : s.labels = .error .digitLimit :=
      labels_eq_error_iff.mpr ⟨rfl, i, hfirst, hlast, hi⟩
    exact ⟨hlabels, render_of_error hlabels⟩
  · intro hall
    cases hlabels : s.labels with
    | error fault =>
      obtain ⟨_, i, hfirst, hlast, hi⟩ := labels_eq_error_iff.mp hlabels
      exact absurd ⟨i, hfirst, hlast, _, hi⟩ hall
    | ok labels =>
      obtain ⟨hlength, hlabel⟩ := labelsFrom_eq_ok_iff.mp hlabels
      refine ⟨labels, rfl, ?_, hlabel, ?_⟩
      · rw [hlength]
        exact s.size_eq_max
      · intro hlt
        rw [← Decimal.bound_eq_pow] at hlt
        refine ⟨linesFrom 1 labels, linesFrom 0 labels, Pass.ordinal.lines_of_lt hlt,
          Pass.offset.lines_of_lt hlt, render_of_lt hlabels hlt, length_linesFrom _ _,
          length_linesFrom _ _, ?_⟩
        intro k hk
        have hline : ∀ position : Nat, (linesFrom position labels)[k]? =
            some (toString (position + k) ++ ": " ++ labels[k] ++ "\n") := by
          intro position
          rw [getElem?_linesFrom, List.getElem?_eq_getElem hk, Option.map_some, Entry.lineText,
            Decimal.text_eq_toString]
          rfl
        refine ⟨?_, ?_, ?_⟩
        · rw [hline, Nat.add_comm]
        · rw [hline, Nat.zero_add]
        · intro hone
          rw [hline, hone]
          rfl

/-- A span that crosses the bound is not told at all. One that starts at one is told with the index
in front of its label, and then with the number before it. -/
theorem labels_then_lines_to_three :
    let B : Nat := 10 ^ Decimal.digitLimit
    (∃ fault, label (B + 1) = .error fault) ∧
      Span.render ⟨B, B + 1⟩ = .error .digitLimit ∧
      (∀ i, 1 ≤ i → i ≤ 3 → ¬ ∃ fault, label i = .error fault) ∧
      ∃ labels ordinal offset, Span.labels ⟨1, 3⟩ = .ok labels ∧ labels.length = 3 ∧
        Span.render ⟨1, 3⟩ = .ok ⟨String.join ordinal, String.join offset⟩ ∧
        ordinal[2]? = some "3: fizz\n" ∧ offset[2]? = some "2: fizz\n" := by
  intro B
  have hB : B = Decimal.bound := Decimal.bound_eq_pow.symm
  rw [hB]
  have hfault : ∃ fault, label (Decimal.bound + 1) = .error fault :=
    ⟨.digitLimit, label_of_natAbs (by omega)⟩
  have hbound : 10 ^ 1 ≤ Decimal.bound := Decimal.ten_pow_le_bound (by decide)
  have hall : ∀ i, 1 ≤ i → i ≤ 3 → ¬ ∃ fault, label i = .error fault := by
    rintro i hlow hhigh ⟨fault, hi⟩
    apply (label_eq_error_iff.mp hi).2.2.1
    unfold Decimal.Fits
    omega
  have hpow : 3 < 10 ^ Decimal.digitLimit := by
    rw [← Decimal.bound_eq_pow]
    omega
  refine ⟨hfault, ?_, hall, ?_⟩
  · exact ((labels_then_lines ⟨Decimal.bound, Decimal.bound + 1⟩).1
      ⟨Decimal.bound + 1, by simp only; omega, by simp only; omega, hfault⟩).2
  · obtain ⟨labels, hlabels, hlength, hlabel, hlines⟩ :=
      (labels_then_lines ⟨1, 3⟩).2 fun ⟨i, hlow, hhigh, hi⟩ => hall i hlow hhigh hi
    have hthree : labels.length = 3 := Int.ofNat_inj.mp hlength
    obtain ⟨ordinal, offset, _, _, hrender, _, _, htold⟩ := hlines (hthree ▸ hpow)
    have hlast : labels[2] = "fizz" := by
      have h := hlabel 2 (by omega)
      rw [show label ((1 : Int) + (2 : Nat)) = .ok "fizz" by decide +kernel] at h
      exact (Except.ok.inj h).symm
    obtain ⟨_, hoffset, hone⟩ := htold 2 (by omega)
    rw [hlast] at hoffset hone
    exact ⟨labels, ordinal, offset, hlabels, hthree, hrender, hone rfl, hoffset⟩

end Span

end CountingGame
