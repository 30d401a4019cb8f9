import CountingGame.Cursor
import CountingGame.Proofs.Numbering
/-!
# The passes one step apart

The ordinal pass counts along, the offset pass looks up. Every look-up finds its label, so over the
same labels the passes differ by one in each position and in nothing else: an offset pass with one
more label in front goes on exactly as the ordinal pass over the labels behind it.
-/
namespace CountingGame

private theorem numberFrom_succ (position : Nat) (labels : List String) :
    numberFrom (position + 1) labels =
      (numberFrom position labels).map fun e => ⟨e.position + 1, e.label⟩ := by
  induction labels generalizing position with
  | nil => rfl
  | cons label labels ih =>
    rw [numberFrom, numberFrom, List.map_cons, ih (position + 1)]
    rfl

private theorem Pass.offset_lines_cons (label : String) (labels : List String) :
    Pass.offset.lines (label :: labels) =
      (Pass.ordinal.lines labels).map (Entry.lineText ⟨0, label⟩ :: ·) := by
  have hfirst : Entry.line ⟨(0 : Nat), label⟩ = .ok (Entry.lineText ⟨0, label⟩) :=
    Entry.line_of_fits Decimal.fits_zero
  rw [Pass.lines_eq, Pass.lines_eq, Pass.start, Pass.start, numberFrom, List.mapM_cons, hfirst]
  cases (numberFrom 1 labels).mapM Entry.line with
  | error fault =>
    -- The digits for a later position run out, so neither pass is told.
    simp [bind, Except.bind, Except.map]
  | ok lines => simp [bind, Except.bind, Except.map, pure, Except.pure]

namespace Cursor

private theorem fault_of_line_bind {α : Type} {e : Entry} {f : String → α} {fault : Fault}
    (h : (do let line ← e.line; return f line) = .error fault) : fault = .digitLimit := by
  rcases bind_eq_error.mp h with hline | ⟨line, _, h⟩
  · exact (Entry.line_eq_error_iff.mp hline).2
  · simp [pure, Except.pure] at h

private theorem fault_of_next {c : Cursor} {fault : Fault} (h : c.next = .error fault) :
    fault = .digitLimit := by
  cases c with
  | ordinal position ahead =>
    cases ahead with
    | nil => simp [next] at h
    | cons label ahead => exact fault_of_line_bind h
  | offset position labels =>
    by_cases hlt : position < labels.length
    · -- The offset was compared with the length, so the look-up finds a label.
      rw [next, if_pos hlt, entryAt_of_lt hlt] at h
      exact fault_of_line_bind h
    · simp [next, hlt] at h

/-- A cursor never looks for a label that is not there: it can only lack digits. -/
theorem fault_of_pull {c : Cursor} {count : Nat} {fault : Fault}
    (h : c.pull count = .error fault) : fault = .digitLimit := by
  induction count generalizing c fault with
  | zero => simp at h
  | succ count ih =>
    rcases bind_eq_error.mp h with hnext | ⟨step, _, h⟩
    · exact fault_of_next hnext
    · cases step with
      | none => simp [pure, Except.pure] at h
      | some step =>
        rcases bind_eq_error.mp h with hrest | ⟨more, _, h⟩
        · exact ih hrest
        · simp [pure, Except.pure] at h

end Cursor

/-- Line `k` of either pass tells label `k`, and the ordinal pass numbers it one higher. An offset
pass with one more label in front tells that label at zero and then the lines of the ordinal pass.
No look-up of an offset pass ever misses its label. -/
theorem passes_shifted_by_one (labels : List String) :
    (labels.length < 10 ^ Decimal.digitLimit → ∃ ordinal offset,
      Pass.ordinal.lines labels = .ok ordinal ∧ Pass.offset.lines labels = .ok offset ∧
      (∀ label, ∃ first, Entry.line ⟨0, label⟩ = .ok first ∧
        Pass.offset.lines (label :: labels) = .ok (first :: ordinal)) ∧
      ordinal.length = labels.length ∧ offset.length = labels.length ∧
      ∀ k (hk : k < labels.length), ∃ higher lower,
        ordinal[k]? = some higher ∧ Entry.line ⟨k + 1, labels[k]⟩ = .ok higher ∧
        offset[k]? = some lower ∧ Entry.line ⟨k, labels[k]⟩ = .ok lower) ∧
    (∃ entries, Pass.offset.entries labels = .ok entries ∧ entries.map Entry.label = labels ∧
      Pass.ordinal.entries labels = .ok (entries.map fun e => ⟨e.position + 1, e.label⟩)) ∧
    ∀ position count k, (Cursor.offset position labels).pull count ≠ .error (.noLabel k) := by
  refine ⟨?_, ?_, ?_⟩
  · intro hlt
    rw [← Decimal.bound_eq_pow] at hlt
    have hordinal := Pass.ordinal.lines_of_lt hlt
    refine ⟨linesFrom 1 labels, linesFrom 0 labels, hordinal, Pass.offset.lines_of_lt hlt, ?_,
      length_linesFrom _ _, length_linesFrom _ _, ?_⟩
    · intro label
      refine ⟨_, Entry.line_of_fits Decimal.fits_zero, ?_⟩
      rw [Pass.offset_lines_cons, hordinal]
      rfl
    · intro k hk
      have hfits : Decimal.Fits ((k + 1 : Nat) : Int) := Decimal.fits_natCast.mpr (by omega)
      have hfits' : Decimal.Fits (k : Int) := Decimal.fits_natCast.mpr (by omega)
      refine ⟨_, _, ?_, Entry.line_of_fits hfits, ?_, Entry.line_of_fits hfits'⟩
      · rw [getElem?_linesFrom, List.getElem?_eq_getElem hk, Nat.add_comm]
        rfl
      · rw [getElem?_linesFrom, List.getElem?_eq_getElem hk, Nat.zero_add]
        rfl
  · refine ⟨numberFrom 0 labels, Pass.offset.entries_eq labels, map_label_numberFrom 0 labels, ?_⟩
    rw [← numberFrom_succ]
    rfl
  · intro position count k h
    exact absurd (Cursor.fault_of_pull h) (by simp)

/-- A label in front of two others goes to position zero, and the last is at two in both passes. -/
theorem passes_shifted_by_one_two_labels :
    ["fizz", "4: "].length < 10 ^ Decimal.digitLimit ∧ ∃ first ordinal,
      Pass.ordinal.lines ["fizz", "4: "] = .ok ordinal ∧ Entry.line ⟨0, "2"⟩ = .ok first ∧
      Pass.offset.lines ["2", "fizz", "4: "] = .ok (first :: ordinal) ∧
      ordinal[1]? = some "2: 4: \n" := by
  have hlt : 2 < 10 ^ Decimal.digitLimit :=
    Decimal.lt_ten_pow_digitLimit 1 (by decide) (by decide)
  obtain ⟨ordinal, _, hordinal, _, hcons, _, _, htold⟩ :=
    (passes_shifted_by_one ["fizz", "4: "]).1 hlt
  obtain ⟨first, hfirst, hoffset⟩ := hcons "2"
  obtain ⟨higher, _, hget, hhigher, _, _⟩ := htold 1 (by decide)
  have hlast : higher = "2: 4: \n" := Entry.eq_lineText_of_line hhigher
  rw [hlast] at hget
  exact ⟨hlt, first, ordinal, hordinal, hfirst, hoffset, hget⟩

end CountingGame
