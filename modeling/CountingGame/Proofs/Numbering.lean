import Mathlib
import CountingGame.Pass
/-!
# Numbered lines

A pass over fewer than `Decimal.bound` labels never runs out of digits, so it tells every label.
This module says which lines it tells, as texts that need no `Except`, and how they split.
-/
namespace CountingGame

-- The exponent is a variable here, for with the limit in its place the power would be evaluated.
private theorem nat_pow_ten (k : Nat) : Nat.pow 10 k = 10 ^ k := rfl

theorem Decimal.bound_eq_pow : Decimal.bound = 10 ^ Decimal.digitLimit := by
  unfold Decimal.bound
  rw [nat_pow_ten]

theorem Decimal.ten_pow_le_bound {k : Nat} (h : k ≤ Decimal.digitLimit) :
    10 ^ k ≤ Decimal.bound := by
  rw [Decimal.bound_eq_pow]
  exact Nat.pow_le_pow_right (by decide) h

theorem Decimal.lt_ten_pow_digitLimit {n : Nat} (k : Nat) (hk : k ≤ Decimal.digitLimit)
    (h : n < 10 ^ k) : n < 10 ^ Decimal.digitLimit :=
  Nat.lt_of_lt_of_le h (Nat.pow_le_pow_right (by decide) hk)

theorem Decimal.fits_natCast {n : Nat} : Decimal.Fits n ↔ n < Decimal.bound := by
  simp [Decimal.Fits]

theorem Decimal.fits_zero : Decimal.Fits 0 := by
  rw [Decimal.Fits, Decimal.bound_eq_pow]
  exact Decimal.lt_ten_pow_digitLimit 0 (Nat.zero_le _) Nat.one_pos

/-- The line of an entry, whatever the number of digits of its position. -/
def Entry.lineText (e : Entry) : String := Decimal.text e.position ++ ": " ++ e.label ++ "\n"

theorem Entry.line_of_fits {e : Entry} (h : Decimal.Fits e.position) : e.line = .ok e.lineText := by
  rw [Entry.line_eq, Decimal.write_of_fits h]
  rfl

theorem Entry.line_eq_error_iff {e : Entry} {fault : Fault} :
    e.line = .error fault ↔ ¬ Decimal.Fits e.position ∧ fault = .digitLimit := by
  by_cases hfits : Decimal.Fits e.position
  · simp [Entry.line_of_fits hfits, hfits]
  · simp [Entry.line_eq, Decimal.write_of_not_fits hfits, Except.map, hfits, eq_comm]

theorem Entry.eq_lineText_of_line {e : Entry} {line : String} (h : e.line = .ok line) :
    line = e.lineText := by
  rw [Entry.line_eq, Decimal.write] at h
  split at h
  · exact (Except.ok.inj h).symm
  · simp [Except.map] at h

private theorem Entry.lineText_ne_empty (e : Entry) : e.lineText ≠ "" := by
  intro h
  have hlen := congrArg String.length h
  simp [Entry.lineText] at hlen

theorem map_label_numberFrom (position : Nat) (labels : List String) :
    (numberFrom position labels).map Entry.label = labels := by
  induction labels generalizing position with
  | nil => rfl
  | cons label labels ih => rw [numberFrom, List.map_cons, ih (position + 1)]

def linesFrom (position : Nat) (labels : List String) : List String :=
  (numberFrom position labels).map Entry.lineText

@[simp] theorem linesFrom_nil (position : Nat) : linesFrom position [] = [] := rfl

theorem linesFrom_cons (position : Nat) (label : String) (labels : List String) :
    linesFrom position (label :: labels) =
      Entry.lineText ⟨position, label⟩ :: linesFrom (position + 1) labels := rfl

@[simp] theorem length_linesFrom (position : Nat) (labels : List String) :
    (linesFrom position labels).length = labels.length := by
  simp [linesFrom]

theorem ne_empty_of_mem_linesFrom {position : Nat} {labels : List String} {line : String}
    (h : line ∈ linesFrom position labels) : line ≠ "" := by
  obtain ⟨e, _, rfl⟩ := List.mem_map.mp h
  exact e.lineText_ne_empty

theorem getElem_linesFrom {position k : Nat} {labels : List String}
    (hline : k < (linesFrom position labels).length) (hlabel : k < labels.length) :
    (linesFrom position labels)[k] = Entry.lineText ⟨(position + k : Nat), labels[k]⟩ := by
  induction labels generalizing position k with
  | nil => simp at hlabel
  | cons label labels ih =>
    cases k with
    | zero => rfl
    | succ k =>
      have hposition : position + (k + 1) = position + 1 + k := by omega
      simp only [linesFrom_cons, List.getElem_cons_succ, hposition]
      exact ih _ _

theorem getElem?_linesFrom (position : Nat) (labels : List String) (k : Nat) :
    (linesFrom position labels)[k]? =
      labels[k]?.map fun label => Entry.lineText ⟨(position + k : Nat), label⟩ := by
  by_cases hk : k < labels.length
  · have hline : k < (linesFrom position labels).length := by simpa using hk
    rw [List.getElem?_eq_getElem hline, List.getElem?_eq_getElem hk, getElem_linesFrom hline hk]
    rfl
  · have hline : (linesFrom position labels).length ≤ k := by simpa using hk
    rw [List.getElem?_eq_none hline, List.getElem?_eq_none (Nat.le_of_not_lt hk)]
    rfl

private theorem numberFrom_mapM_line (position : Nat) (labels : List String)
    (h : position + labels.length ≤ Decimal.bound) :
    (numberFrom position labels).mapM Entry.line = .ok (linesFrom position labels) := by
  induction labels generalizing position with
  | nil => rfl
  | cons label labels ih =>
    rw [List.length_cons] at h
    have hhead : Entry.line ⟨position, label⟩ = .ok (Entry.lineText ⟨position, label⟩) :=
      Entry.line_of_fits (Decimal.fits_natCast.mpr (by omega))
    have htail := ih (position + 1) (by omega)
    rw [numberFrom, List.mapM_cons, hhead, htail]
    rfl

private theorem eq_linesFrom_of_mapM {position : Nat} {labels lines : List String}
    (h : (numberFrom position labels).mapM Entry.line = .ok lines) :
    lines = linesFrom position labels := by
  induction labels generalizing position lines with
  | nil => exact (Except.ok.inj h).symm
  | cons label labels ih =>
    rw [numberFrom, List.mapM_cons] at h
    obtain ⟨head, hhead, h⟩ := bind_eq_ok.mp h
    obtain ⟨tail, htail, h⟩ := bind_eq_ok.mp h
    rw [← Except.ok.inj h, Entry.eq_lineText_of_line hhead, ih htail, linesFrom_cons]

theorem Pass.eq_linesFrom_of_lines {p : Pass} {labels lines : List String}
    (h : p.lines labels = .ok lines) : lines = linesFrom p.start labels := by
  rw [Pass.lines_eq] at h
  exact eq_linesFrom_of_mapM h

theorem Pass.lines_of_lt (p : Pass) {labels : List String} (h : labels.length < Decimal.bound) :
    p.lines labels = .ok (linesFrom p.start labels) := by
  rw [Pass.lines_eq]
  apply numberFrom_mapM_line
  cases p with
  | ordinal =>
    simp only [Pass.start]
    omega
  | offset =>
    simp only [Pass.start]
    omega

theorem Pass.text_of_lt (p : Pass) {labels : List String} (h : labels.length < Decimal.bound) :
    p.text labels = .ok (String.join (linesFrom p.start labels)) := by
  rw [Pass.text, p.lines_of_lt h]
  rfl

theorem Pass.eq_join_linesFrom_of_text {p : Pass} {labels : List String} {text : String}
    (h : p.text labels = .ok text) : text = String.join (linesFrom p.start labels) := by
  rw [Pass.text] at h
  cases hlines : p.lines labels with
  | error fault => simp [hlines, Except.map] at h
  | ok lines =>
    rw [hlines, Except.map, Except.ok.injEq] at h
    rw [← h, Pass.eq_linesFrom_of_lines hlines]

end CountingGame
