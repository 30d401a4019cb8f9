import CountingGame.Cursor
import CountingGame.Proofs.Numbering
/-!
# Where a cursor stands

A cursor is determined by its pass, by the labels it was begun on and by the number of lines that
were asked of it, as long as there are not too many labels for their positions to be written. So
each line that it gives is a line of the whole pass.
-/
namespace CountingGame

/-- A pass of which this many lines were asked for. -/
def Pass.cursorAt (p : Pass) (labels : List String) (asked : Nat) : Cursor :=
  match p with
  | .ordinal => .ordinal (1 + min asked labels.length) (labels.drop asked)
  | .offset => .offset (min asked labels.length) labels

theorem Pass.cursor_eq_cursorAt (p : Pass) (labels : List String) :
    p.cursor labels = p.cursorAt labels 0 := by
  cases p with
  | ordinal => simp [Pass.cursor, Pass.cursorAt]
  | offset => simp [Pass.cursor, Pass.cursorAt]

private theorem Pass.cursorAt_add_of_le (p : Pass) {labels : List String} {asked : Nat}
    (h : labels.length ≤ asked) (more : Nat) :
    p.cursorAt labels (asked + more) = p.cursorAt labels asked := by
  have hmin : min (asked + more) labels.length = min asked labels.length := by omega
  cases p with
  | ordinal =>
    simp only [Pass.cursorAt, hmin, List.drop_of_length_le h,
      List.drop_of_length_le (Nat.le_trans h (Nat.le_add_right asked more))]
  | offset => simp only [Pass.cursorAt, hmin]

namespace Cursor

variable {labels : List String} {asked : Nat}

theorem next_cursorAt_of_le (p : Pass) (h : labels.length ≤ asked) :
    (p.cursorAt labels asked).next = .ok none := by
  cases p with
  | ordinal =>
    rw [Pass.cursorAt, List.drop_of_length_le h]
    rfl
  | offset =>
    have hend : ¬ min asked labels.length < labels.length := by omega
    simp only [Pass.cursorAt, Cursor.next, if_neg hend]

theorem next_cursorAt_of_lt (p : Pass) (hlen : labels.length < Decimal.bound)
    (h : asked < labels.length) :
    (p.cursorAt labels asked).next =
      .ok (some (Entry.lineText ⟨(p.start + asked : Nat), labels[asked]⟩,
        p.cursorAt labels (asked + 1))) := by
  have hmin : min asked labels.length = asked := by omega
  have hmin' : min (asked + 1) labels.length = asked + 1 := by omega
  cases p with
  | ordinal =>
    have hline : Entry.line ⟨(1 + asked : Nat), labels[asked]⟩ =
        .ok (Entry.lineText ⟨(1 + asked : Nat), labels[asked]⟩) :=
      Entry.line_of_fits (Decimal.fits_natCast.mpr (by omega))
    simp only [Pass.cursorAt, hmin, hmin', List.drop_eq_getElem_cons h, Cursor.next, hline]
    rfl
  | offset =>
    have hline : Entry.line ⟨(asked : Nat), labels[asked]⟩ =
        .ok (Entry.lineText ⟨(asked : Nat), labels[asked]⟩) :=
      Entry.line_of_fits (Decimal.fits_natCast.mpr (by omega))
    simp only [Pass.cursorAt, hmin, hmin', Cursor.next, if_pos h, entryAt_of_lt h, Pass.start,
      Nat.zero_add, bind, Except.bind, hline]
    rfl

theorem pull_cursorAt (p : Pass) (hlen : labels.length < Decimal.bound) (asked count : Nat) :
    (p.cursorAt labels asked).pull count =
      .ok ⟨((linesFrom p.start labels).drop asked).take count,
        decide (0 < count ∧ labels.length < asked + count), p.cursorAt labels (asked + count)⟩ := by
  induction count generalizing asked with
  | zero => simp
  | succ count ih =>
    by_cases h : asked < labels.length
    · rw [pull_of_next_some (next_cursorAt_of_lt p hlen h), ih (asked + 1)]
      have hlt : asked < (linesFrom p.start labels).length := by simpa using h
      have hsegment : ((linesFrom p.start labels).drop asked).take (count + 1) =
          Entry.lineText ⟨(p.start + asked : Nat), labels[asked]⟩ ::
            ((linesFrom p.start labels).drop (asked + 1)).take count := by
        rw [List.drop_eq_getElem_cons hlt, List.take_succ_cons, getElem_linesFrom hlt h]
      have hasked : asked + 1 + count = asked + (count + 1) := by omega
      have hfinished : (0 < count ∧ labels.length < asked + (count + 1)) ↔
          (0 < count + 1 ∧ labels.length < asked + (count + 1)) := by omega
      simp only [Except.map, hsegment, hfinished, hasked]
    · -- At its end the cursor stays, and the lines asked for beyond it change nothing.
      have hle : labels.length ≤ asked := Nat.le_of_not_lt h
      have hnone : (linesFrom p.start labels).drop asked = [] :=
        List.drop_of_length_le (by simpa using hle)
      have hfinished : 0 < count + 1 ∧ labels.length < asked + (count + 1) := by omega
      rw [pull_of_next_none (next_cursorAt_of_le p hle), hnone, List.take_nil,
        decide_eq_true hfinished, p.cursorAt_add_of_le hle]

end Cursor

end CountingGame
