import CountingGame.Proofs.CursorPlace
import CountingGame.Proofs.StepEffects
/-!
# Suspended passes

A cursor is determined by its pass, by the labels it was begun on and by the number of lines that
were asked of it. So what the next pull gives is a segment of the lines of the whole pass, whatever
happened to other cursors and to the sequences in between.
-/
namespace CountingGame

private theorem take_drop_eq_segment (xs : List String) (k n : Nat) :
    (xs.drop k).take n = (xs.take (min (k + n) xs.length)).drop (min k xs.length) := by
  rw [List.drop_take]
  by_cases h : k ≤ xs.length
  · rw [Nat.min_eq_left h, List.take_eq_take_iff, List.length_drop]
    omega
  · have hle : xs.length ≤ k := Nat.le_of_not_le h
    rw [List.drop_of_length_le hle, List.drop_of_length_le (Nat.le_min.mpr ⟨hle, Nat.le_refl _⟩),
      List.take_nil, List.take_nil]

def Step.asked (cursor : String) : Step → Nat
  | .pull name count => if name = cursor then count else 0
  | _ => 0

private theorem Step.asked_of_ne {cursor : String} {step : Step} (h : step.cursor? ≠ some cursor) :
    step.asked cursor = 0 := by
  cases step with
  | pull name count =>
    have hne : name ≠ cursor := fun he => h (congrArg some he)
    simp [Step.asked, hne]
  | _ => rfl

namespace Session

variable {s : Session} {cursor : String} {p : Pass} {labels : List String} {asked : Nat}

private theorem step_pull_cursorAt (hlen : labels.length < Decimal.bound)
    (h : s.cursors.get? cursor = some (p.cursorAt labels asked)) (count : Nat) :
    (s.step (.pull cursor count)).1.cursors.get? cursor =
        some (p.cursorAt labels (asked + count)) ∧
      (s.step (.pull cursor count)).2 =
        .pulled (((linesFrom p.start labels).drop asked).take count)
          (decide (0 < count ∧ labels.length < asked + count)) := by
  cases count with
  | zero => simp [h]
  | succ n =>
    simp only [Session.step, h, Cursor.pull_cursorAt p hlen, Slots.get?_set, if_true, and_self]

/-- One step extends the number of lines asked of a cursor by those that the step asks of it. -/
theorem step_cursorAt (hlen : labels.length < Decimal.bound) {step : Step}
    (hstep : ∀ q sequence, step ≠ .begin cursor q sequence)
    (h : s.cursors.get? cursor = some (p.cursorAt labels asked)) :
    (s.step step).1.cursors.get? cursor =
      some (p.cursorAt labels (asked + step.asked cursor)) := by
  by_cases hcursor : step.cursor? = some cursor
  · cases step with
    | begin name q sequence =>
      have hname : name = cursor := Option.some.inj hcursor
      exact absurd (hname ▸ rfl) (hstep q sequence)
    | pull name count =>
      have hname : name = cursor := Option.some.inj hcursor
      subst hname
      rw [(step_pull_cursorAt hlen h count).1]
      simp [Step.asked]
    | _ => simp [Step.cursor?] at hcursor
  · rw [step_cursor_of_ne s hcursor, h, Step.asked_of_ne hcursor, Nat.add_zero]

theorem after_cursorAt (hlen : labels.length < Decimal.bound) {steps : List Step}
    (hsteps : ∀ q sequence, .begin cursor q sequence ∉ steps)
    (h : s.cursors.get? cursor = some (p.cursorAt labels asked)) :
    (s.after steps).cursors.get? cursor =
      some (p.cursorAt labels (asked + (steps.map (Step.asked cursor)).sum)) := by
  induction steps generalizing s asked with
  | nil => simpa using h
  | cons step steps ih =>
    have hhead : ∀ q sequence, step ≠ .begin cursor q sequence :=
      fun q sequence he => hsteps q sequence (he ▸ List.mem_cons_self)
    have htail : ∀ q sequence, .begin cursor q sequence ∉ steps :=
      fun q sequence hm => hsteps q sequence (List.mem_cons_of_mem _ hm)
    rw [after_cons, ih htail (step_cursorAt hlen hhead h), List.map_cons, List.sum_cons,
      Nat.add_assoc]

/-- A cursor that lacked the digits for a line has come to its end. -/
theorem pull_after_fault {count : Nat} {fault : Fault}
    (h : (s.step (.pull cursor count)).2 = .failed fault) (more : Nat) :
    ((s.step (.pull cursor count)).1.step (.pull cursor (more + 1))).2 = .pulled [] true := by
  cases count with
  | zero => simp at h
  | succ n =>
    cases hcursor : s.cursors.get? cursor with
    | none => simp [Session.step, hcursor] at h
    | some c =>
      cases hpull : c.pull (n + 1) with
      | ok pulled => simp [Session.step, hcursor, hpull] at h
      | error cause =>
        have hspent := Cursor.pull_of_next_none Cursor.next_spent more
        simp only [Session.step, hcursor, hpull, Slots.get?_set, if_true, hspent]

/-- A pull gives the lines of the whole pass from the number asked for before up to those asked for
now, as far as there are any, and has finished just when it asks for a line beyond the last. Other
cursors and later labels under the name do not matter. -/
theorem pull_takes_segment (s : Session) (cursor sequence : String) (p : Pass)
    (labels : List String) (hlabels : s.sequences.get? sequence = some labels)
    (hlen : labels.length < 10 ^ Decimal.digitLimit) :
    ∃ lines, p.lines labels = .ok lines ∧ lines.length = labels.length ∧
      ∀ (steps : List Step) (count : Nat), (∀ q other, .begin cursor q other ∉ steps) →
        let asked := (steps.map (Step.asked cursor)).sum
        ((s.after (.begin cursor p sequence :: steps)).step (.pull cursor count)).2 =
          .pulled ((lines.take (min (asked + count) labels.length)).drop (min asked labels.length))
            (decide (0 < count ∧ labels.length < asked + count)) := by
  rw [← Decimal.bound_eq_pow] at hlen
  refine ⟨linesFrom p.start labels, p.lines_of_lt hlen, length_linesFrom _ _, ?_⟩
  intro steps count hsteps asked
  have hbegun : (s.step (.begin cursor p sequence)).1.cursors.get? cursor =
      some (p.cursorAt labels 0) := by
    simp [Session.step, hlabels, Slots.get?_set, Pass.cursor_eq_cursorAt]
  have hnow := after_cursorAt hlen hsteps hbegun
  rw [Nat.zero_add] at hnow
  rw [after_cons, (step_pull_cursorAt hlen hnow count).2]
  have hcount : (linesFrom p.start labels).length = labels.length := length_linesFrom _ _
  rw [← hcount, ← take_drop_eq_segment, hcount]

/-- After two lines of three, the next three are the third and the end, although the labels under
the name were replaced and another cursor was pulled meanwhile. -/
theorem pull_takes_segment_past_end :
    (after {} [.keep "r" ["a", "b", "c"]]).sequences.get? "r" = some ["a", "b", "c"] ∧
    ["a", "b", "c"].length < 10 ^ Decimal.digitLimit ∧
    (∀ q other, Step.begin "i" q other ∉
      [Step.pull "i" 2, .keep "r" ["d"], .begin "j" .ordinal "r", .pull "j" 5]) ∧
    (((after {} [.keep "r" ["a", "b", "c"]]).after [.begin "i" .offset "r", .pull "i" 2,
      .keep "r" ["d"], .begin "j" .ordinal "r", .pull "j" 5]).step (.pull "i" 3)).2 =
        .pulled ["2: c\n"] true := by
  have hlabels : (after {} [.keep "r" ["a", "b", "c"]]).sequences.get? "r" =
      some ["a", "b", "c"] := rfl
  have hlen : ["a", "b", "c"].length < 10 ^ Decimal.digitLimit :=
    Decimal.lt_ten_pow_digitLimit 1 (by decide) (by decide)
  have hsteps : ∀ q other, Step.begin "i" q other ∉
      [Step.pull "i" 2, .keep "r" ["d"], .begin "j" .ordinal "r", .pull "j" 5] := by simp
  refine ⟨hlabels, hlen, hsteps, ?_⟩
  obtain ⟨lines, hlines, _, hall⟩ := pull_takes_segment _ "i" "r" .offset _ hlabels hlen
  have heq : lines = ["0: a\n", "1: b\n", "2: c\n"] := Pass.eq_linesFrom_of_lines hlines
  rw [hall _ 3 hsteps, heq]
  rfl

end Session

end CountingGame
