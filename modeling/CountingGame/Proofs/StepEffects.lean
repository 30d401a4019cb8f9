import CountingGame.Session
/-!
# What a step changes

A step stores at most one value, under the name that it carries. So a sequence, a cursor or a sink
is changed only by steps that name it.
-/
namespace CountingGame

namespace Step

def sequence? : Step → Option String
  | .build sequence _ => some sequence
  | .keep sequence _ => some sequence
  | _ => none

def cursor? : Step → Option String
  | .begin cursor _ _ => some cursor
  | .pull cursor _ => some cursor
  | _ => none

def sink? : Step → Option String
  | .provide sink _ => some sink
  | .write sink _ => some sink
  | .recite sink => some sink
  | _ => none

end Step

namespace Session

/-- All that a step can do to a session. -/
theorem step_cases (s : Session) (step : Step) :
    (s.step step).1 = s ∨
    (∃ name labels, step.sequence? = some name ∧
      (s.step step).1 = { s with sequences := s.sequences.set name labels }) ∨
    (∃ name cursor, step.cursor? = some name ∧
      (s.step step).1 = { s with cursors := s.cursors.set name cursor }) ∨
    (∃ name sink, step.sink? = some name ∧
      (s.step step).1 = { s with sinks := s.sinks.set name sink }) := by
  cases step with
  | build sequence span =>
    simp only [Session.step]
    split
    · exact .inl rfl
    · exact .inr (.inl ⟨sequence, _, rfl, rfl⟩)
  | keep sequence labels => exact .inr (.inl ⟨sequence, labels, rfl, rfl⟩)
  | begin cursor pass sequence =>
    simp only [Session.step]
    split
    · exact .inl rfl
    · exact .inr (.inr (.inl ⟨cursor, _, rfl, rfl⟩))
  | pull cursor count =>
    cases count with
    | zero => exact .inl rfl
    | succ n =>
      simp only [Session.step]
      split
      · exact .inl rfl
      · split
        · exact .inr (.inr (.inl ⟨cursor, _, rfl, rfl⟩))
        · exact .inr (.inr (.inl ⟨cursor, _, rfl, rfl⟩))
  | provide sink limit => exact .inr (.inr (.inr ⟨sink, _, rfl, rfl⟩))
  | write sink text =>
    simp only [Session.step]
    split
    · exact .inl rfl
    · split
      · exact .inl rfl
      · exact .inr (.inr (.inr ⟨sink, _, rfl, rfl⟩))
  | recite sink =>
    simp only [Session.step]
    split
    · exact .inl rfl
    · exact .inr (.inr (.inr ⟨sink, _, rfl, rfl⟩))
  | read sink start stop =>
    simp only [Session.step]
    split
    · exact .inl rfl
    · exact .inl rfl
  | ask query =>
    simp only [Session.step]
    split
    · exact .inl rfl
    · exact .inl rfl

theorem step_cursor_of_ne (s : Session) {step : Step} {cursor : String}
    (h : step.cursor? ≠ some cursor) :
    (s.step step).1.cursors.get? cursor = s.cursors.get? cursor := by
  rcases s.step_cases step with hs | ⟨name, labels, _, hs⟩ | ⟨name, c, hname, hs⟩ |
    ⟨name, k, _, hs⟩
  · rw [hs]
  · rw [hs]
  · have hne : cursor ≠ name := by
      intro he
      exact h (he ▸ hname)
    rw [hs, Slots.get?_set, if_neg hne]
  · rw [hs]

theorem step_sink_of_ne (s : Session) {step : Step} {sink : String}
    (h : step.sink? ≠ some sink) :
    (s.step step).1.sinks.get? sink = s.sinks.get? sink := by
  rcases s.step_cases step with hs | ⟨name, labels, _, hs⟩ | ⟨name, c, _, hs⟩ |
    ⟨name, k, hname, hs⟩
  · rw [hs]
  · rw [hs]
  · rw [hs]
  · have hne : sink ≠ name := by
      intro he
      exact h (he ▸ hname)
    rw [hs, Slots.get?_set, if_neg hne]

end Session

end CountingGame
