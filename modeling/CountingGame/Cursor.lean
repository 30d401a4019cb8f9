import CountingGame.Pass
/-!
# Cursors

A cursor is a pass held up between two lines. The ordinal cursor keeps its count and the labels
ahead; the offset cursor keeps all labels and the offset it has reached. Either way it owns its
labels, so nothing that happens elsewhere changes what it will tell.
-/
namespace CountingGame

/-- A pass held up between two lines. -/
inductive Cursor where
  | ordinal (position : Nat) (ahead : List String)
  | offset (position : Nat) (labels : List String)
deriving DecidableEq

def Pass.cursor : Pass → List String → Cursor
  | .ordinal, labels => .ordinal 1 labels
  | .offset, labels => .offset 0 labels

/-- What a cursor gives when some lines are asked of it. -/
structure Pull where
  lines : List String
  /-- A line was asked for and there was none. -/
  finished : Bool
  rest : Cursor
deriving DecidableEq

namespace Cursor

/-- A cursor with nothing left to give. -/
def spent : Cursor := .offset 0 []

/-- The number of labels that are still to be told. -/
def ahead : Cursor → Nat
  | .ordinal _ labels => labels.length
  | .offset position labels => labels.length - position

def next : Cursor → Except Fault (Option (String × Cursor))
  | .ordinal _ [] => .ok none
  | .ordinal position (label :: ahead) => do
    let line ← Entry.line ⟨position, label⟩
    return some (line, .ordinal (position + 1) ahead)
  | .offset position labels =>
    if position < labels.length then do
      let entry ← entryAt labels position
      let line ← entry.line
      return some (line, .offset (position + 1) labels)
    else .ok none

/-- Up to the given number of lines. A cursor at its end stays there. -/
def pull (c : Cursor) : Nat → Except Fault Pull
  | 0 => .ok ⟨[], false, c⟩
  | n + 1 => do
    match ← c.next with
    | none => return ⟨[], true, c⟩
    | some (line, rest) =>
      let more ← rest.pull n
      return ⟨line :: more.lines, more.finished, more.rest⟩

private theorem ahead_of_line_bind {e : Entry} {line : String} {rest rest' : Cursor}
    (h : (do let text ← e.line; return some (text, rest')) =
      (.ok (some (line, rest)) : Except Fault (Option (String × Cursor)))) : rest = rest' := by
  obtain ⟨text, _, h⟩ := bind_eq_ok.mp h
  have hboth := Option.some.inj (Except.ok.inj h)
  exact (Prod.mk.inj hboth).2.symm

theorem ahead_lt_of_next {c rest : Cursor} {line : String}
    (h : c.next = .ok (some (line, rest))) : rest.ahead < c.ahead := by
  cases c with
  | ordinal position labels =>
    cases labels with
    | nil => simp [next] at h
    | cons label labels =>
      rw [ahead_of_line_bind h]
      simp [ahead]
  | offset position labels =>
    by_cases hlt : position < labels.length
    · rw [next, if_pos hlt, entryAt_of_lt hlt] at h
      rw [ahead_of_line_bind h]
      simp only [ahead]
      omega
    · simp [next, hlt] at h

theorem next_spent : spent.next = .ok none := rfl

@[simp] theorem pull_zero (c : Cursor) : c.pull 0 = .ok ⟨[], false, c⟩ := rfl

theorem pull_of_next_none {c : Cursor} (h : c.next = .ok none) (n : Nat) :
    c.pull (n + 1) = .ok ⟨[], true, c⟩ := by
  simp [pull, h, bind, Except.bind, pure, Except.pure]

theorem pull_of_next_some {c rest : Cursor} {line : String} (h : c.next = .ok (some (line, rest)))
    (n : Nat) : c.pull (n + 1) =
      (rest.pull n).map fun more => ⟨line :: more.lines, more.finished, more.rest⟩ := by
  cases hr : rest.pull n with
  | error fault => simp [pull, h, hr, bind, Except.bind, Except.map]
  | ok more => simp [pull, h, hr, bind, Except.bind, pure, Except.pure, Except.map]

end Cursor
end CountingGame
