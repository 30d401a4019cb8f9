import CountingGame.Entry
import CountingGame.Span
/-!
# Passes

A pass tells a sequence of labels as numbered lines. The ordinal pass counts along from one; the
offset pass visits the positions from zero and looks each label up. `Pass.entries_eq` says that
no look-up fails and that the two differ in nothing but the position they start from.
-/
namespace CountingGame

inductive Pass where
  | ordinal
  | offset
deriving DecidableEq

def numberFrom (position : Nat) : List String → List Entry
  | [] => []
  | label :: labels => ⟨position, label⟩ :: numberFrom (position + 1) labels

def entryAt (labels : List String) (k : Nat) : Except Fault Entry :=
  match labels[k]? with
  | some label => .ok ⟨k, label⟩
  | none => .error (.noLabel k)

namespace Pass

def start : Pass → Nat
  | ordinal => 1
  | offset => 0

def entries : Pass → List String → Except Fault (List Entry)
  | ordinal, labels => .ok (numberFrom 1 labels)
  | offset, labels => (List.range labels.length).mapM (entryAt labels)

def lines (p : Pass) (labels : List String) : Except Fault (List String) := do
  let entries ← p.entries labels
  entries.mapM Entry.line

/-- The text of a pass: its lines one after the other. -/
def text (p : Pass) (labels : List String) : Except Fault String :=
  (p.lines labels).map String.join

end Pass

structure Rendering where
  ordinal : String
  offset : String
deriving DecidableEq

def Span.render (s : Span) : Except Fault Rendering := do
  let labels ← s.labels
  let ordinal ← Pass.ordinal.text labels
  let offset ← Pass.offset.text labels
  return { ordinal, offset }

@[simp] theorem length_numberFrom (position : Nat) (labels : List String) :
    (numberFrom position labels).length = labels.length := by
  induction labels generalizing position with
  | nil => rfl
  | cons label labels ih => simp [numberFrom, ih]

theorem entryAt_of_lt {labels : List String} {k : Nat} (h : k < labels.length) :
    entryAt labels k = .ok ⟨k, labels[k]⟩ := by
  simp [entryAt, h]

private theorem mapM_entryAt (before labels : List String) :
    (List.range' before.length labels.length).mapM (entryAt (before ++ labels)) =
      .ok (numberFrom before.length labels) := by
  induction labels generalizing before with
  | nil => rfl
  | cons label labels ih =>
    have hhead : entryAt (before ++ label :: labels) before.length =
        .ok ⟨before.length, label⟩ := by
      simp [entryAt]
    have htail := ih (before ++ [label])
    rw [List.append_assoc, List.singleton_append, List.length_append, List.length_singleton]
      at htail
    rw [List.length_cons, List.range'_succ, List.mapM_cons, hhead, htail]
    rfl

/-- Both passes number all labels in order, each from its own start. -/
theorem Pass.entries_eq (p : Pass) (labels : List String) :
    p.entries labels = .ok (numberFrom p.start labels) := by
  cases p with
  | ordinal => rfl
  | offset =>
    have h := mapM_entryAt [] labels
    rw [List.nil_append, List.length_nil, ← List.range_eq_range'] at h
    exact h

theorem Pass.lines_eq (p : Pass) (labels : List String) :
    p.lines labels = (numberFrom p.start labels).mapM Entry.line := by
  rw [Pass.lines, Pass.entries_eq]
  rfl

end CountingGame
