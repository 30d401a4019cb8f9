/-!
# Faults

Everything that can go wrong while the game is told, as causes. The wording of each cause is in
`Fault.message` and nowhere else.
-/
namespace CountingGame

inductive Fault where
  /-- The decimal text of an integer would have too many digits. -/
  | digitLimit
  /-- The sink takes no further text. -/
  | sinkFull
  /-- A sequence of labels has none at this position. -/
  | noLabel (position : Nat)
deriving DecidableEq

def Fault.message : Fault → String
  | .digitLimit => "Exceeds the limit (4300 digits) for integer string conversion; " ++
      "use sys.set_int_max_str_digits() to increase the limit"
  | .sinkFull => "stream full"
  | .noLabel _ => "tuple index out of range"

variable {α β : Type} {x : Except Fault α} {f : α → Except Fault β} {fault : Fault}

theorem bind_eq_ok {b : β} : (x >>= f) = .ok b ↔ ∃ a, x = .ok a ∧ f a = .ok b := by
  cases x with
  | error _ => simp [bind, Except.bind]
  | ok _ => simp [bind, Except.bind]

theorem bind_eq_error :
    (x >>= f) = .error fault ↔ x = .error fault ∨ ∃ a, x = .ok a ∧ f a = .error fault := by
  cases x with
  | error _ => simp [bind, Except.bind]
  | ok _ => simp [bind, Except.bind]

end CountingGame
