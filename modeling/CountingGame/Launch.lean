import CountingGame.Recital
/-!
# Launches

The program takes no arguments: however it is started and whatever it is given, it recites on its
standard output.
-/
namespace CountingGame

/-- A way of starting the program, with the arguments given there. -/
inductive Launch where
  /-- A call from within, with or without a list of arguments. -/
  | call (arguments : Option (List String))
  /-- The package as the main program. -/
  | package (arguments : List String)
  /-- The command as the main program. -/
  | command (arguments : List String)
deriving DecidableEq

/-- What a program that ended well leaves behind. -/
structure Outcome where
  status : Nat
  output : String
  errors : String
deriving DecidableEq

/-- The program. Its arguments are accepted and left alone; a recital that is stopped stops it. -/
def perform (_arguments : Option (List String)) : Except Fault Outcome := do
  let delivery := (Sink.empty none).recite
  let _ ← delivery.outcome
  return ⟨0, delivery.sink.content, ""⟩

namespace Launch

/-- The arguments that reach the program: a main program hands on none. -/
def arguments : Launch → Option (List String)
  | call given => given
  | package _ => none
  | command _ => none

def outcome (l : Launch) : Except Fault Outcome := perform l.arguments

end Launch
end CountingGame
