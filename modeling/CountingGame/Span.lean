import CountingGame.Call
/-!
# Spans

A span is an inclusive range of indices in ascending order, empty when it ends before it begins.
Its labels are those of its indices; one index without a label leaves the whole span without any.
-/
namespace CountingGame

/-- The indices from `first` to `last`, both included. The game is told over `1` to `99`. -/
structure Span where
  first : Int := 1
  last : Int := 99
deriving DecidableEq

/-- The labels of `n` indices in a row, given up at the first that has none. -/
def labelsFrom (i : Int) : Nat → Except Fault (List String)
  | 0 => .ok []
  | n + 1 => do
    let head ← label i
    let tail ← labelsFrom (i + 1) n
    return head :: tail

namespace Span

def standard : Span := {}

def size (s : Span) : Nat := (s.last + 1 - s.first).toNat

def labels (s : Span) : Except Fault (List String) := labelsFrom s.first s.size

end Span

end CountingGame
