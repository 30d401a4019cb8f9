import CountingGame.Pass
/-!
# Queries

Questions whose answer depends on nothing but themselves.
-/
namespace CountingGame

inductive Query where
  | label (index : Int)
  | labels (span : Span)
  | line (entry : Entry)
  | lines (pass : Pass) (sequence : List String)
deriving DecidableEq

inductive Answer where
  | label (text : String)
  | labels (texts : List String)
  | line (text : String)
  | lines (texts : List String)
deriving DecidableEq

def Query.answer : Query → Except Fault Answer
  | .label i => (CountingGame.label i).map .label
  | .labels span => span.labels.map .labels
  | .line entry => entry.line.map .line
  | .lines pass sequence => (pass.lines sequence).map .lines

end CountingGame
