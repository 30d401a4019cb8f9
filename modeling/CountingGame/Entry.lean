import CountingGame.Decimal
/-!
# Entries and their lines

An entry is a label at a numbered position. Its line follows a fixed template whose fields are
filled in one pass, so whatever a label holds is copied as it stands.
-/
namespace CountingGame

structure Entry where
  position : Int
  label : String
deriving DecidableEq

namespace Entry

inductive Piece where
  | position
  | label
  | literal (text : String)
deriving DecidableEq

def template : List Piece := [.position, .literal ": ", .label, .literal "\n"]

/-- A piece as it stands in the text of a template: a field is named between braces. -/
def Piece.text : Piece → String
  | .position => "{position}"
  | .label => "{label}"
  | .literal t => t

def templateText : String := String.join (template.map Piece.text)

example : templateText = "{position}: {label}\n" := rfl

def fill (e : Entry) : Piece → Except Fault String
  | .position => Decimal.write e.position
  | .label => .ok e.label
  | .literal t => .ok t

/-- The line of an entry, its newline included. -/
def line (e : Entry) : Except Fault String := do
  let parts ← template.mapM e.fill
  return String.join parts

theorem line_eq (e : Entry) : e.line =
    (Decimal.write e.position).map fun p => p ++ ": " ++ e.label ++ "\n" := by
  cases h : Decimal.write e.position with
  | error f => simp [line, template, fill, h, Except.map, bind, Except.bind]
  | ok p => simp [line, template, fill, h, Except.map, bind, Except.bind, pure, Except.pure,
      String.join]

end Entry
end CountingGame
