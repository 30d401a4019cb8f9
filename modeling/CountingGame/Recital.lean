import CountingGame.Cursor
import CountingGame.Sink
/-!
# Recitals

A recital tells the standard span twice over, first the whole ordinal pass and then the whole
offset pass. Each line is printed before the next one is asked for.
-/
namespace CountingGame

/-- Prints the lines that a cursor gives, up to the first that is not to be had or is refused. -/
def Sink.tell (s : Sink) (c : Cursor) : Delivery :=
  match _h : c.next with
  | .error fault => ⟨s, .error fault⟩
  | .ok none => ⟨s, .ok 0⟩
  | .ok (some (line, rest)) =>
    match s.print line with
    | .error fault => ⟨s, .error fault⟩
    | .ok s' => (s'.tell rest).oneMore
termination_by c.ahead
decreasing_by exact Cursor.ahead_lt_of_next _h

/-- A recital on a sink. The outcome is the number of lines printed. -/
def Sink.recite (s : Sink) : Delivery :=
  match Span.standard.labels with
  | .error fault => ⟨s, .error fault⟩
  | .ok labels =>
    (s.tell (Pass.ordinal.cursor labels)).andThen fun s' => s'.tell (Pass.offset.cursor labels)

end CountingGame
