import CountingGame.Recital
import CountingGame.Proofs.CursorPlace
import CountingGame.Proofs.Labels
/-!
# Telling line by line

A recital prints each line of a suspended pass before it asks for the next. What it leaves is the
same as if all lines had been there beforehand and were then delivered one after the other.
-/
namespace CountingGame

/-- The lines of a recital, taken whole. -/
def transcript : Except Fault (List String) := do
  let labels ← Span.standard.labels
  let ordinal ← Pass.ordinal.lines labels
  let offset ← Pass.offset.lines labels
  return ordinal ++ offset

namespace Sink

variable {labels lines : List String}

private theorem tell_of_next_none {c : Cursor} (h : c.next = .ok none) (s : Sink) :
    s.tell c = ⟨s, .ok 0⟩ := by
  rw [tell, h]

private theorem tell_of_refused {s : Sink} {c rest : Cursor} {line : String} {fault : Fault}
    (h : c.next = .ok (some (line, rest))) (hline : s.write line = .error fault) :
    s.tell c = ⟨s, .error fault⟩ := by
  rw [tell, h]
  simp only [print_eq_write, hline]

private theorem tell_of_accepted {s s' : Sink} {c rest : Cursor} {line : String}
    (h : c.next = .ok (some (line, rest))) (hline : s.write line = .ok s') :
    s.tell c = (s'.tell rest).oneMore := by
  rw [tell, h]
  simp only [print_eq_write, hline]

/-- To tell a cursor is to deliver the lines of its pass that it has not given yet. -/
theorem tell_cursorAt (p : Pass) (hlen : labels.length < Decimal.bound) (s : Sink) (asked : Nat) :
    s.tell (p.cursorAt labels asked) = s.deliver ((linesFrom p.start labels).drop asked) := by
  -- The induction is on the number of lines that are left.
  induction hleft : labels.length - asked generalizing s asked with
  | zero =>
    have hend : labels.length ≤ asked := Nat.le_of_sub_eq_zero hleft
    have hnone : (linesFrom p.start labels).drop asked = [] :=
      List.drop_of_length_le (by simpa using hend)
    rw [tell_of_next_none (Cursor.next_cursorAt_of_le p hend), hnone, deliver_nil]
  | succ left ih =>
    have hlt : asked < labels.length := by omega
    have hlt' : asked < (linesFrom p.start labels).length := by simpa using hlt
    have hnext := Cursor.next_cursorAt_of_lt p hlen hlt
    rw [List.drop_eq_getElem_cons hlt', getElem_linesFrom hlt' hlt]
    cases hline : s.write (Entry.lineText ⟨(p.start + asked : Nat), labels[asked]⟩) with
    | error fault => rw [tell_of_refused hnext hline, deliver_of_refused hline]
    | ok s' =>
      rw [tell_of_accepted hnext hline, deliver_of_accepted hline, ih s' (asked + 1) (by omega)]

private theorem tell_cursor (p : Pass) (hlen : labels.length < Decimal.bound) (s : Sink) :
    s.tell (p.cursor labels) = s.deliver (linesFrom p.start labels) := by
  rw [Pass.cursor_eq_cursorAt, tell_cursorAt p hlen, List.drop_zero]

theorem deliver_append (s : Sink) (before behind : List String) :
    s.deliver (before ++ behind) = (s.deliver before).andThen fun s' => s'.deliver behind := by
  induction before generalizing s with
  | nil => rw [List.nil_append, deliver_nil, Delivery.ok_zero_andThen]
  | cons line before ih =>
    rw [List.cons_append]
    cases hline : s.write line with
    | error fault => rw [deliver_of_refused hline, deliver_of_refused hline, Delivery.andThen]
    | ok s' =>
      rw [deliver_of_accepted hline, deliver_of_accepted hline, ih, Delivery.andThen_oneMore]

end Sink

private theorem length_lt_of_standard {labels : List String}
    (h : Span.standard.labels = .ok labels) : labels.length < Decimal.bound := by
  have hbound : 10 ^ 3 ≤ Decimal.bound := Decimal.ten_pow_le_bound (by decide)
  rw [Span.length_of_labels h]
  exact Nat.lt_of_lt_of_le (by decide) hbound

private theorem transcript_of_standard {labels : List String}
    (h : Span.standard.labels = .ok labels) :
    transcript = .ok (linesFrom 1 labels ++ linesFrom 0 labels) := by
  have hlen := length_lt_of_standard h
  have hordinal := Pass.ordinal.lines_of_lt hlen
  have hoffset := Pass.offset.lines_of_lt hlen
  simp only [transcript, h, hordinal, hoffset, bind, Except.bind]
  rfl

/-- A recital that prints each line before it asks for the next delivers its transcript. -/
theorem Sink.recite_eq_deliver {lines : List String} (h : transcript = .ok lines) (s : Sink) :
    s.recite = s.deliver lines := by
  obtain ⟨labels, hlabels, _⟩ := Span.standard_labels
  have hlen := length_lt_of_standard hlabels
  rw [transcript_of_standard hlabels, Except.ok.injEq] at h
  rw [← h, deliver_append, recite, hlabels]
  simp only [tell_cursor _ hlen]
  rfl

/-- The lines of a recital. None of them is empty, so each takes a write. -/
structure IsTranscript (lines : List String) : Prop where
  transcript_eq : transcript = .ok lines
  length_eq : lines.length = 198
  ne_empty : ∀ line ∈ lines, line ≠ ""

theorem exists_isTranscript : ∃ labels, Span.standard.labels = .ok labels ∧
    Pass.ordinal.lines labels = .ok (linesFrom 1 labels) ∧
    Pass.offset.lines labels = .ok (linesFrom 0 labels) ∧
    IsTranscript (linesFrom 1 labels ++ linesFrom 0 labels) := by
  obtain ⟨labels, hlabels, hcount⟩ := Span.standard_labels
  have hlen := length_lt_of_standard hlabels
  refine ⟨labels, hlabels, Pass.ordinal.lines_of_lt hlen, Pass.offset.lines_of_lt hlen,
    transcript_of_standard hlabels, ?_, ?_⟩
  · rw [List.length_append, length_linesFrom, length_linesFrom, hcount]
  · intro line hline
    rcases List.mem_append.mp hline with h | h
    · exact ne_empty_of_mem_linesFrom h
    · exact ne_empty_of_mem_linesFrom h

theorem transcript_begins {lines : List String} (h : transcript = .ok lines) :
    lines.take 3 = ["1: 1\n", "2: 2\n", "3: fizz\n"] := by
  have hfirst : transcript.toOption.map (List.take 3) =
      some ["1: 1\n", "2: 2\n", "3: fizz\n"] := by
    decide +kernel
  rw [h] at hfirst
  exact Option.some.inj hfirst

end CountingGame
