import CountingGame.Fault
/-!
# Sinks

A sink gathers text. It may have room for a limited number of writes over its life; when that is
used up it refuses every further write and stores nothing of it. Writing no text at all is always
accepted and uses no room.
-/
namespace CountingGame

/-- Text gathered so far, and how many more writes are accepted, without bound if absent. -/
structure Sink where
  content : String := ""
  room : Option Nat := none
deriving DecidableEq

/-- The size of a text in characters and in newlines among them. -/
structure Extent where
  chars : Nat
  newlines : Nat
deriving DecidableEq

def Extent.ofText (text : String) : Extent := ⟨text.length, text.toList.count '\n'⟩

theorem Extent.newlines_append (s t : String) :
    (ofText (s ++ t)).newlines = (ofText s).newlines + (ofText t).newlines := by
  simp [ofText]

theorem Extent.newlines_eq_zero {text : String} (h : '\n' ∉ text.toList) :
    (ofText text).newlines = 0 := List.count_eq_zero.mpr h

/-- What a sequence of writes leaves: the sink, and how many were made or why they stopped. -/
structure Delivery where
  sink : Sink
  outcome : Except Fault Nat

namespace Delivery

/-- The same with one more write before it, which was accepted. -/
def oneMore (d : Delivery) : Delivery := ⟨d.sink, d.outcome.map (· + 1)⟩

/-- Goes on with the sink as it was left, unless the writes before were stopped. -/
def andThen (d : Delivery) (more : Sink → Delivery) : Delivery :=
  match d.outcome with
  | .error fault => ⟨d.sink, .error fault⟩
  | .ok n => ⟨(more d.sink).sink, (more d.sink).outcome.map (n + ·)⟩

theorem ok_zero_andThen (s : Sink) (more : Sink → Delivery) :
    (Delivery.mk s (.ok 0)).andThen more = more s := by
  cases h : more s with
  | mk sink outcome => cases outcome <;> simp [andThen, h, Except.map]

theorem andThen_oneMore (d : Delivery) (more : Sink → Delivery) :
    d.oneMore.andThen more = (d.andThen more).oneMore := by
  obtain ⟨sink, outcome⟩ := d
  cases outcome with
  | error fault => rfl
  | ok n =>
    cases h : (more sink).outcome with
    | error fault => simp [andThen, oneMore, h, Except.map]
    | ok m =>
      simp only [andThen, oneMore, h, Except.map]
      rw [Nat.add_right_comm]

end Delivery

namespace Sink

def empty (limit : Option Nat) : Sink := ⟨"", limit⟩

def write (s : Sink) (text : String) : Except Fault Sink :=
  if text = "" then .ok s
  else match s.room with
    | none => .ok ⟨s.content ++ text, none⟩
    | some 0 => .error .sinkFull
    | some (n + 1) => .ok ⟨s.content ++ text, some n⟩

/-- Writes a line and then what ends it, which is nothing, for a line brings its own newline. -/
def print (s : Sink) (line : String) : Except Fault Sink := do
  let s' ← s.write line
  s'.write ""

/-- Writes lines one by one up to the first that is refused; those before it stay. -/
def deliver (s : Sink) : List String → Delivery
  | [] => ⟨s, .ok 0⟩
  | line :: lines =>
    match s.write line with
    | .error fault => ⟨s, .error fault⟩
    | .ok s' => (s'.deliver lines).oneMore

def extent (s : Sink) : Extent := .ofText s.content

/-- The characters from `start` up to but not including `stop`, as far as there are any. -/
def slice (s : Sink) (start stop : Nat) : String :=
  String.ofList ((s.content.toList.drop start).take (stop - start))

@[simp] theorem write_empty (s : Sink) : s.write "" = .ok s := rfl

theorem print_eq_write (s : Sink) (line : String) : s.print line = s.write line := by
  cases h : s.write line with
  | error fault => simp [print, h, bind, Except.bind]
  | ok s' => simp [print, h, bind, Except.bind]

theorem write_unlimited (content text : String) (h : text ≠ "") :
    Sink.write ⟨content, none⟩ text = .ok ⟨content ++ text, none⟩ := if_neg h

theorem write_full (content text : String) (h : text ≠ "") :
    Sink.write ⟨content, some 0⟩ text = .error .sinkFull := if_neg h

theorem write_room (content text : String) (n : Nat) (h : text ≠ "") :
    Sink.write ⟨content, some (n + 1)⟩ text = .ok ⟨content ++ text, some n⟩ := if_neg h

@[simp] theorem deliver_nil (s : Sink) : s.deliver [] = ⟨s, .ok 0⟩ := rfl

theorem deliver_of_refused {s : Sink} {line : String} {fault : Fault}
    (h : s.write line = .error fault) (lines : List String) :
    s.deliver (line :: lines) = ⟨s, .error fault⟩ := by
  simp [deliver, h]

theorem deliver_of_accepted {s s' : Sink} {line : String} (h : s.write line = .ok s')
    (lines : List String) : s.deliver (line :: lines) = (s'.deliver lines).oneMore := by
  simp [deliver, h]

end Sink
end CountingGame
