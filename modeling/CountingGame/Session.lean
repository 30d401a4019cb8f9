import CountingGame.Cursor
import CountingGame.Query
import CountingGame.Recital
import CountingGame.Slots
/-!
# Sessions

A session keeps sequences of labels, cursors and sinks, each kind under names of its own. It takes
steps one after the other and replies to each. A step that fails stores nothing, save that a
recital cut short leaves on its sink what the sink accepted, and that a cursor which lacked the
digits for a line has nothing left to give.
-/
namespace CountingGame

structure Session where
  sequences : Slots (List String) := {}
  cursors : Slots Cursor := {}
  sinks : Slots Sink := {}

inductive Step where
  /-- Keep the labels of a span. -/
  | build (sequence : String) (span : Span)
  /-- Keep the given labels. -/
  | keep (sequence : String) (labels : List String)
  /-- Begin a pass over the labels that the sequence holds now. -/
  | begin (cursor : String) (pass : Pass) (sequence : String)
  /-- Take up to `count` lines from a cursor, which is looked for only if a line is asked for. -/
  | pull (cursor : String) (count : Nat)
  /-- Set up an empty sink. -/
  | provide (sink : String) (limit : Option Nat)
  /-- Write a text on a sink. -/
  | write (sink : String) (text : String)
  /-- Recite on a sink. -/
  | recite (sink : String)
  /-- Read a piece of what a sink holds. -/
  | read (sink : String) (start stop : Nat)
  /-- Ask something that has nothing to do with what is kept. -/
  | ask (query : Query)
deriving DecidableEq

inductive Reply where
  | done
  | built (labels : List String)
  | kept (size : Nat)
  | pulled (lines : List String) (finished : Bool)
  | written (extent : Extent)
  | recited (lines : Nat) (extent : Extent)
  /-- A recital was cut short, and the sink now has this extent. -/
  | cutShort (fault : Fault) (extent : Extent)
  | piece (text : String)
  | answer (answer : Answer)
  | failed (fault : Fault)
  /-- Nothing is kept under the name. -/
  | unknown (name : String)
deriving DecidableEq

def Delivery.reply (d : Delivery) : Reply :=
  match d.outcome with
  | .ok lines => .recited lines d.sink.extent
  | .error fault => .cutShort fault d.sink.extent

namespace Session

/-- One step: the session after it, and the reply. -/
def step (s : Session) : Step → Session × Reply
  | .build sequence span =>
    match span.labels with
    | .error fault => (s, .failed fault)
    | .ok labels => ({ s with sequences := s.sequences.set sequence labels }, .built labels)
  | .keep sequence labels =>
    ({ s with sequences := s.sequences.set sequence labels }, .kept labels.length)
  | .begin cursor pass sequence =>
    match s.sequences.get? sequence with
    | none => (s, .unknown sequence)
    | some labels => ({ s with cursors := s.cursors.set cursor (pass.cursor labels) }, .done)
  | .pull _ 0 => (s, .pulled [] false)
  | .pull cursor (n + 1) =>
    match s.cursors.get? cursor with
    | none => (s, .unknown cursor)
    | some c =>
      match c.pull (n + 1) with
      | .error fault => ({ s with cursors := s.cursors.set cursor .spent }, .failed fault)
      | .ok pulled =>
        ({ s with cursors := s.cursors.set cursor pulled.rest },
          .pulled pulled.lines pulled.finished)
  | .provide sink limit => ({ s with sinks := s.sinks.set sink (.empty limit) }, .done)
  | .write sink text =>
    match s.sinks.get? sink with
    | none => (s, .unknown sink)
    | some k =>
      match k.write text with
      | .error fault => (s, .failed fault)
      | .ok k' => ({ s with sinks := s.sinks.set sink k' }, .written k'.extent)
  | .recite sink =>
    match s.sinks.get? sink with
    | none => (s, .unknown sink)
    | some k => ({ s with sinks := s.sinks.set sink k.recite.sink }, k.recite.reply)
  | .read sink start stop =>
    match s.sinks.get? sink with
    | none => (s, .unknown sink)
    | some k => (s, .piece (k.slice start stop))
  | .ask query =>
    match query.answer with
    | .error fault => (s, .failed fault)
    | .ok answer => (s, .answer answer)

@[simp] theorem step_pull_zero (s : Session) (cursor : String) :
    s.step (.pull cursor 0) = (s, .pulled [] false) := rfl

def after (s : Session) (steps : List Step) : Session :=
  steps.foldl (fun s step => (s.step step).1) s

def replies (s : Session) : List Step → List Reply
  | [] => []
  | step :: steps => (s.step step).2 :: (s.step step).1.replies steps

@[simp] theorem after_nil (s : Session) : s.after [] = s := rfl

@[simp] theorem after_cons (s : Session) (step : Step) (steps : List Step) :
    s.after (step :: steps) = (s.step step).1.after steps := rfl

end Session
end CountingGame
