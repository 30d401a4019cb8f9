import CountingGame.Proofs.LineByLine
import CountingGame.Proofs.StepEffects
/-!
# What a sink holds

A sink is determined by its limit and by the texts that were meant for it, refused ones included:
it holds the first of them, as many as the limit allows. Steps of a session extend the texts meant
for one sink and leave every other sink alone, so this determines all sinks after any steps.
-/
namespace CountingGame

namespace Sink

/-- The texts that stay on a sink out of those meant for it. -/
def kept (limit : Option Nat) (meant : List String) : List String :=
  match limit with
  | none => meant
  | some n => meant.take n

/-- A sink with this limit takes this many writes. -/
def Admits (limit : Option Nat) (writes : Nat) : Prop := ∀ n, limit = some n → writes ≤ n

instance (limit : Option Nat) (writes : Nat) : Decidable (Admits limit writes) :=
  match limit with
  | none => .isTrue (by simp [Admits])
  | some n => decidable_of_iff (writes ≤ n) (by simp [Admits])

/-- The sink for which these texts were meant, none of them empty, refused ones included. -/
def ofMeant (limit : Option Nat) (meant : List String) : Sink :=
  ⟨String.join (kept limit meant), limit.map fun n => n - meant.length⟩

theorem empty_eq_ofMeant (limit : Option Nat) : Sink.empty limit = ofMeant limit [] := by
  cases limit with
  | none => rfl
  | some n => simp [Sink.empty, ofMeant, kept]

private theorem ofMeant_append_of_not_admits {limit : Option Nat} {meant : List String}
    (h : ¬ Admits limit (meant.length + 1)) (texts : List String) :
    ofMeant limit (meant ++ texts) = ofMeant limit meant := by
  cases limit with
  | none => simp [Admits] at h
  | some n =>
    have hn : n ≤ meant.length := by
      simp only [Admits, Option.some.injEq, forall_eq'] at h
      omega
    have hroom : n - (meant ++ texts).length = n - meant.length := by
      rw [List.length_append]
      omega
    simp only [ofMeant, kept, Option.map_some, hroom, List.take_append_of_le_length hn]

private theorem write_ofMeant_of_admits {limit : Option Nat} {meant : List String} {text : String}
    (htext : text ≠ "") (h : Admits limit (meant.length + 1)) :
    (ofMeant limit meant).write text = .ok (ofMeant limit (meant ++ [text])) := by
  cases limit with
  | none =>
    simp only [ofMeant, kept, Option.map_none]
    rw [write_unlimited _ _ htext]
    simp
  | some n =>
    have hn : meant.length < n := h n rfl
    obtain ⟨r, hr⟩ : ∃ r, n - meant.length = r + 1 := ⟨n - meant.length - 1, by omega⟩
    have hr' : n - (meant ++ [text]).length = r := by
      rw [List.length_append, List.length_singleton]
      omega
    have hall : meant.take n = meant := List.take_of_length_le (by omega)
    have hall' : (meant ++ [text]).take n = meant ++ [text] :=
      List.take_of_length_le (by rw [List.length_append, List.length_singleton]; omega)
    simp only [ofMeant, kept, Option.map_some, hr, hr', hall, hall']
    rw [write_room _ _ _ htext]
    simp

private theorem write_ofMeant_of_not_admits {limit : Option Nat} {meant : List String}
    {text : String} (htext : text ≠ "") (h : ¬ Admits limit (meant.length + 1)) :
    (ofMeant limit meant).write text = .error .sinkFull := by
  cases limit with
  | none => simp [Admits] at h
  | some n =>
    have hn : n - meant.length = 0 := by
      simp only [Admits, Option.some.injEq, forall_eq'] at h
      omega
    simp only [ofMeant, Option.map_some, hn]
    exact write_full _ _ htext

/-- Lines delivered to a sink extend what was meant for it, whether or not they all arrive. -/
theorem deliver_ofMeant (limit : Option Nat) (meant lines : List String)
    (hlines : ∀ line ∈ lines, line ≠ "") :
    (ofMeant limit meant).deliver lines = ⟨ofMeant limit (meant ++ lines),
      if lines = [] ∨ Admits limit (meant ++ lines).length then .ok lines.length
      else .error .sinkFull⟩ := by
  induction lines generalizing meant with
  | nil => simp
  | cons line lines ih =>
    have hline : line ≠ "" := hlines line List.mem_cons_self
    by_cases h : Admits limit (meant.length + 1)
    · have htail := ih (meant ++ [line]) fun l hl => hlines l (List.mem_cons_of_mem _ hl)
      rw [deliver_of_accepted (write_ofMeant_of_admits hline h), htail]
      have hassoc : meant ++ [line] ++ lines = meant ++ line :: lines := by simp
      have hfits : (lines = [] ∨ Admits limit (meant ++ line :: lines).length) ↔
          Admits limit (meant ++ line :: lines).length := by
        constructor
        · intro hor
          rcases hor with rfl | hadmits
          · simpa using h
          · exact hadmits
        · exact .inr
      simp only [hassoc, hfits, List.cons_ne_nil, false_or, Delivery.oneMore]
      congr 1
      split <;> rfl
    · -- The lines behind a refused one are not written; were they, they would be refused too.
      rw [deliver_of_refused (write_ofMeant_of_not_admits hline h),
        ofMeant_append_of_not_admits h]
      have hfull : ¬ Admits limit (meant ++ line :: lines).length := by
        intro hadmits
        apply h
        intro n hn
        have hle := hadmits n hn
        simp only [List.length_append, List.length_cons] at hle
        omega
      simp only [List.cons_ne_nil, false_or, if_neg hfull]

end Sink

theorem Sink.recite_ofMeant {lines : List String} (hlines : IsTranscript lines)
    (limit : Option Nat) (meant : List String) :
    (Sink.ofMeant limit meant).recite = ⟨Sink.ofMeant limit (meant ++ lines),
      if Sink.Admits limit (meant ++ lines).length then .ok 198 else .error .sinkFull⟩ := by
  have hne : lines ≠ [] := by
    intro h
    have hlen := hlines.length_eq
    simp [h] at hlen
  rw [Sink.recite_eq_deliver hlines.transcript_eq,
    Sink.deliver_ofMeant limit meant lines hlines.ne_empty]
  simp only [hne, false_or, hlines.length_eq]

/-- The texts that a step means to write on a sink, if a recital tells these lines. -/
def Step.meant (lines : List String) (sink : String) : Step → List String
  | .write name text => if name = sink ∧ text ≠ "" then [text] else []
  | .recite name => if name = sink then lines else []
  | _ => []

private theorem Step.meant_write (lines : List String) (sink : String) {text : String}
    (h : text ≠ "") : Step.meant lines sink (.write sink text) = [text] := by
  simp [Step.meant, h]

private theorem Step.meant_of_ne (lines : List String) {sink : String} {step : Step}
    (h : step.sink? ≠ some sink) : step.meant lines sink = [] := by
  cases step with
  | write name text =>
    have hne : name ≠ sink := fun he => h (congrArg some he)
    simp [Step.meant, hne]
  | recite name =>
    have hne : name ≠ sink := fun he => h (congrArg some he)
    simp [Step.meant, hne]
  | _ => rfl

namespace Session

variable {s : Session} {sink : String} {limit : Option Nat} {meant lines : List String}

private theorem step_write_ofMeant (lines : List String)
    (h : s.sinks.get? sink = some (.ofMeant limit meant)) (text : String) :
    (s.step (.write sink text)).1.sinks.get? sink =
      some (.ofMeant limit (meant ++ Step.meant lines sink (.write sink text))) := by
  by_cases htext : text = ""
  · subst htext
    simp [Session.step, h, Step.meant, Slots.get?_set]
  · rw [Step.meant_write lines sink htext]
    by_cases hadmits : Sink.Admits limit (meant.length + 1)
    · simp only [Session.step, h, Sink.write_ofMeant_of_admits htext hadmits, Slots.get?_set,
        if_true]
    · simp only [Session.step, h, Sink.write_ofMeant_of_not_admits htext hadmits,
        Sink.ofMeant_append_of_not_admits hadmits]

private theorem reply_write_ofMeant (h : s.sinks.get? sink = some (.ofMeant limit meant))
    (text : String) :
    (s.step (.write sink text)).2 =
      if text = "" then .written (Sink.ofMeant limit meant).extent
      else if Sink.Admits limit (meant.length + 1) then
        .written (Sink.ofMeant limit (meant ++ [text])).extent
      else .failed .sinkFull := by
  by_cases htext : text = ""
  · subst htext
    simp [Session.step, h]
  · rw [if_neg htext]
    by_cases hadmits : Sink.Admits limit (meant.length + 1)
    · simp only [Session.step, h, Sink.write_ofMeant_of_admits htext hadmits, if_pos hadmits]
    · simp only [Session.step, h, Sink.write_ofMeant_of_not_admits htext hadmits,
        if_neg hadmits]

private theorem step_recite_ofMeant (hlines : IsTranscript lines)
    (h : s.sinks.get? sink = some (.ofMeant limit meant)) :
    (s.step (.recite sink)).1.sinks.get? sink = some (.ofMeant limit (meant ++ lines)) := by
  simp only [Session.step, h, Sink.recite_ofMeant hlines, Slots.get?_set, if_true]

private theorem reply_recite_ofMeant (hlines : IsTranscript lines)
    (h : s.sinks.get? sink = some (.ofMeant limit meant)) :
    (s.step (.recite sink)).2 =
      if Sink.Admits limit (meant ++ lines).length then
        .recited 198 (Sink.ofMeant limit (meant ++ lines)).extent
      else .cutShort .sinkFull (Sink.ofMeant limit (meant ++ lines)).extent := by
  by_cases hadmits : Sink.Admits limit (meant ++ lines).length
  · simp only [Session.step, h, Sink.recite_ofMeant hlines, Delivery.reply, if_pos hadmits]
  · simp only [Session.step, h, Sink.recite_ofMeant hlines, Delivery.reply, if_neg hadmits]

/-- One step extends what is meant for a sink by the texts that the step means to write on it. -/
theorem step_ofMeant (hlines : IsTranscript lines) {step : Step}
    (hstep : ∀ l, step ≠ .provide sink l)
    (h : s.sinks.get? sink = some (.ofMeant limit meant)) :
    (s.step step).1.sinks.get? sink =
      some (.ofMeant limit (meant ++ step.meant lines sink)) := by
  by_cases hsink : step.sink? = some sink
  · cases step with
    | provide name l =>
      have hname : name = sink := Option.some.inj hsink
      exact absurd (hname ▸ rfl) (hstep l)
    | write name text =>
      have hname : name = sink := Option.some.inj hsink
      subst hname
      exact step_write_ofMeant lines h text
    | recite name =>
      have hname : name = sink := Option.some.inj hsink
      subst hname
      rw [step_recite_ofMeant hlines h]
      simp [Step.meant]
    | _ => simp [Step.sink?] at hsink
  · rw [step_sink_of_ne s hsink, h, Step.meant_of_ne lines hsink, List.append_nil]

theorem after_ofMeant (hlines : IsTranscript lines) {steps : List Step}
    (hsteps : ∀ l, .provide sink l ∉ steps)
    (h : s.sinks.get? sink = some (.ofMeant limit meant)) :
    (s.after steps).sinks.get? sink =
      some (.ofMeant limit (meant ++ steps.flatMap (Step.meant lines sink))) := by
  induction steps generalizing s meant with
  | nil => simpa using h
  | cons step steps ih =>
    have hhead : ∀ l, step ≠ .provide sink l := fun l hl => hsteps l (hl ▸ List.mem_cons_self)
    have htail : ∀ l, .provide sink l ∉ steps := fun l hl => hsteps l (List.mem_cons_of_mem _ hl)
    rw [after_cons, ih htail (step_ofMeant hlines hhead h), List.flatMap_cons, List.append_assoc]

/-- After any steps since it was provided, a sink holds the first texts meant for it, as many as its
limit allows. A recital arrives whole and counts 198 lines just when the limit admits all its lines
too. A step that does not name the sink leaves it alone. -/
theorem sink_holds_first_of_meant :
    ∃ labels ordinal offset, Span.standard.labels = .ok labels ∧
      Pass.ordinal.lines labels = .ok ordinal ∧ Pass.offset.lines labels = .ok offset ∧
      (ordinal ++ offset).length = 198 ∧
      ∀ (s : Session) (sink : String) (limit : Option Nat) (steps : List Step),
        (∀ l, .provide sink l ∉ steps) →
        let now := s.after (.provide sink limit :: steps)
        let meant := steps.flatMap (Step.meant (ordinal ++ offset) sink)
        let held := fun texts => String.join (Sink.kept limit texts)
        (now.sinks.get? sink).map Sink.content = some (held meant) ∧
        (now.step (.recite sink)).2 =
          (if Sink.Admits limit (meant ++ (ordinal ++ offset)).length then
            .recited 198 (.ofText (held (meant ++ (ordinal ++ offset))))
          else .cutShort .sinkFull (.ofText (held (meant ++ (ordinal ++ offset))))) ∧
        (∀ text, (now.step (.write sink text)).2 =
          if text = "" then .written (.ofText (held meant))
          else if Sink.Admits limit (meant.length + 1) then
            .written (.ofText (held (meant ++ [text])))
          else .failed .sinkFull) ∧
        ∀ step : Step, step.sink? ≠ some sink →
          (now.step step).1.sinks.get? sink = now.sinks.get? sink := by
  obtain ⟨labels, hlabels, hordinal, hoffset, hlines⟩ := exists_isTranscript
  refine ⟨labels, linesFrom 1 labels, linesFrom 0 labels, hlabels, hordinal, hoffset,
    hlines.length_eq, ?_⟩
  intro s sink limit steps hsteps now meant held
  have hprovided : (s.step (.provide sink limit)).1.sinks.get? sink =
      some (.ofMeant limit []) := by
    simp [Session.step, Slots.get?_set, Sink.empty_eq_ofMeant]
  have hnow : now.sinks.get? sink = some (.ofMeant limit meant) := by
    have h := after_ofMeant hlines hsteps hprovided
    rwa [List.nil_append] at h
  refine ⟨?_, ?_, ?_, ?_⟩
  · rw [hnow]
    rfl
  · rw [reply_recite_ofMeant hlines hnow]
    rfl
  · intro text
    rw [reply_write_ofMeant hnow text]
    rfl
  · intro step hstep
    exact step_sink_of_ne now hstep

/-- With room for three writes, one text and the first two lines of a recital fit. Another sink and
a recital on it do not matter. -/
theorem sink_holds_first_of_meant_limit_three :
    (∀ l, Step.provide "a" l ∉
      [Step.write "a" "x", .provide "b" none, .recite "b", .recite "a"]) ∧
    ((after {} [.provide "a" (some 3), .write "a" "x", .provide "b" none, .recite "b",
      .recite "a"]).sinks.get? "a").map Sink.content = some "x1: 1\n2: 2\n" := by
  have hsteps : ∀ l, Step.provide "a" l ∉
      [Step.write "a" "x", .provide "b" none, .recite "b", .recite "a"] := by simp
  refine ⟨hsteps, ?_⟩
  obtain ⟨labels, ordinal, offset, hlabels, hordinal, hoffset, _, hall⟩ :=
    sink_holds_first_of_meant
  have htranscript : transcript = .ok (ordinal ++ offset) := by
    simp only [transcript, hlabels, hordinal, hoffset, bind, Except.bind]
    rfl
  have hfirst : (ordinal ++ offset).take 2 = ["1: 1\n", "2: 2\n"] := by
    have hbegin := congrArg (List.take 2) (transcript_begins htranscript)
    rwa [List.take_take] at hbegin
  rw [(hall {} "a" (some 3) _ hsteps).1]
  simp [Step.meant, Sink.kept, hfirst]

end Session

end CountingGame
