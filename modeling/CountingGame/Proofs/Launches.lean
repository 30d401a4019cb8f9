import CountingGame.Launch
import CountingGame.Proofs.Decoding
import CountingGame.Proofs.SinkContent
/-!
# Launches and recitals cut short

A launch recites on a sink without a limit, so its output is the whole transcript, however it was
started. On a sink with a limit a recital is refused at the first line for which there is no room.
What it leaves is therefore a number of whole lines of that same output, and as every line has one
newline, counting newlines tells a part from the whole.
-/
namespace CountingGame

variable {lines : List String}

private theorem Sink.recite_empty (hlines : IsTranscript lines) (limit : Option Nat) :
    (Sink.empty limit).recite = ⟨Sink.ofMeant limit lines,
      if Sink.Admits limit 198 then .ok 198 else .error .sinkFull⟩ := by
  have hlength : ([] ++ lines).length = 198 := hlines.length_eq
  rw [Sink.empty_eq_ofMeant, Sink.recite_ofMeant hlines, hlength, List.nil_append]

private theorem Sink.recite_limited (hlines : IsTranscript lines) (n : Nat) :
    (Sink.empty (some n)).recite.sink.content = String.join (lines.take n) ∧
      (Sink.empty (some n)).recite.outcome = if 198 ≤ n then .ok 198 else .error .sinkFull := by
  have hadmits : Sink.Admits (some n) 198 ↔ 198 ≤ n := by simp [Sink.Admits]
  rw [Sink.recite_empty hlines]
  constructor
  · rfl
  · simp only [hadmits]

private theorem Launch.outcome_eq (hlines : IsTranscript lines) (l : Launch) :
    l.outcome = .ok ⟨0, String.join lines, ""⟩ := by
  have hadmits : Sink.Admits none 198 := by simp [Sink.Admits]
  rw [Launch.outcome, perform, Sink.recite_empty hlines, if_pos hadmits]
  rfl

private theorem join_take_eq_join_iff (hlines : ∀ line ∈ lines, IsLine line) (n : Nat) :
    String.join (lines.take n) = String.join lines ↔ lines.length ≤ n := by
  constructor
  · intro h
    have hpart : ∀ line ∈ lines.take n, IsLine line :=
      fun line hline => hlines line (List.mem_of_mem_take hline)
    -- Each line has one newline, so a text with a line missing has fewer.
    have hcount := congrArg (fun text => (Extent.ofText text).newlines) h
    simp only [newlines_join hpart, newlines_join hlines, List.length_take] at hcount
    omega
  · intro h
    rw [List.take_of_length_le h]

/-- Every launch puts out one and the same text and nothing else. A recital on a sink with a limit
leaves as many lines of that text as the limit allows: all of them just when it is not refused, and
then its count is that of the newlines. -/
theorem launches_agree_with_recitals :
    ∃ output : String, (∀ l : Launch, l.outcome = .ok ⟨0, output, ""⟩) ∧
      (cutLines output).length = 198 ∧ (∀ line ∈ cutLines output, IsLine line) ∧
      String.join (cutLines output) = output ∧
      ∀ limit : Nat,
        let delivery := (Sink.empty (some limit)).recite
        delivery.sink.content = String.join ((cutLines output).take (min limit 198)) ∧
        [delivery.sink.content = output, 198 ≤ limit, ∃ n, delivery.outcome = .ok n].TFAE ∧
        ∀ n, delivery.outcome = .ok n → n = (Extent.ofText output).newlines := by
  obtain ⟨labels, hlabels, _, _, hlines⟩ := exists_isTranscript
  have hfree := Span.newlineFree_of_labels hlabels
  have hisLine := isLine_of_mem_twoPasses hfree
  generalize linesFrom 1 labels ++ linesFrom 0 labels = lines at hlines hisLine
  have hcut : cutLines (String.join lines) = lines := cutLines_join hisLine
  refine ⟨String.join lines, Launch.outcome_eq hlines, ?_⟩
  rw [hcut]
  refine ⟨hlines.length_eq, hisLine, rfl, ?_⟩
  intro limit delivery
  obtain ⟨hcontent, houtcome⟩ := Sink.recite_limited hlines limit
  change delivery.sink.content = _ at hcontent
  change delivery.outcome = _ at houtcome
  have hwhole := join_take_eq_join_iff hisLine limit
  rw [hlines.length_eq] at hwhole
  refine ⟨?_, ?_, ?_⟩
  · rw [hcontent, List.take_eq_take_min, hlines.length_eq]
  · tfae_have 1 ↔ 2 := by
      rw [hcontent]
      exact hwhole
    tfae_have 2 ↔ 3 := by
      rw [houtcome]
      by_cases h : 198 ≤ limit
      · simp [h]
      · simp [h]
    tfae_finish
  · intro n hn
    rw [newlines_join hisLine, hlines.length_eq]
    rw [houtcome] at hn
    split at hn
    · exact (Except.ok.inj hn).symm
    · simp at hn

/-- With room for three lines the recital stops short of the output of a launch; with room for five
hundred it counts its newlines. -/
theorem launches_agree_with_recitals_cut_short :
    ∃ output, (Launch.package ["--help"]).outcome = .ok ⟨0, output, ""⟩ ∧
      (Launch.call none).outcome = .ok ⟨0, output, ""⟩ ∧
      (∃ line ∈ cutLines output, IsLine line) ∧
      (Sink.empty (some 3)).recite.sink.content = "1: 1\n2: 2\n3: fizz\n" ∧
      (Sink.empty (some 3)).recite.sink.content ≠ output ∧
      ∃ n, (Sink.empty (some 500)).recite.outcome = .ok n ∧
        n = (Extent.ofText output).newlines := by
  obtain ⟨output, hlaunch, hlength, hline, _, hrecite⟩ := launches_agree_with_recitals
  have hmem : (cutLines output)[0] ∈ cutLines output := List.getElem_mem _
  have hthree := (hrecite 3).2.1.out 0 1
  have hfivehundred := (hrecite 500).2.1.out 1 2
  obtain ⟨n, hn⟩ := hfivehundred.mp (by decide)
  have hbegin : (Sink.empty (some 3)).recite.sink.content = "1: 1\n2: 2\n3: fizz\n" := by
    obtain ⟨_, _, _, _, hlines⟩ := exists_isTranscript
    rw [(Sink.recite_limited hlines 3).1, transcript_begins hlines.transcript_eq]
    rfl
  refine ⟨output, hlaunch _, hlaunch _, ⟨_, hmem, hline _ hmem⟩, hbegin, ?_, n, hn,
    (hrecite 500).2.2 n hn⟩
  intro hwhole
  exact absurd (hthree.mp hwhole) (by decide)

end CountingGame
