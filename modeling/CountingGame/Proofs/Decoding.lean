import CountingGame.Sink
import CountingGame.Proofs.Frontier
import CountingGame.Proofs.LineCut
/-!
# Reading passes back

A line holds one newline, at its end, unless its label holds another. So the lines of a pass over
labels without newlines can be cut apart again, and since the position of each line is known
beforehand, its label can be read off, whatever colons, spaces, digits or braces it holds.
-/
namespace CountingGame

/-- The pieces of a text that end behind each newline. What follows the last newline, if anything,
is a piece of its own. -/
def cutChars : List Char → List (List Char)
  | [] => []
  | c :: cs =>
    if c = '\n' then [c] :: cutChars cs
    else match cutChars cs with
      | [] => [[c]]
      | piece :: pieces => (c :: piece) :: pieces

def cutLines (text : String) : List String := (cutChars text.toList).map String.ofList

/-- A text with one newline, at its end. -/
def IsLine (line : String) : Prop := ∃ body, line = body ++ "\n" ∧ '\n' ∉ body.toList

def NewlineFree (labels : List String) : Prop := ∀ label ∈ labels, '\n' ∉ label.toList

instance (labels : List String) : Decidable (NewlineFree labels) :=
  inferInstanceAs (Decidable (∀ label ∈ labels, '\n' ∉ label.toList))

def twoPassText (labels : List String) : Except Fault String := do
  let ordinal ← Pass.ordinal.text labels
  let offset ← Pass.offset.text labels
  return ordinal ++ offset

private theorem cutChars_append {body : List Char} (h : '\n' ∉ body) (rest : List Char) :
    cutChars (body ++ '\n' :: rest) = (body ++ ['\n']) :: cutChars rest := by
  induction body with
  | nil => simp [cutChars]
  | cons c body ih =>
    have hc : c ≠ '\n' := fun he => h (he ▸ List.mem_cons_self)
    have hbody : '\n' ∉ body := fun hm => h (List.mem_cons_of_mem _ hm)
    simp only [List.cons_append, cutChars, if_neg hc, ih hbody]

theorem cutLines_join {lines : List String} (h : ∀ line ∈ lines, IsLine line) :
    cutLines (String.join lines) = lines := by
  induction lines with
  | nil => rfl
  | cons line lines ih =>
    obtain ⟨body, rfl, hbody⟩ := h line List.mem_cons_self
    have htail := ih fun l hl => h l (List.mem_cons_of_mem _ hl)
    have hchars : (String.join ((body ++ "\n") :: lines)).toList =
        body.toList ++ '\n' :: (String.join lines).toList := by simp
    unfold cutLines at htail ⊢
    rw [hchars, cutChars_append hbody, List.map_cons, htail]
    congr 1
    apply String.toList_inj.mp
    simp

theorem newlines_join {lines : List String} (h : ∀ line ∈ lines, IsLine line) :
    (Extent.ofText (String.join lines)).newlines = lines.length := by
  induction lines with
  | nil => rfl
  | cons line lines ih =>
    obtain ⟨body, rfl, hbody⟩ := h line List.mem_cons_self
    have hend : (Extent.ofText "\n").newlines = 1 := rfl
    have htail := ih fun l hl => h l (List.mem_cons_of_mem _ hl)
    rw [String.join_cons, Extent.newlines_append, Extent.newlines_append,
      Extent.newlines_eq_zero hbody, hend, htail, List.length_cons]
    omega

private theorem newline_not_mem_text (i : Int) : '\n' ∉ (Decimal.text i).toList :=
  Decimal.not_mem_text (by decide) (by decide) i

private theorem newline_not_mem_label {i : Int} {text : String} (h : label i = .ok text) :
    '\n' ∉ text.toList := by
  rcases label_eq_ok_iff.mp h with ⟨_, _, rfl⟩ | ⟨_, _, rfl⟩ | ⟨_, _, rfl⟩ | ⟨_, _, _, rfl⟩
  · decide
  · decide
  · decide
  · exact newline_not_mem_text i

theorem Span.newlineFree_of_labels {s : Span} {labels : List String} (h : s.labels = .ok labels) :
    NewlineFree labels := by
  intro label hmem
  obtain ⟨i, hi⟩ := Span.exists_label_of_mem h hmem
  exact newline_not_mem_label hi

private theorem isLine_lineText {e : Entry} (h : '\n' ∉ e.label.toList) : IsLine e.lineText := by
  refine ⟨Decimal.text e.position ++ ": " ++ e.label, rfl, ?_⟩
  have hposition := newline_not_mem_text e.position
  simp [hposition, h]

private theorem isLine_of_mem_linesFrom {labels : List String} (h : NewlineFree labels)
    (position : Nat) : ∀ line ∈ linesFrom position labels, IsLine line := by
  intro line hline
  obtain ⟨e, he, rfl⟩ := List.mem_map.mp hline
  have hlabel : e.label ∈ labels := by
    rw [← map_label_numberFrom position labels]
    exact List.mem_map_of_mem he
  exact isLine_lineText (h e.label hlabel)

private theorem linesFrom_injective {position : Nat} {r s : List String}
    (h : linesFrom position r = linesFrom position s) : r = s := by
  induction r generalizing position s with
  | nil =>
    have hlen := congrArg List.length h
    simp only [length_linesFrom, List.length_nil] at hlen
    exact (List.length_eq_zero_iff.mp hlen.symm).symm
  | cons x r ih =>
    cases s with
    | nil => simp [linesFrom_cons] at h
    | cons y s =>
      rw [linesFrom_cons, linesFrom_cons, List.cons.injEq] at h
      have hentry := Entry.lineText_injective h.1
      rw [Entry.mk.injEq] at hentry
      rw [hentry.2, ih h.2]

private theorem linesFrom_eq_nil_of_ne {p q : Nat} (hne : p ≠ q) {r s : List String}
    (h : linesFrom p r = linesFrom q s) : r = [] ∧ s = [] := by
  have hlen := congrArg List.length h
  rw [length_linesFrom, length_linesFrom] at hlen
  cases r with
  | nil => exact ⟨rfl, List.length_eq_zero_iff.mp hlen.symm⟩
  | cons x r =>
    cases s with
    | nil => simp at hlen
    | cons y s =>
      rw [linesFrom_cons, linesFrom_cons, List.cons.injEq] at h
      -- Already the first lines tell different positions.
      have hentry := Entry.lineText_injective h.1
      rw [Entry.mk.injEq, Int.natCast_inj] at hentry
      exact absurd hentry.1 hne

private theorem twoPassText_of_lt {labels : List String} (h : labels.length < Decimal.bound) :
    twoPassText labels =
      .ok (String.join (linesFrom 1 labels) ++ String.join (linesFrom 0 labels)) := by
  have hordinal := Pass.ordinal.text_of_lt h
  have hoffset := Pass.offset.text_of_lt h
  simp only [twoPassText, hordinal, hoffset, bind, Except.bind]
  rfl

private theorem Pass.cutLines_text {p : Pass} {labels : List String} (hfree : NewlineFree labels)
    {text : String} (h : p.text labels = .ok text) : cutLines text = linesFrom p.start labels := by
  rw [Pass.eq_join_linesFrom_of_text h]
  exact cutLines_join (isLine_of_mem_linesFrom hfree p.start)

theorem isLine_of_mem_twoPasses {labels : List String} (h : NewlineFree labels) :
    ∀ line ∈ linesFrom 1 labels ++ linesFrom 0 labels, IsLine line := by
  intro line hline
  rcases List.mem_append.mp hline with hm | hm
  · exact isLine_of_mem_linesFrom h 1 line hm
  · exact isLine_of_mem_linesFrom h 0 line hm

private theorem cutLines_twoPassText {labels : List String} (hfree : NewlineFree labels)
    {text : String} (h : twoPassText labels = .ok text) :
    cutLines text = linesFrom 1 labels ++ linesFrom 0 labels := by
  obtain ⟨ordinal, hordinal, h⟩ := bind_eq_ok.mp h
  obtain ⟨offset, hoffset, h⟩ := bind_eq_ok.mp h
  have htext : text = String.join (linesFrom 1 labels ++ linesFrom 0 labels) := by
    rw [← Except.ok.inj h, Pass.eq_join_linesFrom_of_text hordinal,
      Pass.eq_join_linesFrom_of_text hoffset, String.join_append]
    rfl
  rw [htext]
  exact cutLines_join (isLine_of_mem_twoPasses hfree)

/-- Labels without newlines, such as those of any span, can be read back from what is told of them:
the lines of a pass from its text, the labels from the text of either pass or of both in a row, and
which pass it was unless there are no labels. -/
theorem passes_decode :
    (∀ (span : Span) (labels : List String), span.labels = .ok labels →
      NewlineFree labels ∧ labels.length = span.size ∧
      (span.last - span.first + 1 < (10 ^ Decimal.digitLimit : Nat) →
        labels.length < 10 ^ Decimal.digitLimit)) ∧
    ∀ r s : List String, NewlineFree r → NewlineFree s →
      (r.length < 10 ^ Decimal.digitLimit →
        (∀ p : Pass, ∃ lines, p.lines r = .ok lines ∧ p.text r = .ok (String.join lines)) ∧
        ∃ text, twoPassText r = .ok text) ∧
      (∀ (p : Pass) (lines : List String), p.lines r = .ok lines →
        cutLines (String.join lines) = lines) ∧
      (∀ (p : Pass) (text : String), p.text r = .ok text → p.text s = .ok text → r = s) ∧
      (∀ text, Pass.ordinal.text r = .ok text → Pass.offset.text s = .ok text →
        r = [] ∧ s = []) ∧
      (∀ text, twoPassText r = .ok text → twoPassText s = .ok text → r = s) := by
  rw [← Decimal.bound_eq_pow]
  constructor
  · intro span labels h
    have hlen := Span.length_of_labels h
    refine ⟨Span.newlineFree_of_labels h, hlen, ?_⟩
    have hpos : 10 ^ 0 ≤ Decimal.bound := Decimal.ten_pow_le_bound (Nat.zero_le _)
    unfold Span.size at hlen
    omega
  · intro r s hr hs
    refine ⟨?_, ?_, ?_, ?_, ?_⟩
    · intro hlt
      exact ⟨fun p => ⟨_, p.lines_of_lt hlt, p.text_of_lt hlt⟩, _, twoPassText_of_lt hlt⟩
    · intro p lines hlines
      rw [Pass.eq_linesFrom_of_lines hlines]
      exact cutLines_join (isLine_of_mem_linesFrom hr p.start)
    · intro p text htextr htexts
      have hcut := Pass.cutLines_text hr htextr
      rw [Pass.cutLines_text hs htexts] at hcut
      exact (linesFrom_injective hcut).symm
    · intro text htextr htexts
      have hcut := Pass.cutLines_text hr htextr
      rw [Pass.cutLines_text hs htexts] at hcut
      have hnil := linesFrom_eq_nil_of_ne (by decide) hcut
      exact ⟨hnil.2, hnil.1⟩
    · intro text htextr htexts
      have hcut := cutLines_twoPassText hr htextr
      rw [cutLines_twoPassText hs htexts] at hcut
      have hlen := congrArg List.length hcut
      simp only [List.length_append, length_linesFrom] at hlen
      -- Both halves have one line for each label, so they meet in the same place.
      have hhalf : (linesFrom 1 s).length = (linesFrom 1 r).length := by
        rw [length_linesFrom, length_linesFrom]
        omega
      exact (linesFrom_injective (List.append_inj hcut hhalf).1).symm

/-- Labels that look like lines or like fields of the template do not mislead the reader. -/
theorem passes_decode_misleading :
    (Span.labels ⟨2, 3⟩ = .ok ["2", "fizz"] ∧ NewlineFree ["2", "fizz"]) ∧
      NewlineFree ["2: x", "{label}"] ∧
      Pass.offset.text ["2: x", "{label}"] = .ok "0: 2: x\n1: {label}\n" ∧
      cutLines "0: 2: x\n1: {label}\n" = ["0: 2: x\n", "1: {label}\n"] ∧
      (∀ s, NewlineFree s → Pass.offset.text s = .ok "0: 2: x\n1: {label}\n" →
        ["2: x", "{label}"] = s) ∧
      (∀ s, NewlineFree s → Pass.ordinal.text s ≠ .ok "0: 2: x\n1: {label}\n") ∧
      ∃ text, twoPassText ["2: x", "{label}"] = .ok text ∧
        ∀ s, NewlineFree s → twoPassText s = .ok text → ["2: x", "{label}"] = s := by
  have hfree : NewlineFree ["2: x", "{label}"] := by decide
  have hspan : Span.labels ⟨2, 3⟩ = .ok ["2", "fizz"] := by decide +kernel
  have hlt : 2 < 10 ^ Decimal.digitLimit :=
    Decimal.lt_ten_pow_digitLimit 1 (by decide) (by decide)
  obtain ⟨htold, text, htext⟩ := (passes_decode.2 _ _ hfree hfree).1 hlt
  obtain ⟨lines, hlines, hoffset⟩ := htold .offset
  have hcut := (passes_decode.2 _ _ hfree hfree).2.1 .offset _ hlines
  have heq : lines = ["0: 2: x\n", "1: {label}\n"] := Pass.eq_linesFrom_of_lines hlines
  have hjoin : String.join lines = "0: 2: x\n1: {label}\n" := by rw [heq]; rfl
  rw [hjoin] at hoffset hcut
  rw [heq] at hcut
  refine ⟨⟨hspan, (passes_decode.1 _ _ hspan).1⟩, hfree, hoffset, hcut, ?_, ?_, text, htext, ?_⟩
  · intro s hs h
    exact (passes_decode.2 _ s hfree hs).2.2.1 .offset _ hoffset h
  · intro s hs h
    have hnil := (passes_decode.2 s _ hs hfree).2.2.2.1 _ h hoffset
    exact absurd hnil.2 (by decide)
  · intro s hs h
    exact (passes_decode.2 _ s hfree hs).2.2.2.2 _ htext h

/-- The least natural with too many digits still has a label, a word, so the span up to it has as
many labels as that number says, and not fewer. -/
theorem passes_decode_too_many :
    let B : Nat := 10 ^ Decimal.digitLimit
    Span.labels ⟨B, B⟩ = .ok ["buzz"] ∧
    (∃ labels, Span.labels ⟨1, B⟩ = .ok labels ∧ labels.length = B) ∧
    ¬ ∀ (span : Span) (labels : List String), span.labels = .ok labels →
      NewlineFree labels ∧ labels.length < B := by
  intro B
  have hB : B = Decimal.bound := Decimal.bound_eq_pow.symm
  rw [hB]
  have hthree := Decimal.bound_mod_three
  have hfive := Decimal.five_dvd_bound
  have hbuzz : label Decimal.bound = .ok "buzz" :=
    label_eq_ok_iff.mpr (.inr (.inr (.inl ⟨by omega, by omega, rfl⟩)))
  have hone : Span.labels ⟨Decimal.bound, Decimal.bound⟩ = .ok ["buzz"] := by
    have hsize : Span.size ⟨Decimal.bound, Decimal.bound⟩ = 1 := by
      simp only [Span.size]
      omega
    simp only [Span.labels, hsize, labelsFrom, hbuzz]
    rfl
  have hall : ∀ i, 1 ≤ i → i ≤ (Decimal.bound : Int) → ∃ text, label i = .ok text := by
    intro i hlow hhigh
    exact exists_label_of_le_bound (by omega) hhigh
  obtain ⟨labels, hlabels⟩ := Span.exists_labels_iff (s := ⟨1, Decimal.bound⟩).mpr hall
  have hlen : labels.length = Decimal.bound := by
    rw [Span.length_of_labels hlabels]
    simp only [Span.size]
    omega
  refine ⟨hone, ⟨labels, hlabels, hlen⟩, ?_⟩
  intro hfewer
  have hlt := (hfewer _ _ hlabels).2
  omega

end CountingGame
