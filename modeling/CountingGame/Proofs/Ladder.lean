import CountingGame.Proofs.Labels
/-!
# The ladder

The table joins the words of all rules that hold at an index. It has no rule for fifteen, yet it
says what a ladder says that tries fifteen first, then three, then five, and stops at the first rung
that holds. The label of an index tells the rung, and on the last rung the index itself, because no
decimal text is a word and no two integers have one decimal text.
-/
namespace CountingGame

/-- The rules of the ladder, each with the whole of the word to be said. -/
def Rule.ladder : List Rule := [⟨15, "fizzbuzz"⟩, ⟨3, "fizz"⟩, ⟨5, "buzz"⟩]

/-- The call of the first rule of the ladder that holds, or the index where none does. -/
def Call.ofLadder (i : Int) : Call :=
  match Rule.ladder.find? fun r => r.HoldsAt i with
  | some r => .word r.word
  | none => .number i

private theorem fifteen_dvd_iff (i : Int) : 15 ∣ i ↔ 3 ∣ i ∧ 5 ∣ i := by omega

theorem Call.ofIndex_eq_ofLadder (i : Int) : Call.ofIndex i = Call.ofLadder i := by
  have hfifteen := fifteen_dvd_iff i
  rw [Call.ofIndex_eq]
  by_cases hthree : 3 ∣ i
  · by_cases hfive : 5 ∣ i
    · simp [Call.ofLadder, Rule.ladder, Rule.holdsAt_iff_dvd, hfifteen, hthree, hfive]
    · simp [Call.ofLadder, Rule.ladder, Rule.holdsAt_iff_dvd, hfifteen, hthree, hfive]
  · by_cases hfive : 5 ∣ i
    · simp [Call.ofLadder, Rule.ladder, Rule.holdsAt_iff_dvd, hfifteen, hthree, hfive]
    · simp [Call.ofLadder, Rule.ladder, Rule.holdsAt_iff_dvd, hfifteen, hthree, hfive]

-- All three words have this letter, and no decimal text has it.
private theorem ne_text_of_z_mem {word : String} (h : 'z' ∈ word.toList) (i : Int) :
    word ≠ Decimal.text i := by
  intro heq
  rw [heq] at h
  exact Decimal.not_mem_text (by decide) (by decide) i h

private theorem label_eq_word_iff {i : Int} {word : String} (h : 'z' ∈ word.toList) :
    label i = .ok word ↔ (3 ∣ i ∧ 5 ∣ i ∧ word = "fizzbuzz") ∨ (3 ∣ i ∧ ¬ 5 ∣ i ∧ word = "fizz") ∨
      (¬ 3 ∣ i ∧ 5 ∣ i ∧ word = "buzz") := by
  rw [label_eq_ok_iff]
  simp [ne_text_of_z_mem h i]

theorem label_eq_fizzbuzz_iff {i : Int} : label i = .ok "fizzbuzz" ↔ 15 ∣ i := by
  rw [label_eq_word_iff (by decide), fifteen_dvd_iff]
  simp

theorem label_eq_fizz_iff {i : Int} : label i = .ok "fizz" ↔ 3 ∣ i ∧ ¬ 15 ∣ i := by
  have hfizzbuzz : "fizz" ≠ "fizzbuzz" := by decide
  have hbuzz : "fizz" ≠ "buzz" := by decide
  rw [label_eq_word_iff (by decide)]
  simp only [hfizzbuzz, hbuzz, and_true, and_false, false_or, or_false]
  omega

theorem label_eq_buzz_iff {i : Int} : label i = .ok "buzz" ↔ 5 ∣ i ∧ ¬ 15 ∣ i := by
  have hfizzbuzz : "buzz" ≠ "fizzbuzz" := by decide
  have hfizz : "buzz" ≠ "fizz" := by decide
  rw [label_eq_word_iff (by decide)]
  simp only [hfizzbuzz, hfizz, and_true, and_false, false_or]
  omega

private theorem label_eq_text_iff {i j : Int} :
    label j = .ok (Decimal.text i) ↔ j = i ∧ ¬ 3 ∣ i ∧ ¬ 5 ∣ i ∧ Decimal.Fits i := by
  have hfizzbuzz : Decimal.text i ≠ "fizzbuzz" := (ne_text_of_z_mem (by decide) i).symm
  have hfizz : Decimal.text i ≠ "fizz" := (ne_text_of_z_mem (by decide) i).symm
  have hbuzz : Decimal.text i ≠ "buzz" := (ne_text_of_z_mem (by decide) i).symm
  rw [label_eq_ok_iff]
  simp only [hfizzbuzz, hfizz, hbuzz, and_false, false_or]
  constructor
  · rintro ⟨hthree, hfive, hfits, htext⟩
    obtain rfl := Decimal.text_injective htext
    exact ⟨rfl, hthree, hfive, hfits⟩
  · rintro ⟨rfl, hthree, hfive, hfits⟩
    exact ⟨hthree, hfive, hfits, rfl⟩

private theorem label_eq_label_iff {i j : Int} {s t : String} (hs : label i = .ok s)
    (ht : label j = .ok t) : s = t ↔ i = j ∨ (15 ∣ i ∧ 15 ∣ j) ∨
      ((3 ∣ i ∧ ¬ 15 ∣ i) ∧ 3 ∣ j ∧ ¬ 15 ∣ j) ∨ ((5 ∣ i ∧ ¬ 15 ∣ i) ∧ 5 ∣ j ∧ ¬ 15 ∣ j) := by
  have hlabel : s = t ↔ label j = .ok s := by
    rw [ht, Except.ok.injEq]
    exact eq_comm
  rw [hlabel]
  rcases label_eq_ok_iff.mp hs with ⟨hthree, hfive, rfl⟩ | ⟨hthree, hfive, rfl⟩ |
    ⟨hthree, hfive, rfl⟩ | ⟨hthree, hfive, hfits, rfl⟩
  · rw [label_eq_fizzbuzz_iff]
    omega
  · rw [label_eq_fizz_iff]
    omega
  · rw [label_eq_buzz_iff]
    omega
  · rw [label_eq_text_iff]
    constructor
    · rintro ⟨rfl, -, -, -⟩
      exact .inl rfl
    · intro h
      have hij : j = i := by omega
      exact ⟨hij, hthree, hfive, hfits⟩

/-- All that can be said in the place of an index. -/
def Rule.words : List String := ["fizz", "buzz", "fizzbuzz"]

theorem text_not_mem_words (i : Int) : Decimal.text i ∉ Rule.words := by
  have hletter : ∀ word ∈ Rule.words, 'z' ∈ word.toList := by decide
  intro h
  exact ne_text_of_z_mem (hletter _ h) i rfl

theorem label_mem_words_iff {i : Int} {text : String} (h : label i = .ok text) :
    text ∈ Rule.words ↔ 3 ∣ i ∨ 5 ∣ i := by
  rcases label_eq_ok_iff.mp h with ⟨hthree, _, rfl⟩ | ⟨hthree, _, rfl⟩ | ⟨_, hfive, rfl⟩ |
    ⟨hthree, hfive, _, rfl⟩
  · simp [Rule.words, hthree]
  · simp [Rule.words, hthree]
  · simp [Rule.words, hfive]
  · simp [text_not_mem_words, hthree, hfive]

theorem eq_text_of_not_mem_words {i : Int} {text : String} (h : label i = .ok text)
    (hword : text ∉ Rule.words) : text = Decimal.text i := by
  rw [label_mem_words_iff h, not_or] at hword
  rcases label_eq_ok_iff.mp h with ⟨hthree, _, _⟩ | ⟨hthree, _, _⟩ | ⟨_, hfive, _⟩ |
    ⟨_, _, _, htext⟩
  · exact absurd hthree hword.1
  · exact absurd hthree hword.1
  · exact absurd hfive hword.2
  · exact htext

/-- Every index has the label that the ladder gives it. It is without one just when it is on no rung
and has too many digits; with fewer, its label is its decimal text, from which it is read back. Two
labels agree only on one index or on one rung. -/
theorem label_on_ladder :
    (∀ i : Int, label i = (Call.ofLadder i).text ∧
      (label i = .ok "fizzbuzz" ↔ 15 ∣ i) ∧
      (label i = .ok "fizz" ↔ 3 ∣ i ∧ ¬ 15 ∣ i) ∧
      (label i = .ok "buzz" ↔ 5 ∣ i ∧ ¬ 15 ∣ i) ∧
      (label i = .error .digitLimit ↔ ¬ 3 ∣ i ∧ ¬ 5 ∣ i ∧ 10 ^ Decimal.digitLimit ≤ i.natAbs) ∧
      (¬ 3 ∣ i → ¬ 5 ∣ i → i.natAbs < 10 ^ Decimal.digitLimit →
        label i = .ok (toString i) ∧ Decimal.read? (toString i) = some i)) ∧
    Decimal.digitLimit = 4300 ∧
    ∀ (i j : Int) (s t : String), label i = .ok s → label j = .ok t →
      (s = t ↔ i = j ∨ (15 ∣ i ∧ 15 ∣ j) ∨ ((3 ∣ i ∧ ¬ 15 ∣ i) ∧ 3 ∣ j ∧ ¬ 15 ∣ j) ∨
        ((5 ∣ i ∧ ¬ 15 ∣ i) ∧ 5 ∣ j ∧ ¬ 15 ∣ j)) := by
  refine ⟨?_, rfl, fun i j s t => label_eq_label_iff⟩
  intro i
  rw [← Decimal.bound_eq_pow]
  refine ⟨?_, label_eq_fizzbuzz_iff, label_eq_fizz_iff, label_eq_buzz_iff, ?_, ?_⟩
  · rw [label, Call.ofIndex_eq_ofLadder]
  · rw [label_eq_error_iff, Decimal.Fits, Nat.not_lt]
    simp
  · intro hthree hfive hlt
    rw [← Decimal.text_eq_toString]
    exact ⟨label_eq_text_iff.mpr ⟨rfl, hthree, hfive, hlt⟩, Decimal.read?_text i⟩

/-- A negative number is read back from its label, and zero and a negative multiple of fifteen have
the same word. -/
theorem label_on_ladder_negative :
    (¬ (3 : Int) ∣ -7 ∧ ¬ (5 : Int) ∣ -7 ∧ (-7 : Int).natAbs < 10 ^ Decimal.digitLimit) ∧
      label (-7) = .ok "-7" ∧ Decimal.read? "-7" = some (-7) ∧
      ∃ s t, label 0 = .ok s ∧ label (-15) = .ok t ∧ s = t := by
  have hlt : (-7 : Int).natAbs < 10 ^ Decimal.digitLimit :=
    Decimal.lt_ten_pow_digitLimit 1 (by decide) (by decide)
  have hseven := (label_on_ladder.1 (-7)).2.2.2.2.2 (by decide) (by decide) hlt
  have hzero : label 0 = .ok "fizzbuzz" := (label_on_ladder.1 0).2.1.mpr (by decide)
  have hfifteen : label (-15) = .ok "fizzbuzz" := (label_on_ladder.1 (-15)).2.1.mpr (by decide)
  have hagree := label_on_ladder.2.2 0 (-15) _ _ hzero hfifteen
  exact ⟨⟨by decide, by decide, hlt⟩, hseven.1, hseven.2, _, _, hzero, hfifteen,
    hagree.mpr (.inr (.inl ⟨by decide, by decide⟩))⟩

end CountingGame
