import CountingGame.Proofs.Ladder
/-!
# How often each label is said

How many multiples of a number there are up to an index is told by floor division. Along a span
this goes up by one at each multiple and nowhere else, below zero as above it, so the two ends of
the span tell how often each word is said there.
-/
namespace CountingGame

private theorem fdiv_eq_pred_add_ite {d : Int} (hd : 0 < d) (i : Int) :
    i.fdiv d = (i - 1).fdiv d + if d ∣ i then 1 else 0 := by
  have hne : d ≠ 0 := Int.ne_of_gt hd
  have hlow := Int.emod_nonneg i hne
  have hhigh := Int.emod_lt_of_pos i hd
  have hwhole := Int.emod_add_mul_ediv i d
  have hpred : i - 1 = (i % d - 1) + d * (i / d) := by omega
  rw [Int.fdiv_eq_ediv_of_nonneg _ (Int.le_of_lt hd),
    Int.fdiv_eq_ediv_of_nonneg _ (Int.le_of_lt hd), hpred, Int.add_mul_ediv_left _ _ hne]
  by_cases hdvd : d ∣ i
  · rw [if_pos hdvd, Int.emod_eq_zero_of_dvd hdvd, Int.zero_sub, Int.neg_one_ediv,
      Int.sign_eq_one_of_pos hd]
    omega
  · have hpos : i % d ≠ 0 := fun hzero => hdvd (Int.dvd_of_emod_eq_zero hzero)
    have hnone : (i % d - 1) / d = 0 := Int.ediv_eq_zero_of_lt (by omega) (by omega)
    rw [if_neg hdvd, hnone]
    omega

/-- Let `f` go up by one at each index whose label is counted, and stay at all others. Then the
count over indices in a row is how far `f` goes up along them. -/
theorem countP_labelsFrom {p : String → Bool} {f : Int → Int}
    (hf : ∀ {i text}, label i = .ok text → f i = f (i - 1) + if p text then 1 else 0)
    {i : Int} {n : Nat} {labels : List String} (h : labelsFrom i n = .ok labels) :
    (labels.countP p : Int) = f (i + n - 1) - f (i - 1) := by
  induction n generalizing i labels with
  | zero =>
    have hlabels : labels = [] := by simpa [labelsFrom] using h.symm
    simp [hlabels]
  | succ n ih =>
    obtain ⟨head, tail, rfl, hhead, htail⟩ := labelsFrom_succ_eq_ok h
    have hcount := ih htail
    have hstep := hf hhead
    have hbegin : i + 1 - 1 = i := by omega
    have hend : i + 1 + (n : Int) - 1 = i + ((n + 1 : Nat) : Int) - 1 := by omega
    rw [hbegin, hend] at hcount
    rw [List.countP_cons]
    by_cases hp : p head = true
    · rw [if_pos hp] at hstep ⊢
      omega
    · rw [if_neg hp] at hstep ⊢
      omega

namespace Span

/-- The number of multiples of `d` from the first index to the last, by floor division. -/
def multiples (s : Span) (d : Int) : Int := s.last.fdiv d - (s.first - 1).fdiv d

variable {s : Span} {labels : List String}

private theorem countP_labels {p : String → Bool} {f : Int → Int} (hs : s.first ≤ s.last + 1)
    (h : s.labels = .ok labels)
    (hf : ∀ {i text}, label i = .ok text → f i = f (i - 1) + if p text then 1 else 0) :
    (labels.countP p : Int) = f s.last - f (s.first - 1) := by
  have hlast : s.first + (s.size : Int) - 1 = s.last := by
    unfold size
    omega
  have hcount := countP_labelsFrom hf h
  rwa [hlast] at hcount

private theorem count_fizzbuzz (hs : s.first ≤ s.last + 1) (h : s.labels = .ok labels) :
    (labels.count "fizzbuzz" : Int) = s.multiples 15 := by
  apply countP_labels (f := fun i => i.fdiv 15) hs h
  intro i text htext
  have hword : (text == "fizzbuzz") = true ↔ 15 ∣ i := by
    rw [beq_iff_eq, ← label_eq_fizzbuzz_iff, htext, Except.ok.injEq]
  have hfifteen := fdiv_eq_pred_add_ite (d := 15) (by decide) i
  simp only [hword]
  exact hfifteen

private theorem count_word {word : String} {d : Int} (hd : 0 < d) (hdvd : d ∣ 15)
    (hword : ∀ i, label i = .ok word ↔ d ∣ i ∧ ¬ 15 ∣ i) (hs : s.first ≤ s.last + 1)
    (h : s.labels = .ok labels) : (labels.count word : Int) = s.multiples d - s.multiples 15 := by
  have hcount : (labels.countP (· == word) : Int) = (s.last.fdiv d - s.last.fdiv 15) -
      ((s.first - 1).fdiv d - (s.first - 1).fdiv 15) := by
    apply countP_labels (f := fun i => i.fdiv d - i.fdiv 15) hs h
    intro i text htext
    have hsaid : (text == word) = true ↔ d ∣ i ∧ ¬ 15 ∣ i := by
      rw [beq_iff_eq, ← hword, htext, Except.ok.injEq]
    have hstep := fdiv_eq_pred_add_ite hd i
    have hfifteen := fdiv_eq_pred_add_ite (d := 15) (by decide) i
    simp only [hsaid]
    by_cases hi : d ∣ i
    · by_cases hi' : 15 ∣ i
      · simp only [hi, hi', if_true, not_true, and_false, if_false] at hstep hfifteen ⊢
        omega
      · simp only [hi, hi', if_true, if_false, not_false_eq_true, and_true] at hstep hfifteen ⊢
        omega
    · have hi' : ¬ 15 ∣ i := fun h15 => hi (Int.dvd_trans hdvd h15)
      simp only [hi, hi', if_false, false_and] at hstep hfifteen ⊢
      omega
  rw [List.count, hcount, multiples, multiples]
  omega

private theorem countP_not_words (hs : s.first ≤ s.last + 1) (h : s.labels = .ok labels) :
    (labels.countP (fun text => text ∉ Rule.words) : Int) =
      s.last - s.first + 1 - s.multiples 3 - s.multiples 5 + s.multiples 15 := by
  have hcount : (labels.countP (fun text => text ∉ Rule.words) : Int) =
      (s.last - s.last.fdiv 3 - s.last.fdiv 5 + s.last.fdiv 15) - (s.first - 1 -
        (s.first - 1).fdiv 3 - (s.first - 1).fdiv 5 + (s.first - 1).fdiv 15) := by
    apply countP_labels (f := fun i => i - i.fdiv 3 - i.fdiv 5 + i.fdiv 15) hs h
    intro i text htext
    have hthree := fdiv_eq_pred_add_ite (d := 3) (by decide) i
    have hfive := fdiv_eq_pred_add_ite (d := 5) (by decide) i
    have hfifteen := fdiv_eq_pred_add_ite (d := 15) (by decide) i
    simp only [label_mem_words_iff htext, decide_eq_true_eq]
    omega
  rw [hcount]
  simp only [multiples]
  omega

/-- A span says "fizzbuzz" as often as it has multiples of fifteen, "fizz" and "buzz" as often as it
has other multiples of three and of five. All other labels are decimal texts of integers, as many as
inclusion and exclusion of the multiples leave. -/
theorem count_labels (s : Span) (labels : List String) (hs : s.first ≤ s.last + 1)
    (h : s.labels = .ok labels) :
    let others := labels.filter fun text => text ∉ Rule.words
    (labels.count "fizzbuzz" : Int) = s.multiples 15 ∧
      (labels.count "fizz" : Int) = s.multiples 3 - s.multiples 15 ∧
      (labels.count "buzz" : Int) = s.multiples 5 - s.multiples 15 ∧
      (others.length : Int) =
        s.last - s.first + 1 - s.multiples 3 - s.multiples 5 + s.multiples 15 ∧
      ∀ text ∈ others, ∃ i : Int, text = toString i := by
  intro others
  refine ⟨count_fizzbuzz hs h, ?_, ?_, ?_, ?_⟩
  · exact count_word (by decide) (by decide) (fun _ => label_eq_fizz_iff) hs h
  · exact count_word (by decide) (by decide) (fun _ => label_eq_buzz_iff) hs h
  · rw [← List.countP_eq_length_filter]
    exact countP_not_words hs h
  · intro text htext
    obtain ⟨hmem, hword⟩ := List.mem_filter.mp htext
    obtain ⟨i, hi⟩ := exists_label_of_mem h hmem
    refine ⟨i, ?_⟩
    rw [← Decimal.text_eq_toString]
    exact eq_text_of_not_mem_words hi (of_decide_eq_true hword)

/-- In a span across zero the first multiples lie below zero, and zero is one of fifteen. -/
theorem count_labels_across_zero :
    (-6 : Int) ≤ 5 + 1 ∧ ∃ labels, Span.labels ⟨-6, 5⟩ = .ok labels ∧
      (labels.count "fizzbuzz" : Int) = 1 ∧ (labels.count "fizz" : Int) = 3 ∧
      (labels.count "buzz" : Int) = 2 ∧
      ((labels.filter fun text => text ∉ Rule.words).length : Int) = 6 ∧
      ∀ text ∈ ["-4", "-2", "-1", "1", "2", "4"], ∃ i : Int, text = toString i := by
  have hlabels : Span.labels ⟨-6, 5⟩ = .ok ["fizz", "buzz", "-4", "fizz", "-2", "-1", "fizzbuzz",
      "1", "2", "fizz", "4", "buzz"] := by decide +kernel
  obtain ⟨hfizzbuzz, hfizz, hbuzz, hothers, htexts⟩ := count_labels ⟨-6, 5⟩ _ (by decide) hlabels
  exact ⟨by decide, _, hlabels, hfizzbuzz, hfizz, hbuzz, hothers, htexts⟩

end Span

end CountingGame
