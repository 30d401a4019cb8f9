import CountingGame.Proofs.Frontier
import CountingGame.Proofs.Ladder
/-!
# Finding the span behind labels

A word stands for many indices and a number for one. As three indices in a row are never all said as
words, three labels or more hold a number, and a number tells where the span began. At most two
labels, all of them words, may come from several spans.
-/
namespace CountingGame

private theorem eq_of_read?_label {i n : Int} {text : String} (h : label i = .ok text)
    (hread : Decimal.read? text = some n) : n = i := by
  have hnone : ∀ word ∈ Rule.words, Decimal.read? word = none := by decide
  by_cases hword : text ∈ Rule.words
  · rw [hnone text hword] at hread
    simp at hread
  · rw [eq_text_of_not_mem_words h hword, Decimal.read?_text] at hread
    exact (Option.some.inj hread).symm

namespace Span

variable {s t : Span} {labels : List String}

private theorem number_tells_first (h : s.labels = .ok labels) {k : Nat} {text : String} {n : Int}
    (hk : labels[k]? = some text) (hread : Decimal.read? text = some n) : n - k = s.first := by
  have hn := eq_of_read?_label (label_of_getElem? h hk) hread
  omega

private theorem words_or_exists_number (h : s.labels = .ok labels) :
    (∀ text ∈ labels, text ∈ Rule.words) ∨
      ∃ (k : Nat) (n : Int), labels[k]? = some (Decimal.text n) := by
  by_cases hwords : ∀ text ∈ labels, text ∈ Rule.words
  · exact .inl hwords
  · simp only [not_forall] at hwords
    obtain ⟨text, hmem, hword⟩ := hwords
    obtain ⟨k, hk⟩ := List.getElem?_of_mem hmem
    have htext := eq_text_of_not_mem_words (label_of_getElem? h hk) hword
    exact .inr ⟨k, _, htext ▸ hk⟩

private theorem size_le_two_of_words (h : s.labels = .ok labels)
    (hwords : ∀ text ∈ labels, text ∈ Rule.words) : s.size ≤ 2 := by
  apply size_le_two_of_rules
  intro i hfirst hlast
  obtain ⟨text, hmem, htext⟩ := exists_mem_of_index h hfirst hlast
  exact (label_mem_words_iff htext).mp (hwords text hmem)

private theorem eq_of_first_of_size (hfirst : s.first = t.first) (hsize : s.size = t.size)
    (hpos : 0 < s.size) : s = t := by
  obtain ⟨a, b⟩ := s
  obtain ⟨c, d⟩ := t
  simp only [size] at hfirst hsize hpos
  have hlast : b = d := by omega
  rw [hfirst, hlast]

private theorem eq_of_labels_of_number (hs : s.labels = .ok labels) (ht : t.labels = .ok labels)
    {k : Nat} {n : Int} (hk : labels[k]? = some (Decimal.text n)) : s = t := by
  have hfirst := number_tells_first hs hk (Decimal.read?_text n)
  have hfirst' := number_tells_first ht hk (Decimal.read?_text n)
  have hlength := length_of_labels hs
  have hlength' := length_of_labels ht
  obtain ⟨hlt, _⟩ := List.getElem?_eq_some_iff.mp hk
  exact eq_of_first_of_size (by omega) (by omega) (by omega)

/-- Two spans with the same labels are one span if there are three labels or more, and with fewer
unless all labels are words. For among three labels there is a number, and a number less the count
of the labels before it is the first index. -/
theorem labels_tell_span :
    (∀ (s t : Span) (labels : List String), s.labels = .ok labels → t.labels = .ok labels →
      (3 ≤ s.size → s = t) ∧
      (s = t ∨ s.size ≤ 2 ∧ ∀ text ∈ labels, text ∈ Rule.words)) ∧
    ∀ (s : Span) (labels : List String), s.labels = .ok labels →
      (3 ≤ labels.length → ∃ (k : Nat) (n : Int), labels[k]? = some (toString n)) ∧
      ∀ (k : Nat) (text : String) (n : Int), labels[k]? = some text →
        Decimal.read? text = some n → n - k = s.first := by
  constructor
  · intro s t labels hs ht
    rcases words_or_exists_number hs with hwords | ⟨k, n, hk⟩
    · have hsize := size_le_two_of_words hs hwords
      exact ⟨fun hthree => absurd hsize (by omega), .inr ⟨hsize, hwords⟩⟩
    · have hst := eq_of_labels_of_number hs ht hk
      exact ⟨fun _ => hst, .inl hst⟩
  · intro s labels hs
    refine ⟨?_, fun k text n => number_tells_first hs⟩
    intro hthree
    rcases words_or_exists_number hs with hwords | hnumber
    · have hsize := size_le_two_of_words hs hwords
      rw [← length_of_labels hs] at hsize
      exact absurd hsize (by omega)
    · simpa only [Decimal.text_eq_toString] using hnumber

/-- Two spans of two indices have the same words; a third index tells either apart. -/
theorem labels_tell_span_of_three :
    Span.labels ⟨9, 10⟩ = .ok ["fizz", "buzz"] ∧ Span.labels ⟨24, 25⟩ = .ok ["fizz", "buzz"] ∧
      (∀ text ∈ ["fizz", "buzz"], text ∈ Rule.words) ∧
      (∃ (k : Nat) (n : Int), ["fizz", "buzz", "11"][k]? = some (toString n)) ∧
      ∀ t : Span, t.labels = .ok ["fizz", "buzz", "11"] → t = ⟨9, 11⟩ ∧ 11 - 2 = t.first := by
  have hleft : Span.labels ⟨9, 10⟩ = .ok ["fizz", "buzz"] := by decide +kernel
  have hright : Span.labels ⟨24, 25⟩ = .ok ["fizz", "buzz"] := by decide +kernel
  have hthree : Span.labels ⟨9, 11⟩ = .ok ["fizz", "buzz", "11"] := by decide +kernel
  refine ⟨hleft, hright, ?_, (labels_tell_span.2 _ _ hthree).1 (by decide), ?_⟩
  · rcases (labels_tell_span.1 _ _ _ hleft hright).2 with hsame | hwords
    · exact absurd hsame (by decide)
    · exact hwords.2
  · intro t ht
    exact ⟨((labels_tell_span.1 _ _ _ hthree ht).1 (by decide)).symm,
      (labels_tell_span.2 _ _ ht).2 2 "11" 11 rfl (by decide)⟩

end Span

end CountingGame
