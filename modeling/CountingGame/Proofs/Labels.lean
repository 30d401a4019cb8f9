import CountingGame.Proofs.Numbering
/-!
# Labels of indices and of spans

The label of an index is told by what three and five divide. A span has labels just when each of
its indices has one, and then the labels are those, one for each index and in order.
-/
namespace CountingGame

/-- All labels there are: a word at the multiples of three or of five, and at any other index its
decimal text, if that can be written. -/
theorem label_eq_ok_iff {i : Int} {text : String} : label i = .ok text ↔
    (3 ∣ i ∧ 5 ∣ i ∧ text = "fizzbuzz") ∨ (3 ∣ i ∧ ¬ 5 ∣ i ∧ text = "fizz") ∨
    (¬ 3 ∣ i ∧ 5 ∣ i ∧ text = "buzz") ∨
    (¬ 3 ∣ i ∧ ¬ 5 ∣ i ∧ Decimal.Fits i ∧ text = Decimal.text i) := by
  rw [label_eq]
  by_cases hthree : 3 ∣ i
  · by_cases hfive : 5 ∣ i
    · simp [hthree, hfive, eq_comm]
    · simp [hthree, hfive, eq_comm]
  · by_cases hfive : 5 ∣ i
    · simp [hthree, hfive, eq_comm]
    · by_cases hfits : Decimal.Fits i
      · simp [hthree, hfive, hfits, Decimal.write_of_fits, eq_comm]
      · simp [hthree, hfive, hfits, Decimal.write_of_not_fits]

theorem label_eq_error_iff {i : Int} {fault : Fault} : label i = .error fault ↔
    ¬ 3 ∣ i ∧ ¬ 5 ∣ i ∧ ¬ Decimal.Fits i ∧ fault = .digitLimit := by
  rw [label_eq]
  by_cases hthree : 3 ∣ i
  · by_cases hfive : 5 ∣ i
    · simp [hthree, hfive]
    · simp [hthree, hfive]
  · by_cases hfive : 5 ∣ i
    · simp [hthree, hfive]
    · by_cases hfits : Decimal.Fits i
      · simp [hthree, hfive, hfits, Decimal.write_of_fits]
      · simp [hthree, hfive, hfits, Decimal.write_of_not_fits, eq_comm]

theorem fault_of_label {i : Int} {fault : Fault} (h : label i = .error fault) :
    fault = .digitLimit :=
  (label_eq_error_iff.mp h).2.2.2

theorem exists_label_iff {i : Int} :
    (∃ text, label i = .ok text) ↔ 3 ∣ i ∨ 5 ∣ i ∨ Decimal.Fits i := by
  cases h : label i with
  | error fault =>
    obtain ⟨hthree, hfive, hfits, _⟩ := label_eq_error_iff.mp h
    simp [hthree, hfive, hfits]
  | ok text =>
    rcases label_eq_ok_iff.mp h with ⟨hthree, _, _⟩ | ⟨hthree, _, _⟩ | ⟨_, hfive, _⟩ |
      ⟨_, _, hfits, _⟩
    · simp [hthree]
    · simp [hthree]
    · simp [hfive]
    · simp [hfits]

private theorem index_succ (i : Int) (k : Nat) : i + ((k + 1 : Nat) : Int) = i + 1 + k := by omega

theorem labelsFrom_succ_eq_ok {i : Int} {n : Nat} {texts : List String}
    (h : labelsFrom i (n + 1) = .ok texts) :
    ∃ head tail, texts = head :: tail ∧ label i = .ok head ∧ labelsFrom (i + 1) n = .ok tail := by
  obtain ⟨head, hhead, h⟩ := bind_eq_ok.mp h
  obtain ⟨tail, htail, h⟩ := bind_eq_ok.mp h
  exact ⟨head, tail, (Except.ok.inj h).symm, hhead, htail⟩

private theorem labelsFrom_succ_of_ok {i : Int} {n : Nat} {head : String} {tail : List String}
    (hhead : label i = .ok head) (htail : labelsFrom (i + 1) n = .ok tail) :
    labelsFrom i (n + 1) = .ok (head :: tail) := by
  simp [labelsFrom, hhead, htail, bind, Except.bind, pure, Except.pure]

/-- The labels of `n` indices in a row are the `n` labels of those indices. -/
theorem labelsFrom_eq_ok_iff {i : Int} {n : Nat} {texts : List String} :
    labelsFrom i n = .ok texts ↔
      texts.length = n ∧ ∀ k (h : k < texts.length), label (i + k) = .ok texts[k] := by
  induction n generalizing i texts with
  | zero =>
    constructor
    · intro h
      have htexts : texts = [] := by simpa [labelsFrom] using h.symm
      subst htexts
      simp
    · intro h
      rw [List.length_eq_zero_iff.mp h.1]
      rfl
  | succ n ih =>
    constructor
    · intro h
      obtain ⟨head, tail, rfl, hhead, htail⟩ := labelsFrom_succ_eq_ok h
      obtain ⟨hlen, hlabels⟩ := ih.mp htail
      refine ⟨by simp [hlen], ?_⟩
      intro k hk
      cases k with
      | zero => simpa using hhead
      | succ k =>
        rw [index_succ]
        exact hlabels k (by simpa using hk)
    · intro h
      obtain ⟨hlen, hlabels⟩ := h
      cases texts with
      | nil => simp at hlen
      | cons head tail =>
        have hhead : label (i + (0 : Nat)) = .ok head := hlabels 0 (Nat.zero_lt_succ _)
        rw [Int.natCast_zero, Int.add_zero] at hhead
        refine labelsFrom_succ_of_ok hhead (ih.mpr ⟨by simpa using hlen, ?_⟩)
        intro k hk
        rw [← index_succ]
        exact hlabels (k + 1) (by simpa using hk)

private theorem exists_labelsFrom_iff {i : Int} {n : Nat} : (∃ texts, labelsFrom i n = .ok texts) ↔
    ∀ k : Nat, k < n → ∃ text, label (i + k) = .ok text := by
  constructor
  · rintro ⟨texts, h⟩ k hk
    obtain ⟨hlen, hlabels⟩ := labelsFrom_eq_ok_iff.mp h
    exact ⟨_, hlabels k (by omega)⟩
  · intro h
    induction n generalizing i with
    | zero => exact ⟨[], rfl⟩
    | succ n ih =>
      obtain ⟨head, hhead⟩ := h 0 (by omega)
      rw [Int.natCast_zero, Int.add_zero] at hhead
      have hrest : ∀ k : Nat, k < n → ∃ text, label (i + 1 + k) = .ok text := by
        intro k hk
        rw [← index_succ]
        exact h (k + 1) (by omega)
      obtain ⟨tail, htail⟩ := ih hrest
      exact ⟨head :: tail, labelsFrom_succ_of_ok hhead htail⟩

private theorem fault_of_labelsFrom {i : Int} {n : Nat} {fault : Fault}
    (h : labelsFrom i n = .error fault) : fault = .digitLimit := by
  induction n generalizing i with
  | zero => simp [labelsFrom] at h
  | succ n ih =>
    rcases bind_eq_error.mp h with hhead | ⟨head, _, h⟩
    · exact fault_of_label hhead
    · rcases bind_eq_error.mp h with htail | ⟨tail, _, h⟩
      · exact ih htail
      · simp [pure, Except.pure] at h

namespace Span

variable {s : Span} {texts : List String}

theorem label_of_getElem? (h : s.labels = .ok texts) {k : Nat} {text : String}
    (hk : texts[k]? = some text) : label (s.first + k) = .ok text := by
  obtain ⟨hlt, rfl⟩ := List.getElem?_eq_some_iff.mp hk
  exact (labelsFrom_eq_ok_iff.mp h).2 k hlt

theorem exists_label_of_mem (h : s.labels = .ok texts) {text : String} (hmem : text ∈ texts) :
    ∃ i, label i = .ok text := by
  obtain ⟨k, hk⟩ := List.getElem?_of_mem hmem
  exact ⟨_, label_of_getElem? h hk⟩

theorem length_of_labels (h : s.labels = .ok texts) : texts.length = s.size :=
  (labelsFrom_eq_ok_iff.mp h).1

theorem exists_mem_of_index (h : s.labels = .ok texts) {i : Int} (hfirst : s.first ≤ i)
    (hlast : i ≤ s.last) : ∃ text ∈ texts, label i = .ok text := by
  have hlength := length_of_labels h
  have hk : (i - s.first).toNat < texts.length := by
    unfold Span.size at hlength
    omega
  have hi : s.first + ((i - s.first).toNat : Int) = i := by omega
  have htext := label_of_getElem? h (List.getElem?_eq_getElem hk)
  rw [hi] at htext
  exact ⟨_, List.getElem_mem hk, htext⟩

theorem exists_labels_iff : (∃ texts, s.labels = .ok texts) ↔
    ∀ i, s.first ≤ i → i ≤ s.last → ∃ text, label i = .ok text := by
  constructor
  · rintro ⟨texts, h⟩ i hfirst hlast
    obtain ⟨text, _, htext⟩ := exists_mem_of_index h hfirst hlast
    exact ⟨text, htext⟩
  · intro h
    apply exists_labelsFrom_iff.mpr
    intro k hk
    unfold Span.size at hk
    exact h _ (by omega) (by omega)

/-- One index without a label leaves the whole span without any, and that is all that can. -/
theorem labels_eq_error_iff {fault : Fault} : s.labels = .error fault ↔
    fault = .digitLimit ∧ ∃ i, s.first ≤ i ∧ i ≤ s.last ∧ label i = .error .digitLimit := by
  constructor
  · intro h
    refine ⟨fault_of_labelsFrom h, ?_⟩
    by_contra hnone
    have hall : ∀ i, s.first ≤ i → i ≤ s.last → ∃ text, label i = .ok text := by
      intro i hfirst hlast
      cases htext : label i with
      | error f =>
        obtain rfl := fault_of_label htext
        exact absurd ⟨i, hfirst, hlast, htext⟩ hnone
      | ok text => exact ⟨text, rfl⟩
    obtain ⟨texts, htexts⟩ := exists_labels_iff.mpr hall
    rw [h] at htexts
    simp at htexts
  · rintro ⟨rfl, i, hfirst, hlast, hi⟩
    cases h : s.labels with
    | error f => rw [fault_of_labelsFrom h]
    | ok texts =>
      obtain ⟨text, htext⟩ := exists_labels_iff.mp ⟨texts, h⟩ i hfirst hlast
      rw [hi] at htext
      simp at htext

theorem standard_labels :
    ∃ texts, Span.standard.labels = .ok texts ∧ texts.length = 99 := by
  have hbound : 10 ^ 3 ≤ Decimal.bound := Decimal.ten_pow_le_bound (by decide)
  have hall : ∀ i, Span.standard.first ≤ i → i ≤ Span.standard.last →
      ∃ text, label i = .ok text := by
    intro i hfirst hlast
    change 1 ≤ i at hfirst
    change i ≤ 99 at hlast
    refine exists_label_iff.mpr (.inr (.inr ?_))
    unfold Decimal.Fits
    omega
  obtain ⟨texts, htexts⟩ := exists_labels_iff.mpr hall
  exact ⟨texts, htexts, length_of_labels htexts⟩

end Span

end CountingGame
