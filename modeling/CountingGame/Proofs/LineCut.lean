import CountingGame.Proofs.Numbering
/-!
# Lines cut at their first colon

No decimal text has a colon, so the first colon of a line is the one behind its position, whatever
the label holds. In front of it the position can be read, and what follows it is a space, the label
as it stands and a newline. Therefore a line tells its entry.
-/
namespace CountingGame

/-- What stands in front of the first colon of a text, and what follows it. -/
def cutAtColon? (text : String) : Option (String × String) :=
  match text.toList.dropWhile (· ≠ ':') with
  | [] => none
  | _ :: behind => some (String.ofList (text.toList.takeWhile (· ≠ ':')), String.ofList behind)

private theorem cutAtColon?_append {before : String} (h : ':' ∉ before.toList) (behind : String) :
    cutAtColon? (before ++ ":" ++ behind) = some (before, behind) := by
  have hbefore : ∀ c ∈ before.toList, decide (c ≠ ':') = true := by
    intro c hc
    exact decide_eq_true fun he => h (he ▸ hc)
  have hchars : (before ++ ":" ++ behind).toList = before.toList ++ ':' :: behind.toList := by simp
  have htake : (before.toList ++ ':' :: behind.toList).takeWhile (· ≠ ':') = before.toList := by
    rw [List.takeWhile_append_of_pos hbefore, List.takeWhile_cons_of_neg (by simp), List.append_nil]
  have hdrop : (before.toList ++ ':' :: behind.toList).dropWhile (· ≠ ':') =
      ':' :: behind.toList := by
    rw [List.dropWhile_append_of_pos hbefore, List.dropWhile_cons_of_neg (by simp)]
  simp only [cutAtColon?, hchars, htake, hdrop, String.ofList_toList]

namespace Entry

private theorem cutAtColon?_lineText (e : Entry) :
    cutAtColon? e.lineText = some (Decimal.text e.position, " " ++ e.label ++ "\n") := by
  have hparts : e.lineText = Decimal.text e.position ++ ":" ++ (" " ++ e.label ++ "\n") := by
    apply String.toList_inj.mp
    simp [lineText]
  rw [hparts]
  exact cutAtColon?_append (Decimal.not_mem_text (by decide) (by decide) e.position) _

private theorem label_injective {s t : String} (h : " " ++ s ++ "\n" = " " ++ t ++ "\n") :
    s = t := by
  have hchars := congrArg String.toList h
  apply String.toList_inj.mp
  simpa using hchars

theorem lineText_injective {e e' : Entry} (h : e.lineText = e'.lineText) : e = e' := by
  have hcut := congrArg cutAtColon? h
  rw [cutAtColon?_lineText, cutAtColon?_lineText, Option.some.injEq, Prod.mk.injEq] at hcut
  have hposition := Decimal.text_injective hcut.1
  have hlabel := label_injective hcut.2
  cases e
  cases e'
  rw [mk.injEq]
  exact ⟨hposition, hlabel⟩

/-- An entry has no line just when its position has too many digits. Any other line can be cut at
its first colon: in front of it the position is read, and behind it the label stands unchanged
between a space and a newline. So a line has one entry. -/
theorem line_cut_at_colon :
    (∀ e : Entry,
      (∀ fault, e.line = .error fault ↔
        10 ^ Decimal.digitLimit ≤ e.position.natAbs ∧ fault = .digitLimit) ∧
      (e.position.natAbs < 10 ^ Decimal.digitLimit → ∃ line position, e.line = .ok line ∧
        cutAtColon? line = some (position, " " ++ e.label ++ "\n") ∧
        Decimal.read? position = some e.position)) ∧
    Decimal.digitLimit = 4300 ∧
    ∀ (e e' : Entry) (line : String), e.line = .ok line → e'.line = .ok line → e = e' := by
  refine ⟨?_, rfl, ?_⟩
  · intro e
    rw [← Decimal.bound_eq_pow]
    constructor
    · intro fault
      rw [line_eq_error_iff, Decimal.Fits, Nat.not_lt]
    · intro hfits
      exact ⟨e.lineText, _, line_of_fits hfits, e.cutAtColon?_lineText, Decimal.read?_text _⟩
  · intro e e' line h h'
    apply lineText_injective
    rw [← eq_lineText_of_line h, ← eq_lineText_of_line h']

/-- A label with colons, newlines and fields of the template does not hide where its line is cut. -/
theorem line_cut_at_colon_misleading :
    (-7 : Int).natAbs < 10 ^ Decimal.digitLimit ∧
      ∃ line position, Entry.line ⟨-7, "2: x\n\x00{position}{{}}"⟩ = .ok line ∧
        cutAtColon? line = some (position, " 2: x\n\x00{position}{{}}\n") ∧
        Decimal.read? position = some (-7) ∧
        ∀ e, Entry.line e = .ok line → e = ⟨-7, "2: x\n\x00{position}{{}}"⟩ := by
  have hfits : (-7 : Int).natAbs < 10 ^ Decimal.digitLimit :=
    Decimal.lt_ten_pow_digitLimit 1 (by decide) (by decide)
  obtain ⟨line, position, hline, hcut, hread⟩ :=
    (line_cut_at_colon.1 ⟨-7, "2: x\n\x00{position}{{}}"⟩).2 hfits
  refine ⟨hfits, line, position, hline, hcut, hread, ?_⟩
  intro e he
  exact line_cut_at_colon.2.2 e _ line he hline

end Entry

end CountingGame
