/-!
# Slots

Values kept under names. Storing under a name that is in use replaces what was there.
-/
namespace CountingGame

/-- Values kept under names, each name at most once. -/
structure Slots (α : Type) where
  entries : List (String × α) := []
  nodup : (entries.map Prod.fst).Nodup := by simp

namespace Slots

variable {α : Type}

def get? (s : Slots α) (name : String) : Option α := s.entries.lookup name

private def without (entries : List (String × α)) (name : String) : List (String × α) :=
  entries.filter fun entry => entry.1 ≠ name

private theorem nodup_cons_without {entries : List (String × α)}
    (h : (entries.map Prod.fst).Nodup) (name : String) (value : α) :
    (((name, value) :: without entries name).map Prod.fst).Nodup := by
  have hrest : ((without entries name).map Prod.fst).Nodup :=
    h.sublist (List.filter_sublist.map Prod.fst)
  have hnew : name ∉ (without entries name).map Prod.fst := by
    intro hmem
    obtain ⟨entry, hentry, hname⟩ := List.mem_map.mp hmem
    exact of_decide_eq_true (List.mem_filter.mp hentry).2 hname
  exact List.nodup_cons.mpr ⟨hnew, hrest⟩

def set (s : Slots α) (name : String) (value : α) : Slots α :=
  ⟨(name, value) :: without s.entries name, nodup_cons_without s.nodup name value⟩

private theorem lookup_without (entries : List (String × α)) {name other : String}
    (h : other ≠ name) : (without entries name).lookup other = entries.lookup other := by
  unfold without
  induction entries with
  | nil => rfl
  | cons entry entries ih =>
    obtain ⟨key, value⟩ := entry
    by_cases hk : key = name
    · subst hk
      rw [List.filter_cons_of_neg (by simp), ih, List.lookup_cons]
      simp [beq_false_of_ne h]
    · rw [List.filter_cons_of_pos (by simpa using hk), List.lookup_cons, List.lookup_cons, ih]

@[simp] theorem get?_empty (name : String) : ({} : Slots α).get? name = none := rfl

theorem get?_set (s : Slots α) (name other : String) (value : α) :
    (s.set name value).get? other = if other = name then some value else s.get? other := by
  unfold get? set
  rw [List.lookup_cons]
  by_cases h : other = name
  · simp [h]
  · rw [beq_false_of_ne h, if_neg h]
    exact lookup_without s.entries h

end Slots
end CountingGame
