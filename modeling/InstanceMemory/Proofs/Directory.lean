import InstanceMemory.Directory
import Mathlib.Data.List.Perm.Basic

/-!
# Looking up, inserting and erasing

What a directory holds under a name. An insertion under a name that is free adds one entry, and an
erasure of a name that stands once takes its entry out; other names are looked up as before.
-/

set_option autoImplicit false

namespace InstanceMemory.Directory

variable {α : Type} {d : Directory α} {name other : String} {v : α}

theorem get?_cons (entry : String × α) (d : Directory α) (name : String) :
    get? (entry :: d) name = if name = entry.1 then some entry.2 else get? d name := by
  rw [get?, List.lookup_cons]
  by_cases h : name = entry.1
  · simp only [h, beq_self_eq_true, ↓reduceIte]
  · simp only [h, beq_eq_false_iff_ne.mpr h, ↓reduceIte]
    rfl

theorem mem_of_get? (h : get? d name = some v) : (name, v) ∈ d := by
  induction d with
  | nil => cases h
  | cons entry rest ih =>
    rw [get?_cons] at h
    split at h
    · rename_i hname
      obtain rfl := Option.some.inj h
      rw [hname]
      exact List.mem_cons_self
    · exact List.mem_cons_of_mem _ (ih h)

theorem get?_eq_none_iff : get? d name = none ↔ name ∉ d.map Prod.fst := by
  induction d with
  | nil => exact ⟨fun _ => List.not_mem_nil, fun _ => rfl⟩
  | cons entry rest ih =>
    rw [get?_cons, List.map_cons, List.mem_cons, not_or]
    split
    · rename_i hname
      exact ⟨fun h => (by cases h), fun h => absurd hname h.1⟩
    · rename_i hname
      rw [ih]
      exact ⟨fun h => ⟨hname, h⟩, fun h => h.2⟩

/-! ## Insertion -/

/-- A value under a free name is added and nothing else. -/
theorem insert_perm (h : name ∉ d.map Prod.fst) : (insert name v d).Perm ((name, v) :: d) := by
  induction d with
  | nil => exact List.Perm.refl _
  | cons entry rest ih =>
    obtain ⟨key, w⟩ := entry
    rw [List.map_cons, List.mem_cons, not_or] at h
    unfold insert
    split
    · exact List.Perm.refl _
    · rename_i hle
      split
      · exact ((ih h.2).cons (key, w)).trans (List.Perm.swap _ _ _)
      · rename_i hge
        exact absurd (String.le_antisymm (String.not_lt.mp hge) (String.not_lt.mp hle)) h.1

theorem mem_insert {entry : String × α} (h : entry ∈ insert name v d) :
    entry = (name, v) ∨ entry ∈ d := by
  induction d with
  | nil => exact .inl (List.mem_singleton.mp h)
  | cons first rest ih =>
    obtain ⟨key, w⟩ := first
    unfold insert at h
    split at h
    · exact List.mem_cons.mp h
    · split at h
      · rcases List.mem_cons.mp h with rfl | h
        · exact .inr List.mem_cons_self
        · exact (ih h).imp_right (List.mem_cons_of_mem _)
      · exact (List.mem_cons.mp h).imp_right (List.mem_cons_of_mem _)

/-- What is looked up after an insertion under a free name. -/
theorem get?_insert (h : name ∉ d.map Prod.fst) (v : α) (other : String) :
    get? (insert name v d) other = if other = name then some v else get? d other := by
  induction d with
  | nil => exact get?_cons _ _ _
  | cons entry rest ih =>
    obtain ⟨key, w⟩ := entry
    rw [List.map_cons, List.mem_cons, not_or] at h
    unfold insert
    split
    · exact get?_cons _ _ _
    · rename_i hle
      split
      · rw [get?_cons, get?_cons, ih h.2]
        by_cases hkey : other = key
        · have hname : other ≠ name := fun heq => h.1 (heq.symm.trans hkey)
          simp only [hkey, ↓reduceIte] at hname ⊢
          rw [if_neg hname]
        · simp only [hkey, ↓reduceIte]
      · rename_i hge
        exact absurd (String.le_antisymm (String.not_lt.mp hge) (String.not_lt.mp hle)) h.1

/-! ## Erasure -/

/-- A name that stands once is taken out with its value and nothing else. -/
theorem perm_erase (hnodup : (d.map Prod.fst).Nodup) (h : (name, v) ∈ d) :
    d.Perm ((name, v) :: erase name d) := by
  induction d with
  | nil => cases h
  | cons entry rest ih =>
    obtain ⟨hnew, hrest⟩ := List.nodup_cons.mp hnodup
    rcases List.mem_cons.mp h with rfl | h
    · have hkeep : erase name ((name, v) :: rest) = rest := by
        have hall : ∀ p ∈ rest, (p.1 != name) = true := fun p hp =>
          bne_iff_ne.mpr fun heq => hnew (heq ▸ List.mem_map.mpr ⟨p, hp, rfl⟩)
        simp only [erase, List.filter_cons, bne_self_eq_false, Bool.false_eq_true, ↓reduceIte]
        exact List.filter_eq_self.mpr hall
      rw [hkeep]
    · have hne : (entry.1 != name) = true :=
        bne_iff_ne.mpr fun heq => hnew (heq ▸ List.mem_map.mpr ⟨_, h, rfl⟩)
      have hcons : erase name (entry :: rest) = entry :: erase name rest := by
        simp only [erase, List.filter_cons, hne, ↓reduceIte]
      rw [hcons]
      exact ((ih hrest h).cons entry).trans (List.Perm.swap _ _ _)

theorem erase_sublist (name : String) (d : Directory α) : (erase name d).Sublist d :=
  List.filter_sublist

/-- There is nothing to take out where there is nothing. -/
theorem erase_of_get?_eq_none (h : get? d name = none) : erase name d = d := by
  rw [get?_eq_none_iff] at h
  apply List.filter_eq_self.mpr
  intro entry hentry
  exact bne_iff_ne.mpr fun heq => h (heq ▸ List.mem_map_of_mem hentry)

theorem get?_erase (name other : String) (d : Directory α) :
    get? (erase name d) other = if other = name then none else get? d other := by
  induction d with
  | nil => split <;> rfl
  | cons entry rest ih =>
    rw [get?_cons]
    by_cases hkeep : entry.1 = name
    · have hskip : erase name (entry :: rest) = erase name rest := by
        simp only [erase, List.filter_cons, hkeep, bne_self_eq_false, Bool.false_eq_true, ↓reduceIte]
      rw [hskip, ih, hkeep]
      split <;> rfl
    · have hcons : erase name (entry :: rest) = entry :: erase name rest := by
        simp only [erase, List.filter_cons, bne_iff_ne.mpr hkeep, ↓reduceIte]
      rw [hcons, get?_cons, ih]
      by_cases hother : other = entry.1
      · have hne : other ≠ name := fun heq => hkeep (hother.symm.trans heq)
        simp only [hother, ↓reduceIte] at hne ⊢
        rw [if_neg hne]
      · simp only [hother, ↓reduceIte]

end InstanceMemory.Directory
