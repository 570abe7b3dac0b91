import InstanceMemory.Proofs.Actions
import InstanceMemory.Proofs.Simulator.SystemMemory
import InstanceMemory.Simulator.Translation

/-!
# What the translation maps

`t.Maps slots` says that a table maps the slots of a list and nothing else: a slot is the device
address of a page with the physical page behind it. The slots settle the table (`Maps.table_eq`).
Mapping one page adds a slot or is refused, and taking back a slot removes it; only mapping spends
the budget.
-/

set_option autoImplicit false

namespace InstanceMemory.Simulator.Translation

variable {t t' : Translation} {slots others : List (Nat × Nat)} {address page : Nat}

/-- A table that maps these slots and nothing else. -/
structure Maps (t : Translation) (slots : List (Nat × Nat)) : Prop where
  lookup : ∀ a p, t.table[a]? = some p ↔ (a, p) ∈ slots
  distinct : (slots.map Prod.fst).Nodup
  /-- Every slot is a page of device addresses with an end. -/
  paged : ∀ slot ∈ slots, slot.1 % pageSize = 0 ∧ slot.1 + pageSize < addressLimit

theorem pageOf_of_aligned (h : address % pageSize = 0) : pageOf address = address :=
  Nat.div_mul_cancel (Nat.dvd_of_mod_eq_zero h)

namespace Maps

theorem empty : Translation.empty.Maps [] := by
  refine ⟨?_, List.nodup_nil, fun _ h => absurd h List.not_mem_nil⟩
  intro a p
  simp only [Translation.empty, Std.ExtTreeMap.getElem?_empty, reduceCtorEq, List.not_mem_nil]

theorem perm (h : t.Maps slots) (hperm : slots.Perm others) : t.Maps others where
  lookup a p := (h.lookup a p).trans hperm.mem_iff
  distinct := (hperm.map Prod.fst).nodup_iff.mp h.distinct
  paged slot hs := h.paged slot (hperm.mem_iff.mpr hs)

/-- The slots settle the table. -/
theorem table_eq (h : t.Maps slots) (h' : t'.Maps slots) : t'.table = t.table := by
  refine Std.ExtTreeMap.ext_getElem? fun a => Option.ext ?_
  intro p
  exact (h'.lookup a p).trans (h.lookup a p).symm

/-- There are as many pages mapped as there are slots. -/
theorem mappedPages_eq (h : t.Maps slots) : t.mappedPages = slots.length := by
  have hnodup : t.table.toList.Nodup :=
    Std.ExtTreeMap.distinct_keys_toList.imp fun hne heq => hne (by simp only [heq, compare_eq_iff_eq])
  have hperm : t.table.toList.Perm slots := by
    apply (List.perm_ext_iff_of_nodup hnodup (List.Nodup.of_map _ h.distinct)).mpr
    rintro ⟨a, p⟩
    exact Std.ExtTreeMap.mem_toList_iff_getElem?_eq_some.trans (h.lookup a p)
  exact Std.ExtTreeMap.length_toList.symm.trans hperm.length_eq

/-- An address without a slot is not mapped. -/
theorem lookup_eq_none (h : t.Maps slots) :
    t.table[address]? = none ↔ address ∉ slots.map Prod.fst := by
  rw [Option.eq_none_iff_forall_not_mem]
  constructor
  · rintro hnone hmem
    obtain ⟨⟨a, p⟩, hslot, rfl⟩ := List.mem_map.mp hmem
    exact hnone p ((h.lookup a p).mpr hslot)
  · intro hmem p hp
    exact hmem (List.mem_map.mpr ⟨(address, p), (h.lookup address p).mp hp, rfl⟩)

/-- A new slot is added by an insertion. -/
theorem insert (h : t.Maps slots) (hnew : t.table[address]? = none)
    (hpaged : address % pageSize = 0 ∧ address + pageSize < addressLimit) (budget : Budget) :
    Translation.Maps ⟨t.table.insert address page, budget⟩ ((address, page) :: slots) where
  lookup a p := by
    simp only [Std.ExtTreeMap.getElem?_insert, List.mem_cons, Prod.mk.injEq, ← h.lookup,
      Nat.compare_eq_eq]
    by_cases heq : address = a
    · subst heq
      simp only [↓reduceIte, Option.some.injEq, true_and, hnew, reduceCtorEq, or_false, eq_comm]
    · have hne : a ≠ address := fun h => heq h.symm
      simp only [heq, hne, ↓reduceIte, false_and, false_or]
  distinct := List.nodup_cons.mpr ⟨h.lookup_eq_none.mp hnew, h.distinct⟩
  paged := List.forall_mem_cons.mpr ⟨hpaged, h.paged⟩

/-- A slot is removed by an erasure. -/
theorem erase (h : t.Maps ((address, page) :: slots)) (budget : Budget) :
    Translation.Maps ⟨t.table.erase address, budget⟩ slots where
  lookup a p := by
    have hnew := (List.nodup_cons.mp h.distinct).1
    have hlookup := h.lookup a p
    rw [List.mem_cons, Prod.mk.injEq] at hlookup
    simp only [Std.ExtTreeMap.getElem?_erase, Nat.compare_eq_eq]
    by_cases heq : address = a
    · subst heq
      have hno : (address, p) ∉ slots := fun hs => hnew (List.mem_map.mpr ⟨_, hs, rfl⟩)
      simp only [↓reduceIte, reduceCtorEq, hno]
    · have hne : a ≠ address := fun h => heq h.symm
      simp only [heq, ↓reduceIte, hlookup, hne, false_and, false_or]
  distinct := (List.nodup_cons.mp h.distinct).2
  paged := (List.forall_mem_cons.mp h.paged).2

/-! ## Mapping one page -/

theorem onTable_of_ok {α : Type} {act : EStateM Fault (Std.ExtTreeMap Nat Nat) α} {a : α}
    {table : Std.ExtTreeMap Nat Nat} (h : act t.table = .ok a table) :
    onTable act t = .ok a ⟨table, t.budget⟩ := by
  simp only [onTable, h]

theorem anyMapped_page (table : Std.ExtTreeMap Nat Nat) (haddress : address < addressLimit) :
    anyMapped table address 1 0 = .ok (table.contains address) := by
  have hadd : checkedAdd address (0 * pageSize) = .ok address := by
    rw [Nat.zero_mul]
    exact checkedAdd_of_lt haddress
  simp only [anyMapped, hadd, ok_bind]
  cases table.contains address <;> rfl

theorem mapFrom_page (table : Std.ExtTreeMap Nat Nat) (haddress : address < addressLimit)
    (hpage : page < addressLimit) :
    mapFrom address page 1 0 table = .ok () (table.insert address page) := by
  have hadd : ∀ n < addressLimit, checkedAdd n (0 * pageSize) = .ok n := by
    intro n hn
    rw [Nat.zero_mul]
    exact checkedAdd_of_lt hn
  unfold mapFrom
  rw [run_bind_of_ok (run_lift_of_ok (hadd address haddress) table),
    run_bind_of_ok (run_lift_of_ok (hadd page hpage) table), run_modify_bind]
  rfl

/-- **Mapping a page** is refused or adds its slot. -/
theorem map_page (h : t.Maps slots) (haddress : address + pageSize < addressLimit)
    (hpage : page < addressLimit) :
    (∃ cause t', t.map address page pageSize .readWrite = .ok (.error cause) t' ∧
        t'.Maps slots ∧ t.budget.Left t'.budget) ∨
      ∃ t', t.map address page pageSize .readWrite = .ok (.ok ()) t' ∧
        t'.Maps ((address, page) :: slots) ∧ t.budget.Left t'.budget := by
  unfold Translation.map
  by_cases hinvalid : pageSize = 0 ∨ pageSize % pageSize ≠ 0 ∨ address % pageSize ≠ 0 ∨
      Permissions.readWrite.isEmpty
  · rw [if_pos hinvalid]
    exact .inl ⟨.invalid, t, rfl, h, .refl _⟩
  · have haligned : address % pageSize = 0 := by
      by_contra hmis
      exact hinvalid (.inr (.inr (.inl hmis)))
    rw [if_neg hinvalid, run_get_bind]
    cases hspend : t.budget.spend? with
    | none => exact .inl ⟨.noMemory, t, rfl, h, .refl _⟩
    | some budget =>
      have hleft := Budget.Left.of_spend hspend
      have hsame : Translation.Maps ⟨t.table, budget⟩ slots := ⟨h.lookup, h.distinct, h.paged⟩
      have hpages : pageSize / pageSize = 1 := rfl
      dsimp only
      rw [run_modify_bind, hpages, run_get_bind,
        run_bind_of_ok (run_lift_of_ok (anyMapped_page t.table (by omega)) _)]
      by_cases hcontains : t.table.contains address = true
      · rw [if_pos hcontains]
        exact .inl ⟨.alreadyMapped, _, rfl, hsame, hleft⟩
      · have hnew : t.table[address]? = none := by
          rwa [Std.ExtTreeMap.contains_eq_isSome_getElem?, Bool.not_eq_true,
            Option.isSome_eq_false_iff, Option.isNone_iff_eq_none] at hcontains
        rw [if_neg hcontains]
        have hmap : mapFrom address page 1 0 t.table = _ := mapFrom_page t.table (by omega) hpage
        rw [run_bind_of_ok (onTable_of_ok (t := ⟨t.table, budget⟩) hmap)]
        exact .inr ⟨_, rfl, h.insert hnew ⟨haligned, haddress⟩ budget, hleft⟩

/-- **Taking back a slot** removes it. -/
theorem unmap_page (h : t.Maps ((address, page) :: slots)) :
    ∃ bytes t', t.unmap address pageSize = .ok bytes t' ∧ t'.Maps slots ∧ t'.budget = t.budget := by
  obtain ⟨haligned, hlimit⟩ := h.paged _ List.mem_cons_self
  have hadd : checkedAdd address pageSize = .ok (address + pageSize) := checkedAdd_of_lt hlimit
  have hcount : (address + pageSize - address + (pageSize - 1)) / pageSize = 1 := by
    rw [Nat.add_sub_cancel_left]
    rfl
  unfold Translation.unmap
  rw [run_bind_of_ok (run_lift_of_ok hadd t), pageOf_of_aligned haligned, hcount]
  have hunmap : unmapFrom 1 address 0 t.table =
      .ok (if t.table.contains address then 0 + pageSize else 0) (t.table.erase address) := by
    unfold unmapFrom
    rw [run_get_bind, run_modify_bind, run_bind_of_ok (run_lift_of_ok hadd _)]
    rfl
  exact ⟨_, _, onTable_of_ok hunmap, h.erase t.budget, rfl⟩

end Maps
end InstanceMemory.Simulator.Translation
