import InstanceMemory.Proofs.Machine.Construction

/-!
# What a refused allocation changes

A machine in balance with the same objects before and after, of which nothing else changed, is the
same machine: the live objects settle the spaces, the translation table and the counts down to the
holes between what is taken. So an allocation that is refused has used up some of the budgets of its
device and noted something, and that is all (`Accounts.allocate_refused`).
-/

set_option autoImplicit false

namespace InstanceMemory

open Simulator (Device Budget SystemMemory)

namespace Machine

/-- The machine with other budgets and another journal. -/
def spending (m : Machine Device) (pages mappings : Budget) (journal : Journal) : Machine Device :=
  { m with
    hardware.memory.pageBudget := pages
    hardware.translation := m.hardware.translation.map ({ · with budget := mappings })
    journal }

end Machine

/-- A machine that has used up some of its budgets since another, has noted something, and is
otherwise the same. -/
def Spent (m m' : Machine Device) : Prop :=
  ∃ pages mappings journal, m' = m.spending pages mappings journal ∧
    m.hardware.memory.pageBudget.Left pages ∧ m.mappingBudget.Left mappings ∧
    journal.isOpen = m.journal.isOpen

variable {m m' : Machine Device} {roster : List (Option FirmwareObjects)}
  {live : List InstanceObject} {i : Nat}

theorem Spent.refl (m : Machine Device) : Spent m m := by
  refine ⟨m.hardware.memory.pageBudget, m.mappingBudget, m.journal, ?_, .refl _, .refl _, rfl⟩
  have hsame : m.hardware.translation.map ({ · with budget := m.mappingBudget }) =
      m.hardware.translation := by
    unfold Machine.mappingBudget
    cases m.hardware.translation <;> rfl
  rw [Machine.spending, hsame]

/-- Memory of which the same is taken differs at most in its page budget. -/
theorem Simulator.SystemMemory.Lends.eq {memory memory' : SystemMemory} {pages : List Nat}
    {buffers : List Buffer} (h : memory.Lends pages buffers) (h' : memory'.Lends pages buffers)
    (hbare : memory'.bare = memory.bare) :
    memory' = { memory with pageBudget := memory'.pageBudget } := by
  have hspace := h.space.eq h'.space (congrArg (·.space) hbare)
  have hpages := h'.livePages.trans h.livePages.symm
  have hbuffers := h'.liveBuffers.trans h.liveBuffers.symm
  obtain ⟨size, words, space, pageBudget, refusesBuffers, livePages, liveBuffers⟩ := memory
  obtain ⟨size', words', space', pageBudget', refusesBuffers', livePages', liveBuffers'⟩ := memory'
  simp only [SystemMemory.bare, SystemMemory.mk.injEq] at hbare
  simp only at hspace hpages hbuffers
  obtain ⟨rfl, rfl, -, -, rfl, -, -⟩ := hbare
  subst hspace hpages hbuffers
  rfl

/-- Backings with the same empty heap are the same if their heaps are. -/
theorem Backing.eq_of_emptied {b b' : Backing} (h : b'.emptied = b.emptied)
    (hheap : ∀ {space space' length length'}, b = .heap space length → b' = .heap space' length' →
      space'.emptied = space.emptied → space' = space) : b' = b := by
  cases b with
  | heap space length =>
    cases b' with
    | heap space' length' =>
      obtain ⟨hspaces, rfl⟩ := Backing.heap.inj h
      rw [hheap rfl rfl hspaces]
    | iommu => cases h
    | dma => cases h
  | iommu => cases b' <;> first | rfl | cases h
  | dma => cases b' <;> first | rfl | cases h

namespace Accounts

/-- The live objects settle the records of the controllers. -/
theorem controllers_eq (h : Accounts roster live m) (h' : Accounts roster live m')
    (hframe : m'.frame = m.frame) : m'.controllers = m.controllers := by
  apply List.ext_getElem?
  intro j
  have hframes : (m'.controllers[j]?).map (·.frame) = (m.controllers[j]?).map (·.frame) := by
    have hj := congrArg (·.controllers[j]?) hframe
    simpa only [Machine.frame, List.getElem?_map] using hj
  cases hc : m.controllers[j]? with
  | none =>
    rw [hc, Option.map_none, Option.map_eq_none_iff] at hframes
    exact hframes
  | some c =>
    rw [hc, Option.map_some, Option.map_eq_some_iff] at hframes
    obtain ⟨c', hc', hsame⟩ := hframes
    have hlive : c'.live = c.live := (h'.counted j c' hc').trans (h.counted j c hc).symm
    have hbacking : c'.backing = c.backing := by
      refine Backing.eq_of_emptied (congrArg (·.backing) hsame) fun hb hb' hspaces => ?_
      have hlends := h.holding.spaces (.heap j) _ ⟨c, _, hc, hb⟩
      exact hlends.eq (h'.holding.spaces (.heap j) _ ⟨c', _, hc', hb'⟩) hspaces
    rw [hc']
    obtain ⟨chipset, backing, window, phase, live, layout, firmware, isPresent⟩ := c
    obtain ⟨chipset', backing', window', phase', live', layout', firmware', isPresent'⟩ := c'
    simp only [Controller.frame, Controller.mk.injEq] at hsame
    simp only at hlive hbacking
    obtain ⟨rfl, -, rfl, rfl, -, rfl, rfl, rfl⟩ := hsame
    subst hlive hbacking
    rfl

/-- **The live objects settle the machine.** -/
theorem spent (h : Accounts roster live m) (h' : Accounts roster live m') (hsteady : Steady m m') :
    Spent m m' := by
  have hcontrollers := h.controllers_eq h' hsteady.frame
  have hmemory := h.holding.memory.eq h'.holding.memory
    (congrArg (·.hardware.memory) hsteady.frame)
  have hshared : m'.shared = m.shared := by
    have hemptied := congrArg (·.shared) hsteady.frame
    simp only [Machine.frame] at hemptied
    cases hs : m.shared with
    | none =>
      rw [hs] at hemptied
      exact Option.map_eq_none_iff.mp hemptied
    | some space =>
      rw [hs, Option.map_some, Option.map_eq_some_iff] at hemptied
      obtain ⟨space', hs', hspaces⟩ := hemptied
      have hlends := h.holding.spaces .shared space hs
      rw [hs', hlends.eq (h'.holding.spaces .shared space' hs') hspaces]
  have htranslation : m'.hardware.translation =
      m.hardware.translation.map ({ · with budget := m'.mappingBudget }) := by
    have hempty := congrArg (·.hardware.translation) hsteady.frame
    simp only [Machine.frame] at hempty
    cases ht : m.hardware.translation with
    | none =>
      rw [ht] at hempty
      exact Option.map_eq_none_iff.mp hempty
    | some t =>
      rw [ht, Option.map_some, Option.map_eq_some_iff] at hempty
      obtain ⟨t', ht', -⟩ := hempty
      have htable := (h.holding.translation t ht).table_eq (h'.holding.translation t' ht')
      simp only [Machine.mappingBudget, ht', Option.map_some, Option.getD_some, ← htable]
  have hopen : m'.journal.isOpen = m.journal.isOpen := congrArg (·.journal.isOpen) hsteady.frame
  refine ⟨m'.hardware.memory.pageBudget, m'.mappingBudget, m'.journal, ?_, hsteady.pagesLeft,
    hsteady.mappingsLeft, hopen⟩
  have hframe := hsteady.frame
  obtain ⟨⟨config, window, windowWrites, registers, vram, memory, translation, refusesBars⟩,
    shared, controllers, interrupt, journal, trace⟩ := m
  obtain ⟨⟨config', window', windowWrites', registers', vram', memory', translation', refusesBars'⟩,
    shared', controllers', interrupt', journal', trace'⟩ := m'
  simp only [Machine.frame, Machine.mk.injEq, Device.mk.injEq] at hframe
  obtain ⟨⟨rfl, rfl, rfl, rfl, rfl, -, -, rfl⟩, -, -, rfl, -, rfl⟩ := hframe
  simp only at hcontrollers hmemory hshared htranslation
  subst hcontrollers hshared
  simp only [Machine.spending, Machine.mk.injEq, Device.mk.injEq, true_and, and_true]
  exact ⟨hmemory, htranslation⟩

theorem make_refused (h : Accounts roster live m) (hi : i < roster.length) {size align : Nat}
    {zeroed : Bool} {cause : Error}
    (hact : Action.make i size align zeroed m = .ok (.error cause) m') : Spent m m' := by
  unfold Action.make at hact
  rcases h.place hi size align with
    ⟨cause', m₁, hcause, hsteady, h₁⟩ | ⟨object, m₁, hobject, hsteady, h₁, -⟩
  · rw [run_bind_of_ok hcause] at hact
    cases hact
    exact h.spent h₁ hsteady
  · -- what was placed is answered, unless zeroing it faults
    rw [run_bind_of_ok hobject] at hact
    dsimp only at hact
    by_cases hz : zeroed = true
    · rw [if_pos hz] at hact
      cases hfill : Action.orUndo (Action.fill object 0) (Action.free object) m₁ with
      | ok a m₂ =>
        rw [run_bind_of_ok hfill] at hact
        cases hact
      | error f m₂ =>
        rw [run_bind_of_error hfill] at hact
        cases hact
    · rw [if_neg hz] at hact
      cases hact

/-- **A refused allocation has changed nothing but budgets and notes.** -/
theorem allocate_refused (h : Accounts roster live m) (hi : i < roster.length) {size align : Nat}
    {zeroed : Bool} {cause : Error}
    (hact : Action.allocate i size align zeroed m = .ok (.error cause) m') : Spent m m' := by
  unfold Action.allocate at hact
  rw [run_get_bind] at hact
  cases hphase : (m.controller i).phase with
  | suspended =>
    rw [hphase] at hact
    cases hact
    exact .refl m
  | constructed =>
    rw [hphase] at hact
    exact h.make_refused hi hact
  | initialized =>
    rw [hphase] at hact
    exact h.make_refused hi hact

end Accounts
end InstanceMemory
