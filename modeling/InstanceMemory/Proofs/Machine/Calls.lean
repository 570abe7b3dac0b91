import InstanceMemory.Proofs.Machine.Holding
import InstanceMemory.Machine.Placement

/-!
# Taking and giving back

What each primitive action does to the items of an operation under way: a reservation, a page, a
buffer or a mapping is refused or adds one item, and giving an item back removes it. **None of them
faults**: what is given back is held, so nothing is noted of it, and every address in question has a
page of addresses behind it.
-/

set_option autoImplicit false

namespace InstanceMemory

open Simulator (Device Translation SystemMemory)

variable {base m : Machine Device} {items others : List Item} {id : SpaceId} {space : RangeSpace}

/-! ## The parts of a device -/

namespace Simulator.Device

variable {d : Device} {t t' : Translation} {memory : SystemMemory} {journal : Journal} {α : Type}

theorem onMemory_of_ok {act : SystemMemory → Except Fault (α × SystemMemory)} {a : α}
    (h : act d.memory = .ok (a, memory)) : onMemory act d = .ok a { d with memory } := by
  simp only [onMemory, h]

theorem onMemoryNoting_of_ok
    {act : SystemMemory → Journal → Except Fault (SystemMemory × Journal)} {after : Journal}
    (h : act d.memory journal = .ok (memory, after)) :
    onMemoryNoting act (d, journal) = .ok () ({ d with memory }, after) := by
  simp only [onMemoryNoting, h]

theorem onTranslation_of_some {absent a : α} {act : EStateM Fault Translation α}
    (ht : d.translation = some t) (h : act t = .ok a t') :
    onTranslation absent act d = .ok a { d with translation := some t' } := by
  simp only [onTranslation, ht, h]

theorem map_of_some {address physical size : Nat} {permissions : Permissions}
    {answer : Except Simulator.MappingRefusal Unit} (ht : d.translation = some t)
    (h : t.map address physical size permissions = .ok answer t') :
    map address physical size permissions d =
      .ok (answer.mapError Simulator.MappingRefusal.code) { d with translation := some t' } := by
  unfold map
  rw [run_bind_of_ok (onTranslation_of_some ht h)]
  rfl

theorem map_of_none (ht : d.translation = none) (address physical size : Nat)
    (permissions : Permissions) :
    map address physical size permissions d =
      .ok (.error Simulator.MappingRefusal.invalid.code) d := by
  have hact : onTranslation (.error Simulator.MappingRefusal.invalid)
      (Translation.map address physical size permissions) d = .ok (.error .invalid) d := by
    simp only [onTranslation, ht]
  unfold map
  rw [run_bind_of_ok hact]
  rfl

theorem unmap_of_some {address size bytes : Nat} (ht : d.translation = some t)
    (h : t.unmap address size = .ok bytes t') :
    unmap address size d = .ok bytes { d with translation := some t' } :=
  onTranslation_of_some ht h

end Simulator.Device

/-! ## The journal and the trace -/

namespace During

/-- A notice with a text is noted. -/
theorem note (h : During base items m) {n : Notice} {text : String} (hn : n.text = .ok text) :
    ∃ m', Action.note n m = .ok () m' ∧ During base items m' := by
  obtain ⟨journal, hjournal⟩ := Journal.note_of_text m.journal hn
  have hopen := Journal.isOpen_of_note hjournal
  refine ⟨{ m with journal }, ?_, ⟨?_, h.steady.pagesLeft, h.steady.mappingsLeft⟩, ?_, h.counts⟩
  · simp only [Action.note, hjournal]
  · have hframe := h.steady.frame
    simp only [Machine.frame, ← hopen] at hframe ⊢
    exact hframe
  · exact ⟨h.holding.silent, h.holding.memory, h.holding.translation, h.holding.untranslated,
      h.holding.spaces, h.holding.placed⟩

/-- A silent trace takes no calls. -/
theorem record (h : During base items m) (call : Call) : Action.record call m = .ok () m :=
  Action.record_of_silent h.holding.silent call

/-! ## Ranges -/

/-- A space in which other ranges are out takes the place of the one before it. -/
theorem setSpace (h : During base items m) (hid : m.Has id space) {next : RangeSpace}
    (hnext : next.Lends (Item.rangesIn id others)) (hemptied : next.emptied = space.emptied)
    (hranges : ∀ other, id ≠ other → Item.rangesIn other others = Item.rangesIn other items)
    (hpages : Item.pages others = Item.pages items)
    (hbuffers : Item.buffers others = Item.buffers items)
    (hslots : Item.slots others = Item.slots items) :
    During base others (m.setSpace id next) := by
  have hrest : (m.setSpace id next).hardware = m.hardware ∧
      (m.setSpace id next).trace = m.trace := by
    cases id <;> exact ⟨rfl, rfl⟩
  refine ⟨⟨?_, ?_, ?_⟩, ⟨?_, ?_, ?_, ?_, ?_, ?_⟩, (Machine.live_setSpace m id next).trans h.counts⟩
  · exact (Machine.frame_setSpace hid hemptied).trans h.steady.frame
  · rw [hrest.1]
    exact h.steady.pagesLeft
  · have hbudget : (m.setSpace id next).mappingBudget = m.mappingBudget := by
      simp only [Machine.mappingBudget, hrest.1]
    exact hbudget ▸ h.steady.mappingsLeft
  · rw [hrest.2]
    exact h.holding.silent
  · rw [hrest.1, hpages, hbuffers]
    exact h.holding.memory
  · rw [hrest.1, hslots]
    exact h.holding.translation
  · rw [hrest.1, hslots]
    exact h.holding.untranslated
  · intro other s hs
    by_cases hother : id = other
    · subst hother
      obtain rfl := hs.unique (hid.setSpace_self next)
      exact hnext
    · rw [hranges other hother]
      exact h.holding.spaces other s ((Machine.has_setSpace_of_ne hother).mp hs)
  · intro other hne
    by_cases hother : id = other
    · subst hother
      exact ⟨next, hid.setSpace_self next⟩
    · rw [hranges other hother] at hne
      obtain ⟨s, hs⟩ := h.holding.placed other hne
      exact ⟨s, (Machine.has_setSpace_of_ne hother).mpr hs⟩

/-- **A range is reserved or refused**, rounded up to pages. -/
theorem reserve (h : During base items m) (hid : m.Has id space) (size align : Nat) :
    (∃ cause, Action.reserve id size align m = .ok (.error cause) m) ∨
      ∃ range m', Action.reserve id size align m = .ok (.ok range) m' ∧
        During base (.range id range :: items) m' ∧ LeastMultiple size pageSize range.length := by
  unfold Action.reserve
  rw [run_get_bind, hid.space?]
  dsimp only
  rcases (h.holding.spaces id space hid).reserve size align with
    ⟨cause, hcause⟩ | ⟨range, next, hnext, hlends, hemptied, hleast⟩
  · rw [run_bind_of_ok (run_lift_of_ok hcause m)]
    dsimp only
    rw [run_bind_of_ok (h.record _)]
    exact .inl ⟨cause, rfl⟩
  · rw [run_bind_of_ok (run_lift_of_ok hnext m)]
    dsimp only
    have hset : During base (.range id range :: items) (m.setSpace id next) :=
      h.setSpace hid (Item.rangesIn_cons_self id range items ▸ hlends) hemptied
        (fun other hne => Item.rangesIn_cons_of_ne hne range items) rfl rfl rfl
    rw [run_modify_bind, run_bind_of_ok (hset.record _)]
    exact .inr ⟨range, m.setSpace id next, rfl, hset, hleast⟩

/-- **A range that is held is released.** -/
theorem release {range : AddressRange} (h : During base (.range id range :: items) m) :
    ∃ m', Action.release id range m = .ok () m' ∧ During base items m' := by
  have hranges := Item.rangesIn_cons_self id range items
  obtain ⟨space, hid⟩ := h.holding.placed id (hranges ▸ List.cons_ne_nil _ _)
  have hlends := h.holding.spaces id space hid
  rw [hranges] at hlends
  obtain ⟨next, hnext, hnextLends, hemptied⟩ := hlends.release m.journal
  have hset : During base items (m.setSpace id next) :=
    h.setSpace hid hnextLends hemptied
      (fun other hne => (Item.rangesIn_cons_of_ne hne range items).symm) rfl rfl rfl
  have hjournal : { m.setSpace id next with journal := m.journal } = m.setSpace id next := by
    cases id <;> rfl
  unfold Action.release
  rw [run_get_bind]
  dsimp only
  rw [hid.space?]
  dsimp only
  rw [run_bind_of_ok (run_lift_of_ok hnext m)]
  dsimp only
  rw [run_modify_bind, hjournal, hset.record]
  exact ⟨_, rfl, hset⟩

/-! ## System memory -/

/-- System memory of which other things are out takes the place of the one before it. -/
theorem setMemory (h : During base items m) {memory : SystemMemory}
    (hlends : memory.Lends (Item.pages others) (Item.buffers others))
    (hbare : memory.bare = m.hardware.memory.bare)
    (hleft : m.hardware.memory.pageBudget.Left memory.pageBudget)
    (hranges : ∀ other, Item.rangesIn other others = Item.rangesIn other items)
    (hslots : Item.slots others = Item.slots items) :
    During base others { m with hardware.memory := memory } := by
  refine ⟨⟨?_, h.steady.pagesLeft.trans hleft, h.steady.mappingsLeft⟩,
    ⟨h.holding.silent, hlends, ?_, ?_, ?_, ?_⟩, h.counts⟩
  · have hframe := h.steady.frame
    simp only [Machine.frame, ← hbare] at hframe ⊢
    exact hframe
  · rw [hslots]
    exact h.holding.translation
  · rw [hslots]
    exact h.holding.untranslated
  · intro other s hs
    rw [hranges other]
    exact h.holding.spaces other s hs
  · intro other hne
    rw [hranges other] at hne
    exact h.holding.placed other hne

/-- **A page is taken or refused.** -/
theorem allocPage (h : During base items m) :
    ∃ page m', Action.allocPage m = .ok page m' ∧
      During base (page.toList.map Item.page ++ items) m' := by
  obtain ⟨page, memory, hpage, hlends, hbare, hleft⟩ := h.holding.memory.allocPage
  have hset : During base (page.toList.map Item.page ++ items) { m with hardware.memory := memory } := by
    cases page <;> exact h.setMemory hlends hbare hleft (fun _ => rfl) rfl
  have hact : Action.onHardware Platform.allocPage m = .ok page _ :=
    Action.run_onHardware_of_ok (Device.onMemory_of_ok hpage)
  unfold Action.allocPage
  rw [run_bind_of_ok hact, run_bind_of_ok (hset.record _)]
  exact ⟨page, _, rfl, hset⟩

/-- **A page that is held is given back.** -/
theorem freePage {page : Nat} (h : During base (.page page :: items) m) :
    ∃ m', Action.freePage page m = .ok () m' ∧ During base items m' := by
  obtain ⟨memory, hpage, hlends, hbare, hbudget⟩ :=
    SystemMemory.Lends.freePage h.holding.memory m.journal
  have hset : During base items { m with hardware.memory := memory } :=
    h.setMemory hlends hbare (hbudget ▸ .refl _) (fun _ => rfl) rfl
  have hact : Action.onHardwareNoting (Platform.freePage page) m = .ok () _ :=
    Action.run_onHardwareNoting_of_ok (Device.onMemoryNoting_of_ok hpage)
  unfold Action.freePage
  rw [run_get_bind, run_bind_of_ok hact, hset.record]
  exact ⟨_, rfl, hset⟩

/-- **A buffer is taken or refused**, rounded up to pages. -/
theorem allocBuffer (h : During base items m) (size : Nat) :
    ∃ buffer m', Action.allocBuffer size m = .ok buffer m' ∧
      During base (buffer.toList.map Item.buffer ++ items) m' ∧
      ∀ b ∈ buffer, LeastMultiple size pageSize b.size := by
  obtain ⟨buffer, memory, hbuffer, hlends, hbare, hbudget, hleast⟩ :=
    h.holding.memory.allocBuffer size
  have hset : During base (buffer.toList.map Item.buffer ++ items)
      { m with hardware.memory := memory } := by
    cases buffer <;> exact h.setMemory hlends hbare (hbudget ▸ .refl _) (fun _ => rfl) rfl
  have hact : Action.onHardware (Platform.allocBuffer size .instanceMemory) m = .ok buffer _ :=
    Action.run_onHardware_of_ok (Device.onMemory_of_ok hbuffer)
  unfold Action.allocBuffer
  rw [run_bind_of_ok hact, run_bind_of_ok (hset.record _)]
  exact ⟨buffer, _, rfl, hset, hleast⟩

/-- **A buffer that is held is given back.** -/
theorem freeBuffer {buffer : Buffer} (h : During base (.buffer buffer :: items) m) :
    ∃ m', Action.freeBuffer buffer m = .ok () m' ∧ During base items m' := by
  obtain ⟨memory, hbuffer, hlends, hbare, hbudget⟩ :=
    SystemMemory.Lends.freeBuffer h.holding.memory m.journal
  have hset : During base items { m with hardware.memory := memory } :=
    h.setMemory hlends hbare (hbudget ▸ .refl _) (fun _ => rfl) rfl
  have hact : Action.onHardwareNoting (Platform.freeBuffer buffer .instanceMemory) m = .ok () _ :=
    Action.run_onHardwareNoting_of_ok (Device.onMemoryNoting_of_ok hbuffer)
  unfold Action.freeBuffer
  rw [run_bind_of_ok hact, hset.record]
  exact ⟨_, rfl, hset⟩

/-! ## The translation table -/

/-- A table that maps other slots takes the place of the one before it. -/
theorem setTranslation (h : During base items m) {t t' : Translation}
    (ht : m.hardware.translation = some t) (hmaps : t'.Maps (Item.slots others))
    (hleft : t.budget.Left t'.budget)
    (hranges : ∀ other, Item.rangesIn other others = Item.rangesIn other items)
    (hpages : Item.pages others = Item.pages items)
    (hbuffers : Item.buffers others = Item.buffers items) :
    During base others { m with hardware.translation := some t' } := by
  refine ⟨⟨?_, h.steady.pagesLeft, h.steady.mappingsLeft.trans ?_⟩,
    ⟨h.holding.silent, ?_, ?_, fun hnone => (by cases hnone), ?_, ?_⟩, h.counts⟩
  · have hframe := h.steady.frame
    simp only [Machine.frame, ht, Option.map_some] at hframe ⊢
    exact hframe
  · simpa only [Machine.mappingBudget, ht, Option.map_some, Option.getD_some] using hleft
  · rw [hpages, hbuffers]
    exact h.holding.memory
  · intro t'' ht''
    cases ht''
    exact hmaps
  · intro other s hs
    rw [hranges other]
    exact h.holding.spaces other s hs
  · intro other hne
    rw [hranges other] at hne
    exact h.holding.placed other hne

/-- **A page is mapped or refused.** -/
theorem mapPage (h : During base items m) {address page : Nat}
    (haddress : address + pageSize < addressLimit) (hpage : page < addressLimit) :
    (∃ code m', Action.mapPage address page m = .ok (.error code) m' ∧ During base items m') ∨
      ∃ m', Action.mapPage address page m = .ok (.ok ()) m' ∧
        During base (.slot address page :: items) m' := by
  unfold Action.mapPage
  cases ht : m.hardware.translation with
  | none =>
    have hact : Action.onHardware (Platform.map address page pageSize .readWrite) m = _ :=
      Action.run_onHardware_of_ok (Device.map_of_none ht address page pageSize .readWrite)
    rw [run_bind_of_ok hact, run_bind_of_ok (h.record _)]
    exact .inl ⟨_, m, rfl, h⟩
  | some t =>
    rcases (h.holding.translation t ht).map_page haddress hpage with
      ⟨cause, t', hmap, hmaps, hleft⟩ | ⟨t', hmap, hmaps, hleft⟩
    · have hset : During base items { m with hardware.translation := some t' } :=
        h.setTranslation ht hmaps hleft (fun _ => rfl) rfl rfl
      have hact : Action.onHardware (Platform.map address page pageSize .readWrite) m = _ :=
        Action.run_onHardware_of_ok (Device.map_of_some ht hmap)
      rw [run_bind_of_ok hact, run_bind_of_ok (hset.record _)]
      exact .inl ⟨_, _, rfl, hset⟩
    · have hset : During base (.slot address page :: items)
          { m with hardware.translation := some t' } :=
        h.setTranslation ht hmaps hleft (fun _ => rfl) rfl rfl
      have hact : Action.onHardware (Platform.map address page pageSize .readWrite) m = _ :=
        Action.run_onHardware_of_ok (Device.map_of_some ht hmap)
      rw [run_bind_of_ok hact, run_bind_of_ok (hset.record _)]
      exact .inr ⟨_, rfl, hset⟩

/-- **A slot that is held is taken back.** -/
theorem unmapPage {address page : Nat} (h : During base (.slot address page :: items) m) :
    ∃ m', Action.unmapPage address m = .ok () m' ∧ During base items m' := by
  cases ht : m.hardware.translation with
  | none => exact absurd (h.holding.untranslated ht) (List.cons_ne_nil _ _)
  | some t =>
    obtain ⟨bytes, t', hunmap, hmaps, hbudget⟩ :=
      Translation.Maps.unmap_page (h.holding.translation t ht)
    have hset : During base items { m with hardware.translation := some t' } :=
      h.setTranslation ht hmaps (hbudget ▸ .refl _) (fun _ => rfl) rfl rfl
    have hact : Action.onHardware (Platform.unmap address pageSize) m = .ok bytes _ :=
      Action.run_onHardware_of_ok (Device.unmap_of_some ht hunmap)
    unfold Action.unmapPage
    rw [run_get_bind, run_bind_of_ok hact, hset.record]
    exact ⟨_, rfl, hset⟩

end During
end InstanceMemory
