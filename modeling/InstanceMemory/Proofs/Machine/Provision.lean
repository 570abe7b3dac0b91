import InstanceMemory.Proofs.Machine.Accounts
import InstanceMemory.Proofs.Machine.Owing
import InstanceMemory.Proofs.RangeSpace.Room

/-!
# When there is room for an object

`Served m i size align strategy answer` says what comes of a request for whole pages, in terms of what
is free on the machine before it: an object is made where the resources for it are there, and refused
with the error that names what is missing where they are not. Behind the IOMMU three things can be
missing, and they are looked for in this order: the space as a whole, the pages, the range. Only what
a device was told to refuse is refused for no such reason.

**Every placement is served so** (`Accounts.place_served`). Behind the IOMMU the pages are taken one by
one from whatever holes there are, so that many can be taken as there are in all of them
(`During.takePages_room`); and a slot of a new range is never mapped already, because what is mapped
lies in ranges that are out (`Holding.not_holds`).
-/

set_option autoImplicit false

namespace InstanceMemory

open Simulator (Device SystemMemory Translation Budget)

variable {base m m' : Machine Device} {items : List Item} {space : RangeSpace} {range r : AddressRange}
  {id : SpaceId}

/-- How much of system memory is free. -/
def Machine.freeMemory (m : Machine Device) : Nat := m.hardware.memory.space.freeBytes

/-- What comes of a request for whole pages. -/
inductive Served (m : Machine Device) (i size align : Nat) :
    Strategy → Except Error InstanceObject → Prop
  | inHeap {space : RangeSpace} {range : AddressRange} (hid : m.Has (.heap i) space)
      (hstart : Vacant space.bounds space.allocated size align range.base) :
      Served m i size align .heap (.ok ⟨i, range.base, size, false, .heap range⟩)
  | heapFull {space : RangeSpace} (hid : m.Has (.heap i) space) (hno : ¬ space.HasRoom size align) :
      Served m i size align .heap (.error (.outOfAddressSpace size align))
  | inBuffer {buffer : Buffer} (misaligned : Bool)
      (hstart : Vacant m.hardware.memory.space.bounds m.hardware.memory.space.allocated size
        pageSize buffer.handle)
      (hmisaligned : misaligned = true ↔ ¬ align ∣ buffer.handle) :
      Served m i size align .dma (.ok ⟨i, buffer.handle, size, misaligned, .dma buffer⟩)
  | noBuffer (hno : m.hardware.memory.refusesBuffers = false →
        ¬ m.hardware.memory.space.HasRoom size pageSize) :
      Served m i size align .dma (.error .outOfMemory)
  | behindIommu {space : RangeSpace} {range : AddressRange} (pages : List Nat)
      (hid : m.Has .shared space) (hcapacity : size ≤ space.capacity) (hmemory : size ≤ m.freeMemory)
      (hstart : Vacant space.bounds space.allocated size align range.base) :
      Served m i size align .iommu
        (.ok ⟨i, setResolveBit range.base, size, false, .iommu range pages⟩)
  | beyondSpace {space : RangeSpace} (hid : m.Has .shared space) (hcapacity : space.capacity < size) :
      Served m i size align .iommu (.error (.outOfAddressSpace size align))
  | noPages {space : RangeSpace} (hid : m.Has .shared space) (hcapacity : size ≤ space.capacity)
      (hmemory : m.hardware.memory.pageBudget = none → m.freeMemory < size) :
      Served m i size align .iommu (.error .outOfMemory)
  | spaceFull {space : RangeSpace} (hid : m.Has .shared space) (hcapacity : size ≤ space.capacity)
      (hmemory : size ≤ m.freeMemory) (hno : ¬ space.HasRoom size align) :
      Served m i size align .iommu (.error (.outOfAddressSpace size align))
  /-- Only a device that was told to refuse mappings refuses one. -/
  | mappingRefused (cause : Error) (hbudget : m.mappingBudget ≠ none) :
      Served m i size align .iommu (.error cause)

/-- What is noted does not matter. -/
theorem Served.of_journal {i size align : Nat} {strategy : Strategy} {journal : Journal}
    {answer : Except Error InstanceObject}
    (h : Served { m with journal } i size align strategy answer) :
    Served m i size align strategy answer := by
  cases h with
  | inHeap hid hstart => exact .inHeap hid hstart
  | heapFull hid hno => exact .heapFull hid hno
  | inBuffer misaligned hstart hmisaligned => exact .inBuffer misaligned hstart hmisaligned
  | noBuffer hno => exact .noBuffer hno
  | behindIommu pages hid hcapacity hmemory hstart =>
    exact .behindIommu pages hid hcapacity hmemory hstart
  | beyondSpace hid hcapacity => exact .beyondSpace hid hcapacity
  | noPages hid hcapacity hmemory => exact .noPages hid hcapacity hmemory
  | spaceFull hid hcapacity hmemory hno => exact .spaceFull hid hcapacity hmemory hno
  | mappingRefused cause hbudget => exact .mappingRefused cause hbudget

/-! ## Ranges and slots -/

theorem Item.backed_flatMap {live : List InstanceObject} (h : ∀ o ∈ live, Item.Backed o.items) :
    Item.Backed (live.flatMap (·.items)) := by
  induction live with
  | nil => exact Item.backed_of_slots_eq_nil rfl
  | cons o rest ih =>
    obtain ⟨hfirst, hrest⟩ := List.forall_mem_cons.mp h
    exact hfirst.append (ih hrest)

/-- A slot that is found among items is one of them. -/
theorem Item.slot_mem_of_mem_slots {slot : Nat × Nat} (h : slot ∈ Item.slots items) :
    .slot slot.1 slot.2 ∈ items := by
  obtain ⟨item, hitem, hslot⟩ := List.mem_filterMap.mp h
  cases item with
  | slot address page =>
    obtain rfl := Option.some.inj hslot
    exact hitem
  | _ => cases hslot

namespace Holding

/-- A range that is held shares no address with another one of its space. -/
theorem not_holds {x : Nat} (h : Holding (.range id range :: items) m) (hr : .range id r ∈ items)
    (hx : range.Holds x) : ¬ r.Holds x := by
  intro hrx
  have hranges := Item.rangesIn_cons_self id range items
  obtain ⟨space, hid⟩ := h.placed id (hranges ▸ List.cons_ne_nil _ _)
  have hlends := h.spaces id space hid
  rw [hranges] at hlends
  have hmem : r ∈ Item.rangesIn id items := Item.mem_rangesIn hr
  obtain rfl := hlends.eq_of_holds (List.mem_cons_of_mem _ hmem) List.mem_cons_self hrx hx
  exact (List.nodup_cons.mp hlends.nodup).1 hmem

/-- **The next slot of a new range is not mapped**: what others mapped lies in ranges of theirs. -/
theorem next_slot_not_mem {taken mapped : List Nat} {address : Nat}
    (h : Holding (Item.slotsFrom range.base mapped ++
      .range .shared range :: (taken.map Item.page ++ items)) m)
    (hbacked : Item.Backed items) (haddress : address = range.base + mapped.length * pageSize)
    (hlimit : address < range.limit) (page : Nat) :
    .slot address page ∉ Item.slotsFrom range.base mapped ++
      .range .shared range :: (taken.map Item.page ++ items) := by
  intro hslot
  rcases List.mem_append.mp hslot with hslot | hslot
  · -- the slots of the range before this one
    have hmem : (address, page) ∈ Item.slots (Item.slotsFrom range.base mapped) :=
      List.mem_filterMap.mpr ⟨_, hslot, rfl⟩
    obtain ⟨j, hj, heq⟩ := Item.mem_slots_slotsFrom.mp hmem
    obtain ⟨hlt, -⟩ := List.getElem?_eq_some_iff.mp hj
    have hbefore : (j + 1) * pageSize ≤ mapped.length * pageSize := Nat.mul_le_mul_right _ hlt
    rw [Nat.succ_mul] at hbefore
    unfold pageSize at *
    omega
  · simp only [List.mem_cons, reduceCtorEq, List.mem_append, List.mem_map, and_false, exists_false,
      false_or] at hslot
    obtain ⟨-, other, hother, hbase, hstop⟩ := hbacked address page hslot
    have hclear := (h.perm List.perm_middle).not_holds (r := other) (x := address)
      (List.mem_append_right _ (List.mem_append_right _ hother)) ⟨by omega, hlimit⟩
    exact hclear ⟨hbase, by unfold pageSize at hstop; omega⟩

end Holding

/-! ## One step -/

/-- For a power of two the test of the lowest bits is the divisibility test. -/
theorem isAligned_of_isPowerOfTwo (value : Nat) {align : Nat} (h : align.isPowerOfTwo) :
    isAligned value align = .ok (decide (align ∣ value)) := by
  obtain ⟨k, rfl⟩ := h
  have hpos : 1 ≤ 2 ^ k := Nat.two_pow_pos k
  have hbits : (value &&& (2 ^ k - 1) == 0) = decide (2 ^ k ∣ value) := by
    rw [Nat.and_two_pow_sub_one_eq_mod, Bool.eq_iff_iff, beq_iff_eq, decide_eq_true_iff,
      Nat.dvd_iff_mod_eq_zero]
  unfold isAligned
  rw [checkedSub_of_le hpos, ok_bind, ← hbits]
  rfl

namespace Simulator

theorem Budget.Left.eq_none {after : Budget} (h : Budget.Left none after) : after = none := by
  cases h
  rfl

/-- A page that is not mapped is mapped. -/
theorem Translation.Maps.map_page_of_unmapped {t : Translation} {slots : List (Nat × Nat)}
    {address page : Nat} (h : t.Maps slots) (hbudget : t.budget = none)
    (haligned : pageSize ∣ address) (hlimit : address + pageSize < addressLimit)
    (hpage : page < addressLimit) (hnew : address ∉ slots.map Prod.fst) :
    t.map address page pageSize .readWrite = .ok (.ok ()) ⟨t.table.insert address page, none⟩ := by
  have hvalid : ¬ (pageSize = 0 ∨ pageSize % pageSize ≠ 0 ∨ address % pageSize ≠ 0 ∨
      Permissions.readWrite.isEmpty) := by
    rw [Nat.mod_eq_zero_of_dvd haligned]
    decide
  have hspend : t.budget.spend? = some none := by
    rw [hbudget]
    rfl
  have hpages : pageSize / pageSize = 1 := rfl
  have hcontains : ¬ t.table.contains address = true := by
    rw [Std.ExtTreeMap.contains_eq_isSome_getElem?, h.lookup_eq_none.mpr hnew]
    exact Bool.false_ne_true
  have hmap : Translation.mapFrom address page 1 0 t.table = _ :=
    Translation.Maps.mapFrom_page t.table (by omega) hpage
  unfold Translation.map
  rw [if_neg hvalid, run_get_bind, hspend]
  dsimp only
  rw [run_modify_bind, hpages, run_get_bind,
    run_bind_of_ok (run_lift_of_ok (Translation.Maps.anyMapped_page t.table (by omega)) _),
    if_neg hcontains, run_bind_of_ok (Translation.Maps.onTable_of_ok (t := ⟨t.table, none⟩) hmap)]
  rfl

/-- Where anything is free, and nothing is to be refused, a page is taken. -/
theorem SystemMemory.Lends.allocPage_of_free {memory : SystemMemory} {pages : List Nat}
    {buffers : List Buffer} (h : memory.Lends pages buffers) (hbudget : memory.pageBudget = none)
    (hfree : 0 < memory.space.freeBytes) :
    ∃ page after, memory.allocPage = .ok (some page, after) := by
  have hspend : memory.pageBudget.spend? = some none := by
    rw [hbudget]
    rfl
  unfold SystemMemory.allocPage
  rw [hspend]
  dsimp only
  rcases h.space.reserve_vacant (by decide) (Nat.dvd_refl pageSize) pageSize ⟨pageBits, rfl⟩ with
    ⟨start, next, hok, -⟩ | ⟨-, hno⟩
  · rw [hok, ok_bind]
    exact ⟨_, _, rfl⟩
  · exact absurd (h.space.hasRoom_page hfree) hno

/-- A buffer of whole pages is made at a vacant start, or there is no room for it. -/
theorem SystemMemory.Lends.allocBuffer_vacant {memory : SystemMemory} {pages : List Nat}
    {buffers : List Buffer} {size : Nat} (h : memory.Lends pages buffers) (hsize : 0 < size)
    (hpaged : pageSize ∣ size) :
    (∃ buffer after, memory.allocBuffer size = .ok (some buffer, after) ∧
        Vacant memory.space.bounds memory.space.allocated size pageSize buffer.handle) ∨
      ∃ after, memory.allocBuffer size = .ok (none, after) ∧
        (memory.refusesBuffers = false → ¬ memory.space.HasRoom size pageSize) := by
  unfold SystemMemory.allocBuffer
  by_cases hrefuses : memory.refusesBuffers = true
  · rw [if_pos hrefuses]
    refine .inr ⟨memory, rfl, fun hserves => ?_⟩
    rw [hserves] at hrefuses
    cases hrefuses
  · rw [if_neg hrefuses]
    rcases h.space.reserve_vacant hsize hpaged pageSize ⟨pageBits, rfl⟩ with
      ⟨start, next, hok, hstart⟩ | ⟨herror, hno⟩
    · rw [hok, ok_bind]
      exact .inl ⟨⟨start, size⟩, _, rfl, hstart⟩
    · rw [herror, ok_bind]
      exact .inr ⟨memory, rfl, fun _ => hno⟩

end Simulator

namespace Action

theorem allocPage_of_ok {page : Option Nat} {memory : SystemMemory}
    (hsilent : m.trace.isRecording = false)
    (h : m.hardware.memory.allocPage = .ok (page, memory)) :
    allocPage m = .ok page { m with hardware.memory := memory } := by
  have hact : onHardware Platform.allocPage m = .ok page _ :=
    run_onHardware_of_ok (Device.onMemory_of_ok h)
  unfold allocPage
  rw [run_bind_of_ok hact]
  exact run_bind_of_ok (record_of_silent (m := { m with hardware.memory := memory }) hsilent _) _

theorem allocBuffer_of_ok {size : Nat} {buffer : Option Buffer} {memory : SystemMemory}
    (hsilent : m.trace.isRecording = false)
    (h : m.hardware.memory.allocBuffer size = .ok (buffer, memory)) :
    allocBuffer size m = .ok buffer { m with hardware.memory := memory } := by
  have hact : onHardware (Platform.allocBuffer size .instanceMemory) m = .ok buffer _ :=
    run_onHardware_of_ok (Device.onMemory_of_ok h)
  unfold allocBuffer
  rw [run_bind_of_ok hact]
  exact run_bind_of_ok (record_of_silent (m := { m with hardware.memory := memory }) hsilent _) _

theorem mapPage_of_ok {address page : Nat} {t t' : Translation}
    (hsilent : m.trace.isRecording = false) (ht : m.hardware.translation = some t)
    (h : t.map address page pageSize .readWrite = .ok (.ok ()) t') :
    mapPage address page m = .ok (.ok ()) { m with hardware.translation := some t' } := by
  have hact : onHardware (Platform.map address page pageSize .readWrite) m = .ok (.ok ()) _ :=
    run_onHardware_of_ok (Device.map_of_some ht h)
  unfold mapPage
  rw [run_bind_of_ok hact]
  exact run_bind_of_ok (record_of_silent (m := { m with hardware.translation := some t' }) hsilent _) _

/-- **A range of whole pages is reserved** at a vacant start, or there is no room for it. -/
theorem reserve_vacant {size align : Nat} {ranges : List AddressRange}
    (hsilent : m.trace.isRecording = false) (hid : m.Has id space) (hlends : space.Lends ranges)
    (hsize : 0 < size) (hpaged : pageSize ∣ size) (hpow : align.isPowerOfTwo)
    (halign : pageSize ≤ align) :
    (∃ range m', reserve id size align m = .ok (.ok range) m' ∧ range.length = size ∧
        Vacant space.bounds space.allocated size align range.base) ∨
      reserve id size align m = .ok (.error (.outOfAddressSpace size align)) m ∧
        ¬ space.HasRoom size align := by
  have hmax : max align pageSize = align := Nat.max_eq_left halign
  have hvacant := hlends.reserve_vacant hsize hpaged align (hmax.symm ▸ hpow)
  rw [hmax] at hvacant
  unfold reserve
  rw [run_get_bind, hid.space?]
  dsimp only
  rcases hvacant with ⟨start, next, hok, hstart⟩ | ⟨herror, hno⟩
  · rw [run_bind_of_ok (run_lift_of_ok hok m)]
    dsimp only
    have htrace : (m.setSpace id next).trace = m.trace := by
      cases id <;> rfl
    rw [run_modify_bind, run_bind_of_ok (record_of_silent (htrace ▸ hsilent) _)]
    exact .inl ⟨⟨start, size⟩, _, rfl, rfl, hstart⟩
  · rw [run_bind_of_ok (run_lift_of_ok herror m)]
    dsimp only
    rw [run_bind_of_ok (record_of_silent hsilent _)]
    exact .inr ⟨rfl, hno⟩

end Action

/-! ## The loops behind the IOMMU -/

/-- A table that permits every mapping goes on doing so. -/
theorem Steady.exists_translation (h : Steady base m)
    (htranslation : base.hardware.translation.isSome) (hbudget : base.mappingBudget = none) :
    ∃ t, m.hardware.translation = some t ∧ t.budget = none := by
  have hsome : m.hardware.translation.isSome = base.hardware.translation.isSome := by
    have hframe := congrArg (·.hardware.translation.isSome) h.frame
    simpa only [Machine.frame, Option.isSome_map] using hframe
  obtain ⟨t, ht⟩ := Option.isSome_iff_exists.mp (hsome.trans htranslation)
  have hleft := h.mappingsLeft
  rw [hbudget] at hleft
  refine ⟨t, ht, ?_⟩
  simpa only [Machine.mappingBudget, ht, Option.map_some, Option.getD_some] using hleft.eq_none

namespace During

/-- What is taken of system memory is no longer free. -/
theorem freeMemory_of_page {page : Nat} (h : During base items m)
    (h' : During base (.page page :: items) m') : m'.freeMemory + pageSize = m.freeMemory := by
  have hframe := h'.steady.frame.trans h.steady.frame.symm
  exact h.holding.memory.space.freeBytes_of_cons h'.holding.memory.space
    (congrArg (·.hardware.memory.space) hframe)

/-- **As many pages can be taken as there are free**, unless the device was told to refuse one. -/
theorem takePages_room (count more : Nat) {taken : List Nat}
    (h : During base (taken.map Item.page ++ items) m) :
    (∃ m', Action.takePages count more taken m = .ok none m' ∧
        (base.hardware.memory.pageBudget = none → m.freeMemory < more * pageSize)) ∨
      ∃ all m', Action.takePages count more taken m = .ok (some all) m' ∧
        During base (all.map Item.page ++ items) m' ∧ all.length = taken.length + more ∧
        more * pageSize ≤ m.freeMemory := by
  induction more generalizing m taken with
  | zero => exact .inr ⟨taken, m, rfl, h, rfl, (Nat.zero_mul pageSize).symm ▸ Nat.zero_le _⟩
  | succ more ih =>
    obtain ⟨page, m₁, hpage, h₁⟩ := h.allocPage
    unfold Action.takePages
    rw [run_bind_of_ok (Action.run_orUndo_of_ok hpage _), Nat.succ_mul]
    cases page with
    | some page =>
      have htaken : During base ((page :: taken).map Item.page ++ items) m₁ := h₁
      have hfree := h.freeMemory_of_page htaken
      rcases ih htaken with ⟨m₂, hnone, hlack⟩ | ⟨all, m₂, hsome, h₂, hlength, hroom⟩
      · refine .inl ⟨m₂, hnone, fun hbudget => ?_⟩
        have := hlack hbudget
        omega
      · rw [List.length_cons] at hlength
        exact .inr ⟨all, m₂, hsome, h₂, by omega, by omega⟩
    | none =>
      have htaken : During base (taken.map Item.page ++ items) m₁ := h₁
      obtain ⟨m₂, hnote, h₂⟩ := htaken.note (n := .pageRefused taken.length count) rfl
      obtain ⟨m₃, hfree, h₃⟩ := h₂.freePages
      dsimp only
      rw [run_bind_of_ok hnote, run_bind_of_ok hfree]
      refine .inl ⟨m₃, rfl, fun hbudget => ?_⟩
      have hleft := h.steady.pagesLeft
      rw [hbudget] at hleft
      by_contra hroom
      have hpage' : 0 < pageSize := by decide
      obtain ⟨page, after, hok⟩ := h.holding.memory.allocPage_of_free hleft.eq_none
        (show 0 < m.freeMemory by omega)
      cases hpage.symm.trans (Action.allocPage_of_ok h.holding.silent hok)

/-- **The slots of a new range can be mapped**, unless the device was told to refuse it. -/
theorem mapPages_granted {taken rest mapped : List Nat} {address : Nat}
    (h : During base (Item.slotsFrom range.base mapped ++
      .range .shared range :: (taken.map Item.page ++ items)) m)
    (hbacked : Item.Backed items) (haddress : address = range.base + mapped.length * pageSize)
    (haligned : pageSize ∣ range.base) (hfits : address + rest.length * pageSize ≤ range.limit)
    (hpages : ∀ page ∈ rest, page < addressLimit)
    (htranslation : base.hardware.translation.isSome) (hbudget : base.mappingBudget = none) :
    ∃ m', Action.mapPages range taken rest mapped.length address m = .ok (.ok ()) m' := by
  have hlimit : range.limit + 1 < addressLimit :=
    h.holding.succ_range_limit_lt (List.mem_append_right _ List.mem_cons_self)
  induction rest generalizing m mapped address with
  | nil =>
    rw [Action.mapPages_nil (by omega)]
    exact ⟨m, rfl⟩
  | cons page rest ih =>
    rw [List.length_cons, Nat.succ_mul] at hfits
    obtain ⟨hpage, hrest⟩ := List.forall_mem_cons.mp hpages
    have hstop : address + pageSize < addressLimit := by omega
    obtain ⟨t, ht, hnone⟩ := h.steady.exists_translation htranslation hbudget
    have hnew : address ∉ (Item.slots (Item.slotsFrom range.base mapped ++
        .range .shared range :: (taken.map Item.page ++ items))).map Prod.fst := by
      intro hmem
      obtain ⟨slot, hslot, rfl⟩ := List.mem_map.mp hmem
      exact h.holding.next_slot_not_mem hbacked haddress (by unfold pageSize at hfits; omega) slot.2
        (Item.slot_mem_of_mem_slots hslot)
    have hmap := (h.holding.translation t ht).map_page_of_unmapped hnone
      (haddress ▸ Nat.dvd_add haligned (Nat.dvd_mul_left _ _)) hstop hpage hnew
    have hact := Action.mapPage_of_ok h.holding.silent ht hmap
    rcases h.mapPage hstop hpage with ⟨code, m₁, hcode, -⟩ | ⟨m₁, hok, h₁⟩
    · cases hcode.symm.trans hact
    · obtain ⟨h₂, hnextAddress⟩ := h₁.mapped haddress
      rw [Action.mapPages_cons (by omega), run_bind_of_ok (Action.run_orUndo_of_ok hok _)]
      dsimp only
      have hlast := ih h₂ hnextAddress (by omega) hrest
      rw [List.length_append] at hlast
      exact hlast

/-- **The pages of a new range are mapped to its slots**, or the device was told to refuse one. -/
theorem mapPages_answers {taken : List Nat}
    (h : During base (.range .shared range :: (taken.map Item.page ++ items)) m)
    (hbacked : Item.Backed items) (haligned : pageSize ∣ range.base)
    (hlength : taken.length * pageSize = range.length)
    (htranslation : base.hardware.translation.isSome) :
    ∃ answer m', Action.mapPages range taken taken.reverse 0 range.base m = .ok answer m' ∧
      ∀ cause, answer = .error cause → base.mappingBudget ≠ none := by
  obtain ⟨hlimit, hpages⟩ := h.holding.taken_lt hlength
  have hbase : range.base = range.base + ([] : List Nat).length * pageSize := by
    rw [List.length_nil, Nat.zero_mul, Nat.add_zero]
  have hnoSlots : During base (Item.slotsFrom range.base [] ++
      .range .shared range :: (taken.map Item.page ++ items)) m := h
  rcases hnoSlots.mapPages hbase hlimit hpages with ⟨cause, m', hcause, -⟩ | ⟨m', hmap, -⟩
  · refine ⟨.error cause, m', hcause, fun _ _ hbudget => ?_⟩
    have hfits : range.base + taken.reverse.length * pageSize ≤ range.limit := by
      rw [List.length_reverse, hlength]
      exact Nat.le_refl _
    obtain ⟨m'', hgranted⟩ :=
      hnoSlots.mapPages_granted hbacked hbase haligned hfits hpages htranslation hbudget
    cases hgranted.symm.trans hcause
  · exact ⟨.ok (), m', hmap, nofun⟩

/-- Taking pages leaves the space of device addresses as it was. -/
theorem has_shared_of_pages {taken : List Nat} (h : During m (taken.map Item.page ++ items) m')
    (hbefore : Holding items m) (hid : m.Has .shared space) : m'.Has .shared space := by
  obtain ⟨next, hnext, hemptied⟩ := hid.of_spaces_eq (Machine.spaces_of_frame h.steady.frame)
  have hranges : Item.rangesIn .shared (taken.map Item.page ++ items) =
      Item.rangesIn .shared items := by
    have hpages := Item.filterMap_pages (f := Item.rangeIn? .shared) (fun _ => rfl) taken
    rw [Item.rangesIn, List.filterMap_append, hpages, List.nil_append, ← Item.rangesIn]
  have hlends := h.holding.spaces _ next hnext
  rw [hranges] at hlends
  rwa [(hbefore.spaces _ space hid).eq hlends hemptied] at hnext

end During

/-! ## Placing -/

namespace Holding

/-- An operation begins with what is held. -/
theorem during (h : Holding items m) : During m items m := ⟨.refl m, h, rfl⟩

section

variable {i size align : Nat} (hsize : 0 < size) (hpaged : pageSize ∣ size)
  (hpow : align.isPowerOfTwo) (halign : pageSize ≤ align)

include hsize hpaged hpow

/-- **The buffer allocator serves a request** where system memory has a vacant start, however it is
aligned. -/
theorem placeInBuffer_served (h : Holding items m) :
    ∃ answer m', Action.placeInBuffer i size align m = .ok answer m' ∧
      Served m i size align .dma answer := by
  obtain ⟨buffer, m₁, hbuffer, h₁, -⟩ := h.during.allocBuffer size
  unfold Action.placeInBuffer
  rw [run_bind_of_ok hbuffer]
  rcases h.memory.allocBuffer_vacant hsize hpaged with
    ⟨buffer, memory, hok, hstart⟩ | ⟨memory, hnone, hno⟩
  · cases hbuffer.symm.trans (Action.allocBuffer_of_ok h.silent hok)
    dsimp only
    rw [run_bind_of_ok (run_lift_of_ok (isAligned_of_isPowerOfTwo buffer.handle hpow) _)]
    by_cases haligned : align ∣ buffer.handle
    · simp only [haligned, decide_true, Bool.not_true, Bool.false_eq_true, ↓reduceIte]
      exact ⟨_, _, rfl, .inBuffer false hstart ⟨nofun, fun hno => absurd haligned hno⟩⟩
    · simp only [haligned, decide_false, Bool.not_false, ↓reduceIte]
      obtain ⟨m₂, hnote, -⟩ := h₁.note (n := .misaligned buffer.handle align) rfl
      rw [run_bind_of_ok hnote]
      exact ⟨_, m₂, rfl, .inBuffer true hstart ⟨fun _ => haligned, fun _ => rfl⟩⟩
  · cases hbuffer.symm.trans (Action.allocBuffer_of_ok h.silent hnone)
    obtain ⟨m₂, hnote, -⟩ := h₁.note (n := .bufferRefused) rfl
    dsimp only
    rw [run_bind_of_ok hnote]
    exact ⟨_, m₂, rfl, .noBuffer hno⟩

include halign

/-- **The heap serves a request** where it has a vacant start. -/
theorem placeInHeap_served (h : Holding items m) (hid : m.Has (.heap i) space) :
    ∃ answer m', Action.placeInHeap i size align m = .ok answer m' ∧
      Served m i size align .heap answer := by
  unfold Action.placeInHeap
  rcases Action.reserve_vacant h.silent hid (h.spaces _ space hid) hsize hpaged hpow
    halign with ⟨range, m₁, hok, -, hstart⟩ | ⟨herror, hno⟩
  · rw [run_bind_of_ok hok]
    exact ⟨_, m₁, rfl, .inHeap hid hstart⟩
  · obtain ⟨m₁, hnote, -⟩ :=
      h.during.note (n := .heapExhausted (.outOfAddressSpace size align)) rfl
    rw [run_bind_of_ok herror]
    dsimp only
    rw [run_bind_of_ok hnote]
    exact ⟨_, m₁, rfl, .heapFull hid hno⟩

/-- **The IOMMU serves a request** where the space can ever hold it, as many pages are free, and the
space has a vacant start, missed in this order. -/
theorem placeBehindIommu_served (h : Holding items m) (hbacked : Item.Backed items)
    (hid : m.Has .shared space) (htranslation : m.hardware.translation.isSome) :
    ∃ answer m', Action.placeBehindIommu i size align m = .ok answer m' ∧
      Served m i size align .iommu answer := by
  have hshared : m.shared = some space := hid
  have hnothing : During m (([] : List Nat).map Item.page ++ items) m := h.during
  have hcount : size / pageSize * pageSize = size := Nat.div_mul_cancel hpaged
  unfold Action.placeBehindIommu
  rw [run_get_bind]
  simp only [hshared, Option.map_some, Option.getD_some]
  by_cases hcapacity : space.capacity < size
  · obtain ⟨m₁, hnote, -⟩ := h.during.note (n := .spaceFull) rfl
    rw [if_pos hcapacity, run_bind_of_ok hnote]
    exact ⟨_, m₁, rfl, .beyondSpace hid hcapacity⟩
  rw [if_neg hcapacity]
  rw [Nat.not_lt] at hcapacity
  rcases hnothing.takePages_room (size / pageSize) (size / pageSize) with
    ⟨m₁, hnone, hlack⟩ | ⟨taken, m₁, htaken, h₁, hlength, hmemory⟩
  · rw [run_bind_of_ok hnone]
    exact ⟨_, m₁, rfl, .noPages hid hcapacity fun hbudget => hcount ▸ hlack hbudget⟩
  rw [hcount] at hmemory
  rw [List.length_nil, Nat.zero_add] at hlength
  have hid₁ := h₁.has_shared_of_pages h hid
  have hlends := h₁.holding.spaces _ space hid₁
  rw [run_bind_of_ok htaken]
  dsimp only
  rcases Action.reserve_vacant h₁.holding.silent hid₁ hlends hsize hpaged hpow halign with
    ⟨range, m₂, hok, hrange, hstart⟩ | ⟨herror, hno⟩
  · rcases h₁.reserve hid₁ size align with ⟨cause, hcause⟩ | ⟨_, m₂, hsame, h₂, -⟩
    · cases hcause.symm.trans hok
    cases hsame.symm.trans hok
    have htaken : taken.length * pageSize = range.length := by
      rw [hlength, hcount, hrange]
    have haligned : pageSize ∣ range.base :=
      (dvd_of_isPowerOfTwo ⟨pageBits, rfl⟩ hpow halign).trans hstart.dvd
    obtain ⟨mapped, m₃, hmap, hrefused⟩ :=
      h₂.mapPages_answers hbacked haligned htaken htranslation
    rw [run_bind_of_ok (Action.run_orUndo_of_ok hok _)]
    dsimp only
    rw [run_bind_of_ok hmap]
    cases mapped with
    | error cause => exact ⟨_, m₃, rfl, .mappingRefused cause (hrefused cause rfl)⟩
    | ok _ => exact ⟨_, m₃, rfl, .behindIommu taken.reverse hid hcapacity hmemory hstart⟩
  · obtain ⟨m₂, hnote, h₂⟩ := h₁.note (n := .spaceFull) rfl
    obtain ⟨m₃, hfree, -⟩ := h₂.freePages
    rw [run_bind_of_ok (Action.run_orUndo_of_ok herror _)]
    dsimp only
    rw [run_bind_of_ok hnote, run_bind_of_ok hfree]
    exact ⟨_, m₃, rfl, .spaceFull hid hcapacity hmemory hno⟩

end

end Holding

/-! ## Requests -/

/-- Rounding answers a power of two, the alignment in whole pages. -/
theorem Action.pageRound_step {size align pages step : Nat}
    (h : pageRound size align = .ok (pages, step)) :
    step.isPowerOfTwo ∧ LeastMultiple (max align 1) pageSize step := by
  unfold pageRound at h
  split at h
  · rename_i hsize hstep
    split at h
    · rename_i hpow
      cases h
      exact ⟨hpow, (nextMultiple?_eq_some_iff.mp hstep).2.1⟩
    · cases h
  · cases h

/-- A request that cannot be rounded is refused for that. -/
theorem Action.place_unrounded {size align : Nat} (m : Machine Device) (i : Nat) {cause : Error}
    (hround : Action.pageRound size align = .error cause) :
    ∃ m', Action.place i size align m = .ok (.error cause) m' := by
  obtain ⟨journal, hnote⟩ :=
    Action.note_of_text (n := .requested (m.controller i).strategy size align) rfl m
  unfold Action.place
  rw [run_get_bind, run_bind_of_ok hnote, hround]
  exact ⟨_, rfl⟩

namespace Accounts

variable {roster : List (Option FirmwareObjects)} {live : List InstanceObject} {i size align : Nat}

/-- The slots of live objects rest on their ranges and their pages. -/
theorem backed (h : Accounts roster live m) : Item.Backed (live.flatMap (·.items)) := by
  refine Item.backed_flatMap fun o ho => ?_
  have hfits := (h.made o ho).1.fits
  cases hresource : o.resource with
  | heap range =>
    rw [InstanceObject.items, hresource]
    exact Item.backed_of_slots_eq_nil rfl
  | iommu range pages =>
    rw [hresource] at hfits
    obtain ⟨-, hlength, hpages⟩ := hfits
    rw [InstanceObject.items, hresource]
    exact Resource.backed_iommu (Nat.le_of_eq (hpages.trans hlength.symm)) o.owner
  | dma buffer =>
    rw [InstanceObject.items, hresource]
    exact Item.backed_of_slots_eq_nil rfl

/-- **A controller serves a request for whole pages** by its strategy. -/
theorem placeBy_served (h : Accounts roster live m) (hi : i < roster.length) (hsize : 0 < size)
    (hpaged : pageSize ∣ size) (hpow : align.isPowerOfTwo) (halign : pageSize ≤ align) :
    ∃ answer m', Action.placeBy (m.controller i).strategy i size align m = .ok answer m' ∧
      Served m i size align (m.controller i).strategy answer := by
  have hc := h.getElem?_of_lt hi
  unfold Action.placeBy
  cases hbacking : (m.controller i).backing with
  | heap space length =>
    rw [Controller.strategy, hbacking]
    exact h.holding.placeInHeap_served hsize hpaged hpow halign ⟨_, length, hc, hbacking⟩
  | iommu =>
    obtain ⟨space, hid⟩ := h.geometry.has_shared hc (congrArg Backing.strategy hbacking)
    rw [Controller.strategy, hbacking]
    exact h.holding.placeBehindIommu_served hsize hpaged hpow halign h.backed hid
      (h.geometry.translation.trans (Option.isSome_iff_exists.mpr ⟨space, hid⟩))
  | dma =>
    rw [Controller.strategy, hbacking]
    exact h.holding.placeInBuffer_served hsize hpaged hpow

/-- **A request is rounded and served**, or cannot be rounded. -/
theorem place_served (h : Accounts roster live m) (hi : i < roster.length) {pages step : Nat}
    (hround : Action.pageRound size align = .ok (pages, step)) :
    ∃ answer m', Action.place i size align m = .ok answer m' ∧
      Served m i pages step (m.controller i).strategy answer := by
  obtain ⟨hpages, -⟩ := Action.pageRound_eq_ok hround
  obtain ⟨hpow, hstep⟩ := Action.pageRound_step hround
  have hsize : 0 < pages := Nat.lt_of_lt_of_le (Nat.le_max_right size 1) hpages.le
  have halign : pageSize ≤ step :=
    Nat.le_of_dvd (pos_of_isPowerOfTwo hpow) hstep.dvd
  obtain ⟨journal, hnote⟩ :=
    Action.note_of_text (n := .requested (m.controller i).strategy size align) rfl m
  obtain ⟨_, hnoted, hduring⟩ :=
    h.during.note (n := .requested (m.controller i).strategy size align) rfl
  cases hnoted.symm.trans hnote
  have haccounts := h.of_during hduring
  obtain ⟨answer, m₂, hplace, hserved⟩ :=
    haccounts.placeBy_served hi hsize hpages.dvd hpow halign
  unfold Action.place
  rw [run_get_bind, run_bind_of_ok hnote, hround]
  dsimp only
  have hplace' : Action.placeBy (m.controller i).strategy i pages step { m with journal } =
      .ok answer m₂ := hplace
  rw [run_bind_of_ok hplace']
  cases answer with
  | error cause => exact ⟨_, m₂, rfl, hserved.of_journal⟩
  | ok object =>
    obtain ⟨journal', hplaced⟩ := Action.note_of_text (n := .placed pages step object.offset) rfl m₂
    have hcount : Action.onController i (fun c => { c with live := c.live + 1 })
        { m₂ with journal := journal' } = .ok () _ := rfl
    dsimp only
    rw [run_bind_of_ok hplaced, run_bind_of_ok hcount]
    exact ⟨_, _, rfl, hserved.of_journal⟩

end Accounts
end InstanceMemory
