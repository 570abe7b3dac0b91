import InstanceMemory.Proofs.Machine.Booked

/-!
# Counters that do not go below zero

System memory counts the pages and the buffers that are out, and the counters wrap. The device
`Device.strict` is the simulated one, but for giving back a page or a buffer where none is counted,
which faults on it. No page and no buffer is given back but one that is held, and what is held is
counted, so **every operation comes to the same on both devices**: `During.giveBack_strict` and the
placements from one item to the next, `Accounts.allocate_strict` and `Booked.build_strict` for the
operations as a whole.
-/

set_option autoImplicit false

namespace InstanceMemory

open Simulator (Device)

/-- The simulated device, on which giving back faults where a counter would go below zero. -/
@[reducible] def Simulator.Device.strict : Platform Device :=
  { (inferInstance : Platform Device) with
    freePage := fun page s =>
      if s.1.memory.livePages = 0 then .error .subtractOverflow s else Platform.freePage page s
    freeBuffer := fun buffer attributes s =>
      if s.1.memory.liveBuffers = 0 then .error .subtractOverflow s
      else Platform.freeBuffer buffer attributes s }

open Simulator.Device (strict)

/-- Steps that come to the same, and are undone the same where they fault, come to the same. -/
theorem Action.run_orUndo_congr {π α : Type} {act act' : Action π α} {undo undo' : Action π Unit}
    {m : Machine π} (h : act' m = act m)
    (hundo : ∀ f m', act m = .error f m' → undo' m' = undo m') :
    orUndo act' undo' m = orUndo act undo m := by
  unfold orUndo
  rw [h]
  cases hact : act m with
  | ok a m' => rfl
  | error f m' =>
    dsimp only
    rw [hundo f m' hact]

variable {α : Type} {base m : Machine Device} {items : List Item} {range : AddressRange}

namespace During

/-! ## Giving back -/

theorem freePage_strict {page : Nat} (h : During base (.page page :: items) m) :
    @Action.freePage Device strict page m = Action.freePage page m := by
  have hpos : ¬ m.hardware.memory.livePages = 0 := by
    rw [h.holding.memory.livePages]
    exact Nat.succ_ne_zero _
  have hfree : @Platform.freePage Device strict page (m.hardware, m.journal) =
      Platform.freePage page (m.hardware, m.journal) := if_neg hpos
  have hact : Action.onHardwareNoting (@Platform.freePage Device strict page) m =
      Action.onHardwareNoting (Platform.freePage page) m := by
    simp only [Action.onHardwareNoting, hfree]
  unfold Action.freePage
  rw [run_get_bind, run_get_bind]
  exact run_bind_congr hact fun _ _ _ => rfl

theorem freeBuffer_strict {buffer : Buffer} (h : During base (.buffer buffer :: items) m) :
    @Action.freeBuffer Device strict buffer m = Action.freeBuffer buffer m := by
  have hpos : ¬ m.hardware.memory.liveBuffers = 0 := by
    rw [h.holding.memory.liveBuffers]
    exact Nat.succ_ne_zero _
  have hfree : @Platform.freeBuffer Device strict buffer .instanceMemory (m.hardware, m.journal) =
      Platform.freeBuffer buffer .instanceMemory (m.hardware, m.journal) := if_neg hpos
  have hact : Action.onHardwareNoting (@Platform.freeBuffer Device strict buffer .instanceMemory) m =
      Action.onHardwareNoting (Platform.freeBuffer buffer .instanceMemory) m := by
    simp only [Action.onHardwareNoting, hfree]
  unfold Action.freeBuffer
  exact run_bind_congr hact fun _ _ _ => rfl

theorem freePages_strict {pages : List Nat} (h : During base (pages.map Item.page ++ items) m) :
    @Action.freePages Device strict pages m = Action.freePages pages m := by
  induction pages generalizing m with
  | nil => rfl
  | cons page rest ih =>
    obtain ⟨m₁, hfree, h₁⟩ := h.freePage
    unfold Action.freePages
    rw [run_bind_of_ok hfree, run_bind_of_ok (h.freePage_strict.trans hfree)]
    exact ih h₁

/-- Taking mappings back is nothing that is counted. -/
theorem unmapSlots_strict (address slots : Nat) :
    @Action.unmapSlots Device strict address slots = Action.unmapSlots address slots := by
  induction slots with
  | zero => rfl
  | succ slots ih =>
    unfold Action.unmapSlots
    rw [ih]
    rfl

theorem undoPlacement_strict (mapped : List Nat) {taken : List Nat}
    (h : During base (Item.slotsFrom range.base mapped ++
      .range .shared range :: (taken.map Item.page ++ items)) m) :
    @Action.undoPlacement Device strict range mapped.length taken m =
      Action.undoPlacement range mapped.length taken m := by
  obtain ⟨m₁, hunmap, h₁⟩ := h.unmapSlots
  obtain ⟨m₂, hrelease, h₂⟩ := h₁.release
  unfold Action.undoPlacement
  rw [unmapSlots_strict, run_bind_of_ok hunmap, run_bind_of_ok hunmap, run_bind_of_ok hrelease,
    run_bind_of_ok hrelease]
  exact h₂.freePages_strict

theorem unmapAndFree_strict {address : Nat} {pages : List Nat}
    (hlimit : address + pages.length * pageSize + 1 < addressLimit)
    (h : During base (Item.slotsFrom address pages ++ (pages.map Item.page ++ items)) m) :
    @Action.unmapAndFree Device strict address pages m = Action.unmapAndFree address pages m := by
  induction pages generalizing m address with
  | nil => rfl
  | cons page rest ih =>
    obtain ⟨m₁, hunmap, h₁⟩ := h.unmapPage
    have hunmap' : @Action.unmapPage Device strict address m = .ok () m₁ := hunmap
    have hheld := h₁.perm List.perm_middle
    obtain ⟨m₂, hfree, h₂⟩ := hheld.freePage
    rw [List.length_cons, Nat.succ_mul] at hlimit
    have hdraw : address + 1 < addressLimit := by omega
    rw [@Action.unmapAndFree_cons Device _ strict hdraw, Action.unmapAndFree_cons hdraw,
      run_bind_of_ok hunmap, run_bind_of_ok hunmap', run_bind_of_ok hfree,
      run_bind_of_ok (hheld.freePage_strict.trans hfree)]
    exact ih (by omega) h₂

/-- **What an object takes is counted until it is given back.** -/
theorem giveBack_strict {object : InstanceObject} (hmade : object.WellMade)
    (h : During base (object.items ++ items) m) :
    @Action.giveBack Device strict object.owner object.resource m =
      Action.giveBack object.owner object.resource m := by
  obtain ⟨owner, offset, size, isMisaligned, resource⟩ := object
  cases resource with
  | heap range => rfl
  | iommu range pages =>
    have hlimit := h.holding.pages_limit_lt hmade
    have h' := h
    simp only [InstanceObject.items, Resource.items, List.append_assoc] at h'
    unfold Action.giveBack
    exact run_bind_congr (h'.unmapAndFree_strict hlimit) fun _ _ _ => rfl
  | dma buffer => exact h.freeBuffer_strict

/-! ## Placing behind the IOMMU -/

theorem takePages_strict (count more : Nat) {taken : List Nat}
    (h : During base (taken.map Item.page ++ items) m) :
    @Action.takePages Device strict count more taken m = Action.takePages count more taken m := by
  induction more generalizing m taken with
  | zero => rfl
  | succ more ih =>
    obtain ⟨page, m₁, hpage, h₁⟩ := h.allocPage
    have hpage' : @Action.allocPage Device strict m = .ok page m₁ := hpage
    unfold Action.takePages
    rw [run_bind_of_ok (Action.run_orUndo_of_ok hpage _),
      run_bind_of_ok (Action.run_orUndo_of_ok hpage' _)]
    cases page with
    | some page =>
      have htaken : During base ((page :: taken).map Item.page ++ items) m₁ := h₁
      exact ih htaken
    | none =>
      have htaken : During base (taken.map Item.page ++ items) m₁ := h₁
      obtain ⟨m₂, hnote, h₂⟩ := htaken.note (n := .pageRefused taken.length count) rfl
      dsimp only
      rw [run_bind_of_ok hnote, run_bind_of_ok hnote]
      exact run_bind_congr h₂.freePages_strict fun _ _ _ => rfl

theorem mapPages_strict {taken rest mapped : List Nat} {address : Nat}
    (h : During base (Item.slotsFrom range.base mapped ++
      .range .shared range :: (taken.map Item.page ++ items)) m)
    (haddress : address = range.base + mapped.length * pageSize)
    (hlimit : address + rest.length * pageSize + 1 < addressLimit)
    (hpages : ∀ page ∈ rest, page < addressLimit) :
    @Action.mapPages Device strict range taken rest mapped.length address m =
      Action.mapPages range taken rest mapped.length address m := by
  induction rest generalizing m mapped address with
  | nil =>
    have hdraw : address + 1 < addressLimit := by omega
    rw [@Action.mapPages_nil Device _ strict hdraw, Action.mapPages_nil hdraw]
  | cons page rest ih =>
    rw [List.length_cons, Nat.succ_mul] at hlimit
    obtain ⟨hpage, hrest⟩ := List.forall_mem_cons.mp hpages
    have hslot : address + pageSize < addressLimit := by omega
    have hdraw : address + 1 < addressLimit := by omega
    rw [@Action.mapPages_cons Device _ strict hdraw, Action.mapPages_cons hdraw]
    rcases h.mapPage hslot hpage with ⟨code, m₁, hcode, h₁⟩ | ⟨m₁, hmap, h₁⟩
    · have hcode' : @Action.mapPage Device strict address page m = .ok (.error code) m₁ := hcode
      obtain ⟨m₂, hnote, h₂⟩ := h₁.note (n := .mappingRefused code) rfl
      rw [run_bind_of_ok (Action.run_orUndo_of_ok hcode _),
        run_bind_of_ok (Action.run_orUndo_of_ok hcode' _)]
      dsimp only
      rw [run_bind_of_ok hnote, run_bind_of_ok hnote]
      exact run_bind_congr (h₂.undoPlacement_strict mapped) fun _ _ _ => rfl
    · have hmap' : @Action.mapPage Device strict address page m = .ok (.ok ()) m₁ := hmap
      rw [run_bind_of_ok (Action.run_orUndo_of_ok hmap _),
        run_bind_of_ok (Action.run_orUndo_of_ok hmap' _)]
      dsimp only
      obtain ⟨h₂, hnextAddress⟩ := h₁.mapped haddress
      have hlast := ih h₂ hnextAddress (by omega) hrest
      rw [List.length_append] at hlast
      exact hlast

theorem placeBehindIommu_strict {i : Nat} {space : RangeSpace} (h : During base items m)
    (hid : m.Has .shared space) {size : Nat} (hsize : pageSize ∣ size) (align : Nat) :
    @Action.placeBehindIommu Device strict i size align m =
      Action.placeBehindIommu i size align m := by
  unfold Action.placeBehindIommu
  rw [run_get_bind, run_get_bind]
  split
  · rfl
  · have hnothing : During base (([] : List Nat).map Item.page ++ items) m := h
    have htake := hnothing.takePages_strict (size / pageSize) (size / pageSize)
    rcases hnothing.takePages (size / pageSize) (size / pageSize) with
      ⟨m₁, hnone, -⟩ | ⟨taken, m₁, htaken, h₁, hlength⟩
    · rw [run_bind_of_ok hnone, run_bind_of_ok (htake.trans hnone)]
    · rw [run_bind_of_ok htaken, run_bind_of_ok (htake.trans htaken)]
      dsimp only
      have hframe : m₁.frame = m.frame := h₁.steady.frame.trans h.steady.frame.symm
      obtain ⟨space₁, hid₁, -⟩ := hid.of_spaces_eq (Machine.spaces_of_frame hframe)
      rcases h₁.reserve hid₁ size align with ⟨cause, hcause⟩ | ⟨range, m₂, hrange, h₂, hleast⟩
      · obtain ⟨m₂, hnote, h₂⟩ := h₁.note (n := .spaceFull) rfl
        rw [run_bind_of_ok (Action.run_orUndo_of_ok hcause _),
          run_bind_of_ok (Action.run_orUndo_of_ok hcause _)]
        dsimp only
        rw [run_bind_of_ok hnote, run_bind_of_ok hnote]
        exact run_bind_congr h₂.freePages_strict fun _ _ _ => rfl
      · have hcount : taken.length * pageSize = range.length := by
          rw [hlength, List.length_nil, Nat.zero_add, Nat.div_mul_cancel hsize,
            hleast.eq_of_dvd hsize]
        obtain ⟨hlimit, hpages⟩ := h₂.holding.taken_lt hcount
        have hbase : range.base = range.base + ([] : List Nat).length * pageSize := by
          rw [List.length_nil, Nat.zero_mul, Nat.add_zero]
        have hnoSlots : During base (Item.slotsFrom range.base [] ++
            .range .shared range :: (taken.map Item.page ++ items)) m₂ := h₂
        rw [run_bind_of_ok (Action.run_orUndo_of_ok hrange _),
          run_bind_of_ok (Action.run_orUndo_of_ok hrange _)]
        exact run_bind_congr (hnoSlots.mapPages_strict hbase hlimit hpages) fun _ _ _ => rfl

/-- **A placement comes to the same**, whatever the strategy. -/
theorem placeBy_strict {i size align : Nat} {c : Controller} (h : During base items m)
    (hgeometry : Geometry base) (hc : base.controllers[i]? = some c) (hsize : pageSize ∣ size) :
    @Action.placeBy Device strict c.strategy i size align m =
      Action.placeBy c.strategy i size align m := by
  cases hstrategy : c.strategy with
  | heap => rfl
  | iommu =>
    obtain ⟨space, hid⟩ := hgeometry.has_shared hc hstrategy
    obtain ⟨next, hnext, -⟩ := hid.of_spaces_eq (Machine.spaces_of_frame h.steady.frame)
    exact h.placeBehindIommu_strict hnext hsize align
  | dma => rfl

end During

/-! ## Accesses -/

/-- No access gives anything back. -/
theorem Action.fillFrom_strict (o : InstanceObject) (value : UInt32) (words offset : Nat) :
    @fillFrom Device strict o value words offset = fillFrom o value words offset := by
  induction words generalizing offset with
  | zero => rfl
  | succ words ih =>
    unfold fillFrom
    rw [ih]
    rfl

theorem Action.fill_strict (o : InstanceObject) (value : UInt32) :
    @fill Device strict o value = fill o value :=
  fillFrom_strict o value o.words 0

/-! ## Objects -/

variable {roster : List (Option FirmwareObjects)} {live : List InstanceObject} {i : Nat}

namespace Accounts

theorem place_strict (h : Accounts roster live m) (hi : i < roster.length) (size align : Nat) :
    @Action.place Device strict i size align m = Action.place i size align m := by
  have hc := h.getElem?_of_lt hi
  obtain ⟨m₁, hnote, h₁⟩ := h.during.note (n := .requested (m.controller i).strategy size align) rfl
  unfold Action.place
  rw [run_get_bind, run_get_bind, run_bind_of_ok hnote, run_bind_of_ok hnote]
  cases hround : Action.pageRound size align with
  | error cause => rfl
  | ok rounded =>
    obtain ⟨hpages, -⟩ := Action.pageRound_eq_ok hround
    exact run_bind_congr (h₁.placeBy_strict h.geometry hc hpages.dvd) fun _ _ _ => rfl

/-- **A live object is counted until it is freed.** -/
theorem free_strict {object : InstanceObject} (h : Accounts roster (object :: live) m) :
    @Action.free Device strict object m = Action.free object m := by
  have hback := h.during.giveBack_strict (h.made object List.mem_cons_self).1
  simp only [Action.free, Action.andFinally, hback]

/-- **An allocation comes to the same**, also where it is undone. -/
theorem allocate_strict (h : Accounts roster live m) (hi : i < roster.length) (size align : Nat)
    (zeroed : Bool) : @Action.allocate Device strict i size align zeroed m =
      Action.allocate i size align zeroed m := by
  have hmake : @Action.make Device strict i size align zeroed m =
      Action.make i size align zeroed m := by
    have hplace := h.place_strict hi size align
    unfold Action.make
    rcases h.place hi size align with
      ⟨cause, m₁, hcause, -, -⟩ | ⟨object, m₁, hobject, -, h₁, -⟩
    · rw [run_bind_of_ok hcause, run_bind_of_ok (hplace.trans hcause)]
    · rw [run_bind_of_ok hobject, run_bind_of_ok (hplace.trans hobject)]
      cases zeroed with
      | false => rfl
      | true =>
        refine run_bind_congr (Action.run_orUndo_congr ?_ fun f m₂ hfill => ?_) fun _ _ _ => rfl
        · rw [Action.fill_strict]
        · exact (h₁.of_books ((Action.books_fill object 0).of_error rfl hfill)).free_strict
  unfold Action.allocate
  rw [run_get_bind, run_get_bind]
  cases (m.controller i).phase with
  | suspended => rfl
  | constructed => exact hmake
  | initialized => exact hmake

end Accounts

/-! ## Controllers -/

/-- An action is all or nothing, and comes to the same on the strict device. -/
structure TriesAlike (P : Machine Device → Prop) (act' act : Action Device (Except Error α))
    (Q : α → Machine Device → Prop) (F : Machine Device → Prop) : Prop where
  tries : Tries P act Q F
  same : ∀ m, P m → act' m = act m

/-- A guarded step is undone the same. -/
theorem TriesAlike.guarding {P F F' : Machine Device → Prop} {Q : α → Machine Device → Prop}
    {act act' : Action Device (Except Error α)} {undo undo' : Action Device Unit}
    (h : TriesAlike P act' act Q F') (hundo : ∀ m, F' m → ∃ m', undo m = .ok () m' ∧ F m')
    (hsame : ∀ m, F' m → undo' m = undo m) :
    TriesAlike P (Action.guarding undo' act') (Action.guarding undo act) Q F where
  tries := h.tries.guarding hundo
  same m hm := by
    have horUndo : Action.orUndo act' undo' m = Action.orUndo act undo m :=
      Action.run_orUndo_congr (h.same m hm) fun f m' hact => hsame m' (h.tries.of_error hm hact)
    unfold Action.guarding
    refine run_bind_congr horUndo fun answer m₁ hanswer => ?_
    have hact := Action.run_orUndo_eq_ok.mp hanswer
    cases answer with
    | ok a => rfl
    | error cause => exact run_bind_congr (hsame m₁ (h.tries.of_refused hm hact)) fun _ _ _ => rfl

namespace Accounts

theorem withAllocated_strict {Q : α → Machine Device → Prop} (hi : i < roster.length) (size : Nat)
    (zeroed : Bool) {next next' : InstanceObject → Action Device (Except Error α)}
    (hnext : ∀ object, object.owner = i → TriesAlike (Accounts roster (object :: live))
      (next' object) (next object) Q (Accounts roster (object :: live))) :
    TriesAlike (Accounts roster live) (@Action.withAllocated Device strict α i size zeroed next')
      (Action.withAllocated i size zeroed next) Q (Accounts roster live) where
  tries := withAllocated hi size zeroed fun object howner => (hnext object howner).tries
  same m h := by
    unfold Action.withAllocated
    refine run_bind_congr (h.allocate_strict hi size 0 zeroed) fun answer m₁ hact => ?_
    cases answer with
    | error cause => rfl
    | ok object =>
      obtain ⟨h₁, howner⟩ := (allocate hi size 0 zeroed).of_ok h hact
      have hundo : ∀ m, Accounts roster (object :: live) m →
          ∃ m', Action.free object m = .ok () m' ∧ Accounts roster live m' := by
        intro m h
        obtain ⟨m', hfree, -, h'⟩ := h.free
        exact ⟨m', hfree, h'⟩
      exact ((hnext object howner).guarding hundo fun _ h => h.free_strict).same m₁ h₁

/-- **The firmware structures are placed the same.** -/
theorem placeFirmware_strict (h : Accounts roster live m) (hi : i < roster.length)
    (layout : ReservedLayout) : @Action.placeFirmware Device strict i layout m =
      Action.placeFirmware i layout m := by
  unfold Action.placeFirmware
  refine (withAllocated_strict hi _ _ fun vbios hvbios => withAllocated_strict hi _ _
    fun ramht hramht => withAllocated_strict hi _ _ fun ramro hramro =>
    withAllocated_strict hi _ _ fun ramfc hramfc => ⟨expectFirmware (i := i) layout ?_,
    fun _ _ => rfl⟩).same m h
  simp only [List.forall_mem_cons, hvbios, hramht, hramro, hramfc, List.not_mem_nil,
    false_implies, implies_true, and_self]

/-- **A controller is destroyed the same.** -/
theorem teardown_strict (h : Accounts roster (FirmwareObjects.listed roster[i]?.join ++ live) m) :
    @Action.teardown Device strict i m = Action.teardown i m := by
  have hfree : @Action.freeFirmware Device strict i m = Action.freeFirmware i m := by
    unfold Action.freeFirmware
    rw [run_get_bind, run_get_bind, h.firmware_controller]
    cases hplaced : roster[i]?.join with
    | none => rfl
    | some firmware =>
      rw [hplaced] at h
      have hreverse : (firmware.toList ++ live).Perm
          (firmware.ramfc :: firmware.ramro :: firmware.ramht :: firmware.vbios :: live) :=
        (List.reverse_perm firmware.toList).symm.append_right live
      have hclear : Action.onController i (fun c => { c with firmware := none }) m =
          .ok () (m.mapController i fun c => { c with firmware := none }) := rfl
      have h₀ := (h.perm hreverse).setFirmware (i := i) none
      obtain ⟨m₁, hramfc, -, h₁⟩ := h₀.free
      obtain ⟨m₂, hramro, -, h₂⟩ := h₁.free
      obtain ⟨m₃, hramht, -, h₃⟩ := h₂.free
      dsimp only
      rw [run_bind_of_ok hclear, run_bind_of_ok hclear, run_bind_of_ok hramfc,
        run_bind_of_ok (h₀.free_strict.trans hramfc), run_bind_of_ok hramro,
        run_bind_of_ok (h₁.free_strict.trans hramro), run_bind_of_ok hramht,
        run_bind_of_ok (h₂.free_strict.trans hramht)]
      exact h₃.free_strict
  unfold Action.teardown
  exact run_bind_congr hfree fun _ _ _ => rfl

/-- **A new controller gets its firmware structures the same.** -/
theorem equip_strict (h : Accounts (roster ++ [none]) live m) (layout : ReservedLayout) :
    @Action.equip Device strict roster.length layout m = Action.equip roster.length layout m := by
  have hlt : roster.length < (roster ++ [none]).length := List.length_append ▸ Nat.lt_add_one _
  refine (TriesAlike.guarding ⟨furnish roster layout, ?_⟩ (fun m h => h.teardownNewest)
    fun m h => h.listedNewest.teardown_strict).same m h
  intro m h
  exact run_bind_congr (h.placeFirmware_strict hlt layout) fun _ _ _ => rfl

end Accounts

namespace Booked

variable {count : Nat} {objects : List InstanceObject}

/-- **A live object is freed the same.** -/
theorem free_strict {object : InstanceObject} (h : Booked count (object :: objects) m) :
    @Action.free Device strict object m = Action.free object m :=
  h.accounts.free_strict

/-- **A controller is destroyed the same.** -/
theorem teardown_strict (h : Booked count objects m) (i : Nat) :
    @Action.teardown Device strict i m = Action.teardown i m :=
  (h.accounts_setApart i).teardown_strict

/-- **A controller is built the same**, also where the construction is undone. -/
theorem build_strict (h : Booked count objects m) :
    @Action.build Device strict m = Action.build m := by
  have hheap : m.hardware.config.hasVram = true → ∀ chipset,
      @Action.buildOnHeap Device strict chipset m = Action.buildOnHeap chipset m := by
    intro hvram chipset
    have hreserve : @Action.reserveHeap Device strict chipset m = Action.reserveHeap chipset m := rfl
    unfold Action.buildOnHeap
    refine run_bind_congr hreserve fun answer m₁ hact => ?_
    cases answer with
    | error cause => rfl
    | ok reserved =>
      obtain ⟨-, m₂, hadd, h₂⟩ := h.addHeap hvram hact
      dsimp only
      rw [run_bind_of_ok hadd, run_bind_of_ok hadd]
      exact h₂.equip_strict reserved.2
  have hchipset : @Platform.chipset Device strict = Platform.chipset := rfl
  unfold Action.build
  rw [run_get_bind, run_get_bind, hchipset]
  by_cases hfamily : ¬ (Platform.chipset m.hardware).family.isSupported
  · rw [if_pos hfamily, if_pos hfamily]
  · rw [if_neg hfamily, if_neg hfamily]
    by_cases hvram : (Platform.chipset m.hardware).hasVram = true
    · rw [if_pos hvram, if_pos hvram]
      exact hheap hvram _
    · rw [if_neg hvram, if_neg hvram]

end Booked
end InstanceMemory
