import InstanceMemory.Proofs.Machine.Accounts
import InstanceMemory.Machine.Construction

/-!
# Allocation, construction and teardown

Everything that makes objects is all or nothing. An allocation that fails or faults, also while the
new object is being zeroed, leaves the accounts as they were (`Accounts.allocate`). A construction
that fails at any of its steps frees what it has placed and leaves a controller without objects
(`Tries.guarding`, `Accounts.placeFirmware`), and a teardown frees the firmware structures and nothing
else (`Accounts.teardown`).
-/

set_option autoImplicit false

namespace InstanceMemory

open Simulator (Device)

variable {m m' : Machine Device} {roster : List (Option FirmwareObjects)}
  {live : List InstanceObject} {i : Nat} {α : Type}

/-- The objects that firmware structures on a record are. -/
def FirmwareObjects.listed : Option FirmwareObjects → List InstanceObject
  | none => []
  | some firmware => firmware.toList

theorem Machine.firmware_controller (m : Machine Device) (i : Nat) :
    (m.controller i).firmware = m.roster[i]?.join := by
  rw [controller, List.getD_eq_getElem?_getD, roster, List.getElem?_map]
  cases m.controllers[i]? <;> rfl

/-- The firmware structures of a controller are put on its record. -/
theorem Machine.roster_setFirmware (m : Machine Device) (i : Nat)
    (firmware : Option FirmwareObjects) :
    (m.mapController i fun c => { c with firmware }).roster = m.roster.set i firmware := by
  apply List.ext_getElem?
  intro j
  rw [roster, List.getElem?_map, getElem?_mapController, Option.map_map, List.getElem?_set, roster,
    List.length_map, List.getElem?_map]
  by_cases hij : i = j
  · subst hij
    cases hc : m.controllers[i]? with
    | none => simp only [List.getElem?_eq_none_iff.mp hc, Nat.not_lt.mpr, ↓reduceIte, Option.map_none]
    | some c =>
      have hlt := (List.getElem?_eq_some_iff.mp hc).1
      simp only [Option.map_some, Function.comp_apply, ↓reduceIte, hlt]
  · simp only [hij, ↓reduceIte, Function.comp_def]

/-- What stands at a place of a list that one value was added to. -/
theorem getElem?_concat_eq_some {γ : Type} {xs : List γ} {x y : γ} {j : Nat} :
    (xs ++ [x])[j]? = some y ↔ xs[j]? = some y ∨ j = xs.length ∧ x = y := by
  rw [List.getElem?_append]
  split
  · constructor
    · exact .inl
    · rintro (h | ⟨rfl, -⟩)
      · exact h
      · omega
  · rename_i hge
    have hnone : xs[j]? = none := List.getElem?_eq_none_iff.mpr (by omega)
    rw [hnone]
    by_cases hj : j = xs.length
    · simp only [hj, Nat.sub_self, List.getElem?_cons_zero, Option.some.injEq, reduceCtorEq, true_and,
        false_or]
    · have hbeyond : ([x] : List γ)[j - xs.length]? = none :=
        List.getElem?_eq_none_iff.mpr (by simp only [List.length_singleton]; omega)
      simp only [hbeyond, reduceCtorEq, hj, false_and, or_self]

/-! ## One controller more -/

/-- The machine with one controller more. -/
def Machine.concat (m : Machine Device) (c : Controller) : Machine Device :=
  { m with controllers := m.controllers ++ [c] }

/-- The spaces of the machine are those it had, and the heap of the new controller. -/
theorem Machine.has_concat {c : Controller} {id : SpaceId} {space : RangeSpace} :
    (m.concat c).Has id space ↔ m.Has id space ∨
      id = .heap m.controllers.length ∧ ∃ length, c.backing = .heap space length := by
  cases id with
  | shared => exact (or_iff_left fun h => SpaceId.noConfusion h.1).symm
  | heap j =>
    constructor
    · rintro ⟨c', length, hc', hbacking⟩
      rcases getElem?_concat_eq_some.mp hc' with hc' | ⟨rfl, rfl⟩
      · exact .inl ⟨c', length, hc', hbacking⟩
      · exact .inr ⟨rfl, length, hbacking⟩
    · rintro (⟨c', length, hc', hbacking⟩ | ⟨hj, length, hbacking⟩)
      · exact ⟨c', length, getElem?_concat_eq_some.mpr (.inl hc'), hbacking⟩
      · exact ⟨c, length, getElem?_concat_eq_some.mpr (.inr ⟨SpaceId.heap.inj hj, rfl⟩), hbacking⟩

theorem Holding.concat {items : List Item} {c : Controller} (h : Holding items m)
    (hheap : ∀ space length, c.backing = .heap space length →
      space.Lends (Item.rangesIn (.heap m.controllers.length) items)) :
    Holding items (m.concat c) := by
  refine ⟨h.silent, h.memory, h.translation, h.untranslated, ?_, ?_⟩
  · intro id space hid
    rcases Machine.has_concat.mp hid with hid | ⟨rfl, length, hbacking⟩
    · exact h.spaces id space hid
    · exact hheap space length hbacking
  · intro id hne
    obtain ⟨space, hid⟩ := h.placed id hne
    exact ⟨space, Machine.has_concat.mpr (.inl hid)⟩

theorem Geometry.concat {c : Controller} (h : Geometry m) (hstrategy : c.strategy = m.strategy)
    (hheap : ∀ space length, c.backing = .heap space length →
      space.base = 0 ∧ space.length ≤ m.hardware.vram.length) : Geometry (m.concat c) := by
  refine ⟨h.translation, h.memory, h.shared, ?_, ?_⟩
  · intro j space hid
    rcases Machine.has_concat.mp hid with hid | ⟨-, length, hbacking⟩
    · exact h.heap j space hid
    · exact hheap space length hbacking
  · intro j c' hc'
    rcases getElem?_concat_eq_some.mp hc' with hc' | ⟨-, rfl⟩
    · exact h.strategy j c' hc'
    · exact hstrategy

/-! ## Steps that undo themselves -/

/-- What was undone is as before the step that faulted, and the fault stays. -/
theorem Action.run_orUndo_of_error {π : Type} {act : Action π α} {undo : Action π Unit} {f : Fault}
    {m₁ m₂ m₃ : Machine π} (h : act m₁ = .error f m₂) (hundo : undo m₂ = .ok () m₃) :
    orUndo act undo m₁ = .error f m₃ := by
  simp only [orUndo, h, hundo]

/-- A guarded step that fails is undone. -/
theorem Tries.guarding {P F F' : Machine Device → Prop} {Q : α → Machine Device → Prop}
    {act : Action Device (Except Error α)} {undo : Action Device Unit} (h : Tries P act Q F')
    (hundo : ∀ m, F' m → ∃ m', undo m = .ok () m' ∧ F m') :
    Tries P (Action.guarding undo act) Q F := by
  intro m hm
  unfold Action.guarding
  cases hact : act m with
  | ok answer m₁ =>
    rw [run_bind_of_ok (Action.run_orUndo_of_ok hact undo)]
    cases answer with
    | ok a => exact h.of_ok hm hact
    | error cause =>
      obtain ⟨m₂, hback, h₂⟩ := hundo m₁ (h.of_refused hm hact)
      dsimp only
      rw [run_bind_of_ok hback]
      exact h₂
  | error f m₁ =>
    obtain ⟨m₂, hback, h₂⟩ := hundo m₁ (h.of_error hm hact)
    rw [run_bind_of_error (Action.run_orUndo_of_error hact hback)]
    exact h₂

namespace Accounts

/-- A new object is zeroed, or freed if that faults. -/
theorem zero (object : InstanceObject) (zeroed : Bool) :
    Tries (Accounts roster (object :: live))
      (do
        if zeroed then Action.orUndo (Action.fill object 0) (Action.free object)
        return .ok object : Action Device _)
      (fun o m => Accounts roster (o :: live) m ∧ o = object)
      (Accounts roster live) := by
  intro m h
  by_cases hz : zeroed = true
  · rw [if_pos hz]
    cases hfill : (Action.fill object 0 : Action Device _) m with
    | ok a m₁ =>
      rw [run_bind_of_ok (Action.run_orUndo_of_ok hfill _)]
      exact ⟨h.of_books ((Action.books_fill object 0).of_ok rfl hfill), rfl⟩
    | error f m₁ =>
      have h₁ := h.of_books ((Action.books_fill object 0).of_error rfl hfill)
      obtain ⟨m₂, hfree, -, h₂⟩ := h₁.free
      rw [run_bind_of_error (Action.run_orUndo_of_error hfill hfree)]
      exact h₂
  · rw [if_neg hz]
    exact ⟨h, rfl⟩

theorem make (hi : i < roster.length) (size align : Nat) (zeroed : Bool) :
    Tries (Accounts roster live) (Action.make i size align zeroed : Action Device _)
      (fun object m => Accounts roster (object :: live) m ∧ object.owner = i)
      (Accounts roster live) := by
  intro m h
  unfold Action.make
  rcases h.place hi size align with ⟨cause, m₁, hcause, -, h₁⟩ | ⟨object, m₁, hobject, -, h₁, howner⟩
  · rw [run_bind_of_ok hcause]
    exact h₁
  · rw [run_bind_of_ok hobject]
    exact (zero object zeroed).weaken (fun o m h => ⟨h.1, h.2 ▸ howner⟩) (fun _ h => h) m₁ h₁

/-- **An allocation adds its object to the accounts, or leaves them as they are.** -/
theorem allocate (hi : i < roster.length) (size align : Nat) (zeroed : Bool) :
    Tries (Accounts roster live) (Action.allocate i size align zeroed : Action Device _)
      (fun object m => Accounts roster (object :: live) m ∧ object.owner = i)
      (Accounts roster live) := by
  intro m h
  unfold Action.allocate
  rw [run_get_bind]
  cases hphase : (m.controller i).phase with
  | suspended => exact h
  | constructed => exact make hi size align zeroed m h
  | initialized => exact make hi size align zeroed m h

/-- What comes after an allocation has the object, which is freed if it fails. -/
theorem withAllocated {Q : α → Machine Device → Prop} (hi : i < roster.length) (size : Nat)
    (zeroed : Bool) {next : InstanceObject → Action Device (Except Error α)}
    (hnext : ∀ object, object.owner = i → Tries (Accounts roster (object :: live)) (next object) Q
      (Accounts roster (object :: live))) :
    Tries (Accounts roster live) (Action.withAllocated i size zeroed next) Q
      (Accounts roster live) := by
  intro m h
  have hallocate := @allocate roster live i hi size 0 zeroed
  unfold Action.withAllocated
  cases hact : (Action.allocate i size 0 zeroed : Action Device _) m with
  | error f m₁ =>
    rw [run_bind_of_error hact]
    exact hallocate.of_error h hact
  | ok answer m₁ =>
    rw [run_bind_of_ok hact]
    cases answer with
    | error cause => exact hallocate.of_refused h hact
    | ok object =>
      obtain ⟨h₁, howner⟩ := hallocate.of_ok h hact
      refine (hnext object howner).guarding ?_ m₁ h₁
      intro m h
      obtain ⟨m', hfree, -, h'⟩ := h.free
      exact ⟨m', hfree, h'⟩

/-- The firmware structures are where the layout says, or the construction fails. -/
theorem expectFirmware {vbios ramht ramro ramfc : InstanceObject} (layout : ReservedLayout)
    (howner : ∀ o ∈ [vbios, ramht, ramro, ramfc], o.owner = i) :
    Tries (Accounts roster (ramfc :: ramro :: ramht :: vbios :: live))
      (do
        Action.expectAt vbios layout.vbios
        Action.expectAt ramht layout.ramht
        Action.expectAt ramro layout.ramro
        Action.expectAt ramfc layout.ramfc
        return .ok ⟨vbios, ramht, ramro, ramfc⟩ : Action Device (Except Error FirmwareObjects))
      (fun firmware m => Accounts roster (firmware.toList ++ live) m ∧
        ∀ o ∈ firmware.toList, o.owner = i)
      (Accounts roster (ramfc :: ramro :: ramht :: vbios :: live)) := by
  refine Tries.lift_bind _ (fun _ h => h) fun _ => Tries.lift_bind _ (fun _ h => h) fun _ =>
    Tries.lift_bind _ (fun _ h => h) fun _ => Tries.lift_bind _ (fun _ h => h) fun _ => ?_
  intro m h
  have hreverse := List.reverse_perm [vbios, ramht, ramro, ramfc]
  exact ⟨h.perm (hreverse.append_right live), howner⟩

/-- **The firmware structures are placed all or none.** -/
theorem placeFirmware (hi : i < roster.length) (layout : ReservedLayout) :
    Tries (Accounts roster live) (Action.placeFirmware i layout : Action Device _)
      (fun firmware m => Accounts roster (firmware.toList ++ live) m ∧
        ∀ o ∈ firmware.toList, o.owner = i)
      (Accounts roster live) := by
  unfold Action.placeFirmware
  refine withAllocated hi _ _ fun vbios hvbios => withAllocated hi _ _ fun ramht hramht =>
    withAllocated hi _ _ fun ramro hramro => withAllocated hi _ _ fun ramfc hramfc => ?_
  apply expectFirmware
  simp only [List.forall_mem_cons, hvbios, hramht, hramro, hramfc, List.not_mem_nil,
    false_implies, implies_true, and_self]

/-! ## Controllers come and go -/

/-- A notice with a text is noted. -/
theorem note (h : Accounts roster live m) {n : Notice} {text : String} (hn : n.text = .ok text) :
    ∃ m', Action.note n m = .ok () m' ∧ Accounts roster live m' := by
  obtain ⟨m', hnote, h'⟩ := h.during.note hn
  exact ⟨m', hnote, h.of_during h'⟩

/-- A change of a record that leaves the backing and the count alone keeps the accounts. -/
theorem mapController {f : Controller → Controller} {roster' : List (Option FirmwareObjects)}
    (h : Accounts roster live m) (hbacking : ∀ c, (f c).backing = c.backing)
    (hlive : ∀ c, (f c).live = c.live) (hlength : roster'.length = roster.length)
    (hroster : (m.mapController i f).roster = roster') :
    Accounts roster' live (m.mapController i f) := by
  refine ⟨h.holding.mapController hbacking, ?_, hroster, ?_, ?_⟩
  · refine ⟨h.geometry.translation, h.geometry.memory, ?_, ?_, ?_⟩
    · intro space hid
      exact h.geometry.shared space ((Machine.has_mapController hbacking).mp hid)
    · intro j space hid
      exact h.geometry.heap j space ((Machine.has_mapController hbacking).mp hid)
    · intro j c' hc'
      rw [Machine.getElem?_mapController, Option.map_eq_some_iff] at hc'
      obtain ⟨c, hc, rfl⟩ := hc'
      have hstrategy := h.geometry.strategy j c hc
      split
      · exact (congrArg Backing.strategy (hbacking c)).trans hstrategy
      · exact hstrategy
  · intro j c' hc'
    rw [Machine.getElem?_mapController, Option.map_eq_some_iff] at hc'
    obtain ⟨c, hc, rfl⟩ := hc'
    have hcounted := h.counted j c hc
    split
    · exact (hlive c).trans hcounted
    · exact hcounted
  · rw [hlength]
    exact h.made

theorem firmware_controller (h : Accounts roster live m) (i : Nat) :
    (m.controller i).firmware = roster[i]?.join := by
  rw [← h.listed]
  exact m.firmware_controller i

/-- A controller without its firmware structures, or with others. -/
theorem setFirmware (h : Accounts roster live m) (firmware : Option FirmwareObjects) :
    Accounts (roster.set i firmware) live
      (m.mapController i fun c => { c with firmware }) := by
  refine h.mapController (fun _ => rfl) (fun _ => rfl) List.length_set ?_
  rw [← h.listed, Machine.roster_setFirmware]

/-- **The firmware structures on the record of a controller are freed.** -/
theorem freeFirmware
    (h : Accounts roster (FirmwareObjects.listed roster[i]?.join ++ live) m) :
    ∃ m', Action.freeFirmware i m = .ok () m' ∧ Accounts (roster.set i none) live m' := by
  unfold Action.freeFirmware
  rw [run_get_bind, h.firmware_controller]
  cases hplaced : roster[i]?.join with
  | none =>
    have hsame : roster.set i none = roster := by
      apply List.ext_getElem?
      intro j
      rw [List.getElem?_set]
      by_cases hij : i = j
      · subst hij
        cases hi : roster[i]? with
        | none =>
          have hge := Nat.not_lt.mpr (List.getElem?_eq_none_iff.mp hi)
          simp only [↓reduceIte, hge]
        | some firmware =>
          have hlt := (List.getElem?_eq_some_iff.mp hi).1
          rw [hi] at hplaced
          simp only [↓reduceIte, hlt]
          exact congrArg some hplaced.symm
      · simp only [hij, ↓reduceIte]
    rw [hplaced] at h
    exact ⟨m, rfl, hsame.symm ▸ h⟩
  | some firmware =>
    rw [hplaced] at h
    have hreverse : (firmware.toList ++ live).Perm
        (firmware.ramfc :: firmware.ramro :: firmware.ramht :: firmware.vbios :: live) :=
      (List.reverse_perm firmware.toList).symm.append_right live
    have hclear : Action.onController i (fun c => { c with firmware := none }) m =
        .ok () (m.mapController i fun c => { c with firmware := none }) := rfl
    obtain ⟨m₁, hramfc, -, h₁⟩ := ((h.perm hreverse).setFirmware (i := i) none).free
    obtain ⟨m₂, hramro, -, h₂⟩ := h₁.free
    obtain ⟨m₃, hramht, -, h₃⟩ := h₂.free
    obtain ⟨m₄, hvbios, -, h₄⟩ := h₃.free
    dsimp only
    rw [run_bind_of_ok hclear, run_bind_of_ok hramfc, run_bind_of_ok hramro,
      run_bind_of_ok hramht]
    exact ⟨m₄, hvbios, h₄⟩

theorem dismiss (h : Accounts roster live m) :
    ∃ m', Action.dismiss i m = .ok () m' ∧ Accounts roster live m' := by
  obtain ⟨m₁, hnote, h₁⟩ := h.note (n := .destroyed) rfl
  unfold Action.dismiss
  rw [run_bind_of_ok hnote]
  refine ⟨_, rfl, h₁.mapController (fun _ => rfl) (fun _ => rfl) rfl ?_⟩
  refine Eq.trans (Machine.map_mapController ?_) h₁.listed
  intro c _
  rfl

/-- **A teardown frees the firmware structures** and nothing else. -/
theorem teardown (h : Accounts roster (FirmwareObjects.listed roster[i]?.join ++ live) m) :
    ∃ m', Action.teardown i m = .ok () m' ∧ Accounts (roster.set i none) live m' := by
  obtain ⟨m₁, hfree, h₁⟩ := h.freeFirmware
  unfold Action.teardown
  rw [run_bind_of_ok hfree, run_get_bind]
  dsimp only
  split
  · obtain ⟨m₂, hnote, h₂⟩ := h₁.note
      (n := .survivors (m₁.controller i).live (m₁.controller i).strategy) rfl
    rw [run_bind_of_ok hnote]
    exact h₂.dismiss
  · exact h₁.dismiss

/-- No object of a controller that is not there yet is alive. -/
theorem owner_ne (h : Accounts roster live m) {o : InstanceObject} (ho : o ∈ live) :
    o.owner ≠ roster.length := Nat.ne_of_lt (h.made o ho).2.1

/-- Nothing is held of the heap of a controller that is not there yet. -/
theorem rangesIn_heap_length (h : Accounts roster live m) :
    Item.rangesIn (.heap roster.length) (live.flatMap (·.items)) = [] := by
  rw [Item.rangesIn, List.filterMap_flatMap]
  apply List.flatMap_eq_nil_iff.mpr
  intro o ho
  have hranges := o.rangesIn_heap_items roster.length
  unfold Item.rangesIn at hranges
  rw [hranges]
  unfold InstanceObject.heapRanges
  split
  · exact if_neg (h.owner_ne ho)
  · rfl
  · rfl

/-- **A new controller joins without objects.** -/
theorem addController (h : Accounts roster live m) {c : Controller} (hlive : c.live = 0)
    (hfirmware : c.firmware = none) (hstrategy : c.strategy = m.strategy)
    (hheap : ∀ space length, c.backing = .heap space length →
      space.Lends [] ∧ space.base = 0 ∧ space.length ≤ m.hardware.vram.length) :
    ∃ m', Action.addController c m = .ok roster.length m' ∧
      Accounts (roster ++ [none]) live m' ∧ m'.books.hardware = m.books.hardware := by
  have hlength := h.length_controllers
  refine ⟨m.concat c, ?_, ⟨?_, ?_, ?_, ?_, ?_⟩, rfl⟩
  · rw [← hlength]
    rfl
  · refine h.holding.concat fun space length hbacking => ?_
    rw [hlength, h.rangesIn_heap_length]
    exact (hheap space length hbacking).1
  · exact h.geometry.concat hstrategy fun space length hbacking => (hheap space length hbacking).2
  · rw [Machine.roster, Machine.concat, List.map_append, List.map_singleton, hfirmware, ← h.listed,
      Machine.roster]
  · intro j c' hc'
    rcases getElem?_concat_eq_some.mp hc' with hc' | ⟨hj, rfl⟩
    · exact h.counted j c' hc'
    · rw [hlive]
      refine (List.countP_eq_zero.mpr ?_).symm
      intro o ho
      have hne : o.owner ≠ j := by
        rw [hj, hlength]
        exact h.owner_ne ho
      simp only [beq_iff_eq, hne, not_false_eq_true]
  · intro o ho
    obtain ⟨hmade, howner, hstrategy⟩ := h.made o ho
    refine ⟨hmade, ?_, hstrategy⟩
    rw [List.length_append]
    exact Nat.lt_add_right _ howner

end Accounts

/-! ## Building a controller -/

/-- An action that keeps a property comes first. -/
theorem Tries.keeps_bind {β : Type} {P : Machine Device → Prop} {Q : α → Machine Device → Prop}
    {act : Action Device β} {next : β → Action Device (Except Error α)} (hact : Keeps P act)
    (hnext : ∀ b, Tries P (next b) Q P) : Tries P (act >>= next) Q P := by
  intro m hm
  cases hrun : act m with
  | ok b m₁ =>
    rw [run_bind_of_ok hrun]
    exact hnext b m₁ (hact.of_ok hm hrun)
  | error f m₁ =>
    rw [run_bind_of_error hrun]
    exact hact.of_error hm hrun

/-- A heap that fits the dedicated memory, with nothing placed in it. -/
def Backing.IsFreshHeap (backing : Backing) (m : Machine Device) : Prop :=
  ∃ space length, backing = .heap space length ∧ space.Lends [] ∧ space.base = 0 ∧
    space.length ≤ m.hardware.vram.length

theorem Backing.ofReserved_eq_ok {reserved length : Nat} {backing : Backing}
    (h : ofReserved reserved length = .ok backing) (hlength : reserved ≤ m.hardware.vram.length) :
    backing.IsFreshHeap m := by
  unfold ofReserved at h
  cases hspace : RangeSpace.create "instmem heap" 0 reserved pageSize with
  | error cause =>
    rw [hspace] at h
    cases h
  | ok space =>
    rw [hspace] at h
    cases h
    have hlends := RangeSpace.Lends.of_create hspace
    obtain ⟨rfl, -⟩ := RangeSpace.create_eq_ok hspace
    exact ⟨_, length, rfl, hlends, rfl, hlength⟩

/-- The aperture is as long as the dedicated memory. -/
theorem Action.mapBar_spec {books : Machine Device} (bar : Nat) (hm : m.books = books) :
    ∃ answer m', Action.mapBar bar m = .ok answer m' ∧ m'.books = books ∧
      ∀ length ∈ answer, length = m'.hardware.vram.length := by
  have hrecord : ∃ m₁, Action.record (.mapBar bar) m = .ok () m₁ := by
    unfold Action.record
    split <;> exact ⟨_, rfl⟩
  obtain ⟨m₁, hm₁⟩ := hrecord
  unfold Action.mapBar
  rw [run_bind_of_ok hm₁]
  refine ⟨m₁.hardware.mapBar bar, m₁, rfl, (books_record _).of_ok hm hm₁, ?_⟩
  intro length hlength
  unfold Device.mapBar at hlength
  split at hlength
  · cases hlength
  · exact (Option.some.inj hlength).symm

/-- The reserved heap fits the aperture, and nothing is taken while it is sized. -/
theorem Action.reserveHeap_spec {books : Machine Device} (chipset : ChipsetInfo) :
    Tries (Machine.books · = books) (Action.reserveHeap chipset : Action Device _)
      (fun reserved m => m.books = books ∧ reserved.1.IsFreshHeap m)
      (Machine.books · = books) := by
  unfold Action.reserveHeap
  split
  · intro _ hm
    exact hm
  · refine Tries.keeps_bind ((books_record _).bind fun _ => keeps_get_bind fun _ hm => hm) ?_
    intro _
    dsimp only
    intro m hm
    obtain ⟨answer, m₁, hmap, h₁, hlength⟩ := mapBar_spec _ hm
    rw [run_bind_of_ok hmap]
    cases answer with
    | none => exact Tries.keeps_bind (books_note _) (fun _ _ hm => hm) m₁ h₁
    | some length =>
      dsimp only
      refine Tries.keeps_bind (P := (Machine.books · = books)) (books_readRegister _)
        (fun _ => Tries.lift_bind _ (fun _ h => h) ?_) m₁ h₁
      intro layout
      have hvram : ∀ m : Machine Device, m.books = books →
          m₁.hardware.vram.length = m.hardware.vram.length := fun m hm =>
        congrArg (·.hardware.vram.length) (h₁.trans hm.symm)
      by_cases hshort : length < layout.reserved
      · rw [if_pos hshort]
        intro _ hm
        exact hm
      · rw [if_neg hshort]
        refine Tries.keeps_bind (books_note _) fun _ => ?_
        intro m hm
        cases hbacking : Backing.ofReserved layout.reserved length with
        | error cause => exact hm
        | ok backing =>
          refine ⟨hm, Backing.ofReserved_eq_ok hbacking ?_⟩
          rw [← hvram m hm, ← hlength length rfl]
          exact Nat.le_of_not_lt hshort

namespace Accounts

/-- The firmware structures of the newest controller are put on its record. -/
theorem setNewest (h : Accounts (roster ++ [none]) live m) (firmware : Option FirmwareObjects) :
    Accounts (roster ++ [firmware]) live
      (m.mapController roster.length fun c => { c with firmware }) := by
  have hset : (roster ++ [none]).set roster.length firmware = roster ++ [firmware] := by
    rw [List.set_append_right _ _ (Nat.le_refl _), Nat.sub_self]
    rfl
  exact hset ▸ h.setFirmware firmware

/-- The newest controller has no firmware structures yet. -/
theorem listedNewest (h : Accounts (roster ++ [none]) live m) :
    Accounts (roster ++ [none])
      (FirmwareObjects.listed (roster ++ [none])[roster.length]?.join ++ live) m := by
  rw [List.getElem?_concat_length]
  exact h

/-- A new controller without objects can be destroyed. -/
theorem teardownNewest (h : Accounts (roster ++ [none]) live m) :
    ∃ m', Action.teardown roster.length m = .ok () m' ∧ Accounts (roster ++ [none]) live m' := by
  obtain ⟨m', hteardown, h'⟩ := h.listedNewest.teardown
  rw [List.set_append_right _ _ (Nat.le_refl _), Nat.sub_self] at h'
  exact ⟨m', hteardown, h'⟩

/-- A new controller gets its firmware structures, or stays without any object. -/
theorem furnish (roster : List (Option FirmwareObjects)) (layout : ReservedLayout) :
    Tries (Accounts (roster ++ [none]) live)
      (do
        match ← Action.placeFirmware roster.length layout with
        | .error cause => return .error cause
        | .ok firmware =>
          Action.onController roster.length fun c => { c with firmware := some firmware }
          return .ok roster.length : Action Device (Except Error Nat))
      (fun i m => i = roster.length ∧ ∃ firmware : FirmwareObjects,
        Accounts (roster ++ [some firmware]) (firmware.toList ++ live) m ∧
          ∀ o ∈ firmware.toList, o.owner = i)
      (Accounts (roster ++ [none]) live) := by
  have hlt : roster.length < (roster ++ [none]).length := List.length_append ▸ Nat.lt_add_one _
  refine (placeFirmware hlt layout).bind ?_ fun cause => tries_error cause fun _ h => h
  rintro firmware m ⟨h, howner⟩
  exact ⟨rfl, firmware, h.setNewest (some firmware), howner⟩

/-- **A new controller gets its firmware structures, or ends without any object.** -/
theorem equip (roster : List (Option FirmwareObjects)) (layout : ReservedLayout) :
    Tries (Accounts (roster ++ [none]) live) (Action.equip roster.length layout : Action Device _)
      (fun i m => i = roster.length ∧ ∃ firmware : FirmwareObjects,
        Accounts (roster ++ [some firmware]) (firmware.toList ++ live) m ∧
          ∀ o ∈ firmware.toList, o.owner = i)
      (Accounts (roster ++ [none]) live) :=
  (furnish roster layout).guarding fun _ h => h.teardownNewest

end Accounts
end InstanceMemory
