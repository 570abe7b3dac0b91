import InstanceMemory.Proofs.Machine.Booked
import InstanceMemory.Proofs.Machine.Phases
import InstanceMemory.Proofs.Machine.Store
import InstanceMemory.Proofs.Machine.Tally
import InstanceMemory.Proofs.RangeSpace.Stocked
import InstanceMemory.Proofs.ReservedLayout

/-!
# Dedicated memory

Objects on a heap are read and written through the aperture, whatever the window shows and whatever
has become of their controller. So an access changes no word of the dedicated memory but those it is
about (`outside_writeWords`, `outside_fill`), and nothing else that is done with a machine changes any,
except that a controller which is built zeroes one of its firmware structures.

`Action.buildOnHeap_lays` tells which words these are. A new heap is filled from its start, so the
structures come to lie one behind the other at the bottom of it, and the zeros go to the last of them.
All objects that callers make later lie behind them (`firmwareEnd`).
-/

set_option autoImplicit false

namespace InstanceMemory

open Simulator (Device Vram)

variable {α β : Type} {m m' : Machine Device} {o : InstanceObject} {r : AddressRange}
  {words : Nat → UInt32} {address offset : Nat} {value : UInt32}

/-- The addresses of an object. -/
def InstanceObject.extent (o : InstanceObject) : AddressRange := ⟨o.offset, o.size⟩

/-- The addresses of the words of an access. -/
def Access.extent (a : Access) : AddressRange := ⟨a.object.offset + a.offset, a.words * wordSize⟩

/-- Outside a range the dedicated memory has the words that are given. -/
def Outside (r : AddressRange) (words : Nat → UInt32) (m : Machine Device) : Prop :=
  ∀ x, ¬ r.Holds x → m.hardware.vram.read x = words x

/-! ## What does not change -/

theorem Outside.of_vram (h : Outside r words m) (hvram : m'.hardware.vram = m.hardware.vram) :
    Outside r words m' := by
  intro x hx
  rw [hvram]
  exact h x hx

theorem Machine.vram_of_store (h : m'.store = m.store) : m'.hardware.vram = m.hardware.vram :=
  congrArg (·.hardware.vram) h

/-- What leaves the store alone leaves the dedicated memory alone. -/
theorem outside_of_store {act : Action Device α} (h : ∀ store, Keeps (Machine.store · = store) act) :
    Keeps (Outside r words) act :=
  fun m hm => hm.of_vram (Machine.vram_of_store (h _ m rfl))

theorem outside_record (call : Call) : Keeps (Outside r words) (Action.record call) :=
  Action.keeps_record (fun _ _ h => h) call

/-! No request for another phase touches the dedicated memory. -/

theorem outside_phaseless : Phaseless (Outside r words) := fun _ _ _ _ _ h => h

theorem outside_readRegister (register : Nat) :
    Keeps (Outside r words) (Action.readRegister register) := by
  have hserve : Keeps (Outside r words) (Action.serveInterrupt : Action Device Unit) := by
    apply keeps_get_bind
    intro m h
    cases m.interrupt with
    | none => exact h
    | some i =>
      refine Keeps.bind (P := Outside r words) (keeps_modify ?_) ?_ m h
      · intro m h
        exact h
      · intro _
        apply keeps_get_bind
        intro m h
        split
        · exact (outside_phaseless.suspend i).bind (fun _ => outside_record _) m h
        · exact h
  have hread : Keeps (Outside r words) (Action.onHardware (Platform.readRegister register)) := by
    apply Action.keeps_onHardware
    intro m h
    rwa [Action.leaves_platform_readRegister]
  exact hserve.bind fun _ => hread.bind fun _ => (outside_record _).bind fun _ => keeps_pure _

/-! ## Accesses through the aperture -/

/-- A write to the dedicated memory changes no word at another address. -/
theorem Simulator.Vram.read_write_of_ne (vram : Vram) {place other : Nat} (value : UInt32)
    (h : other ≠ place) : (vram.write place value).read other = vram.read other := by
  cases hword : vram.word? place with
  | none => simp only [write, hword]
  | some word => rw [vram.read_write other value (hword ▸ rfl), if_neg h]

theorem outside_writeAperture (h : r.Holds address) (value : UInt32) :
    Keeps (Outside r words) (Action.writeAperture address value) := by
  have hwrite : Keeps (Outside r words) (Action.onHardware fun d : Device =>
      .ok () (Platform.writeAperture d address value)) := by
    apply Action.keeps_onHardware
    intro m hm x hx
    have hne : x ≠ address := fun heq => hx (heq ▸ h)
    exact (m.hardware.vram.read_write_of_ne value hne).trans (hm x hx)
  exact hwrite.bind fun _ => outside_record _

section

variable (hheap : o.strategy = .heap)

include hheap

theorem outside_readWord (offset : Nat) : Keeps (Outside r words) (Action.readWord o offset) := by
  unfold Action.readWord
  refine (keeps_lift _).bind ?_
  intro address
  rw [hheap]
  exact keeps_get_bind fun m h => (outside_record _).bind (fun _ => keeps_pure _) m h

theorem outside_writeWord (h : r.Holds (o.offset + offset)) (value : UInt32) :
    Keeps (Outside r words) (Action.writeWord o offset value) := by
  unfold Action.writeWord
  cases haddress : checkedAdd o.offset offset with
  | error f => exact fun _ hm => hm
  | ok address =>
    obtain ⟨rfl, -⟩ := checkedAdd_eq_ok_iff.mp haddress
    intro m hm
    rw [leaves_bind_of_ok (run_lift_of_ok rfl m), hheap]
    exact outside_writeAperture h value m hm

/-- Writing words one by one changes none but those from the offset on, as many as there are values,
**even if it faults half way**. -/
theorem outside_writeFrom (values : List UInt32)
    (h : ∀ x, o.offset + offset ≤ x → x < o.offset + offset + values.length * wordSize → r.Holds x) :
    Keeps (Outside r words) (Action.writeFrom o values offset) := by
  induction values generalizing offset with
  | nil => exact keeps_pure _
  | cons value rest ih =>
    rw [List.length_cons, Nat.succ_mul] at h
    have hfirst : r.Holds (o.offset + offset) :=
      h _ (Nat.le_refl _) (Nat.lt_add_of_pos_right (Nat.add_pos_right _ (by decide)))
    refine (outside_writeWord hheap hfirst value).bind fun _ => ?_
    cases hnext : checkedAdd offset wordSize with
    | error f => exact fun _ hm => hm
    | ok next =>
      obtain ⟨rfl, -⟩ := checkedAdd_eq_ok_iff.mp hnext
      intro m hm
      rw [leaves_bind_of_ok (run_lift_of_ok rfl m)]
      exact ih (fun x hle hlt => h x (by omega) (by omega)) m hm

theorem outside_fillFrom (value : UInt32) (count : Nat)
    (h : ∀ x, o.offset + offset ≤ x → x < o.offset + offset + count * wordSize → r.Holds x) :
    Keeps (Outside r words) (Action.fillFrom o value count offset) := by
  induction count generalizing offset with
  | zero => exact keeps_pure _
  | succ count ih =>
    rw [Nat.succ_mul] at h
    have hfirst : r.Holds (o.offset + offset) :=
      h _ (Nat.le_refl _) (Nat.lt_add_of_pos_right (Nat.add_pos_right _ (by decide)))
    exact (outside_writeWord hheap hfirst value).bind fun _ =>
      ih fun x hle hlt => h x (by omega) (by omega)

/-! **No access changes a word that it is not about.** One that is not aligned to words or does not lie
within its object is about none. -/

theorem outside_read32 (offset : Nat) : Keeps (Outside r words) (Action.read32 o offset) :=
  (keeps_lift _).bind fun _ => outside_readWord hheap offset

theorem outside_readWords (offset count : Nat) :
    Keeps (Outside r words) (Action.readWords o offset count) :=
  Action.keeps_readWords (outside_readWord hheap) offset count

theorem outside_write32 (offset : Nat) (value : UInt32)
    (h : ∀ a ∈ o.access? offset 1, a.extent = r) :
    Keeps (Outside r words) (Action.write32 o offset value) := by
  by_cases hfits : o.Fits offset 1
  · obtain rfl := h ⟨o, offset, 1⟩ (if_pos hfits)
    have hword : (Access.extent ⟨o, offset, 1⟩).Holds (o.offset + offset) := AddressRange.holds_base
      (Nat.mul_pos Nat.one_pos (by decide))
    exact (keeps_lift _).bind fun _ => outside_writeWord hheap hword value
  · intro m hm
    rwa [Action.write32, InstanceObject.leaves_of_not_fits hfits]

theorem outside_writeWords (offset : Nat) (values : List UInt32)
    (h : ∀ a ∈ o.access? offset values.length, a.extent = r) :
    Keeps (Outside r words) (Action.writeWords o offset values) := by
  by_cases hfits : o.Fits offset values.length
  · obtain rfl := h ⟨o, offset, values.length⟩ (if_pos hfits)
    exact (keeps_lift _).bind fun _ =>
      outside_writeFrom hheap values fun _ hle hlt => ⟨hle, hlt⟩
  · intro m hm
    rwa [Action.writeWords, InstanceObject.leaves_of_not_fits hfits]

theorem outside_fill (value : UInt32) :
    Keeps (Outside o.wholly.extent words) (Action.fill o value) :=
  outside_fillFrom hheap value o.words fun _ hle hlt => ⟨hle, hlt⟩

end

/-! ## Steps that may fail -/

/-- What was taken before a step that may fail is given back if it fails. -/
theorem Tries.guarding_of_keeps {P F : Machine Device → Prop} {Q : α → Machine Device → Prop}
    {act : Action Device (Except Error α)} {undo : Action Device Unit} (h : Tries P act Q F)
    (hundo : Keeps F undo) : Tries P (Action.guarding undo act) Q F := by
  have hguarded : Tries P (Action.orUndo act undo) Q F := by
    rw [tries_iff_ends] at h ⊢
    intro m hm
    exact Action.ends_orUndo (h m hm) fun _ hm' => .of_keeps hundo hm'
  unfold Action.guarding
  refine hguarded.bind (fun a m hm => hm) fun cause => ?_
  exact .bind_of_keeps hundo (fun _ h => h) fun _ => tries_error cause fun _ h => h

/-! ## Making objects one after the other -/

/-- A machine with a configuration and a roster, whose dedicated memory has the words that are given
outside a range. -/
structure Sparing (config : Simulator.Config) (roster : List (Option FirmwareObjects))
    (r : AddressRange) (words : Nat → UInt32) (m : Machine Device) : Prop where
  config : m.hardware.config = config
  roster : m.roster = roster
  outside : Outside r words m

/-- And the heap of a controller is stocked up to an address. -/
structure Stocking (config : Simulator.Config) (roster : List (Option FirmwareObjects))
    (r : AddressRange) (words : Nat → UInt32) (i below : Nat) (m : Machine Device) : Prop
    extends Sparing config roster r words m where
  heap : ∃ space, m.Has (.heap i) space ∧ Stocked below space

section

variable {config : Simulator.Config} {roster : List (Option FirmwareObjects)} {i below size : Nat}

theorem Machine.roster_mapController {f : Controller → Controller}
    (h : ∀ c, (f c).firmware = c.firmware) (m : Machine Device) (i : Nat) :
    (m.mapController i f).roster = m.roster := map_mapController fun c _ => h c

theorem Machine.roster_setSpace (m : Machine Device) (id : SpaceId) (next : RangeSpace) :
    (m.setSpace id next).roster = m.roster := by
  cases id with
  | shared => rfl
  | heap i =>
    refine roster_mapController (fun c => ?_) m i
    cases c.backing <;> rfl

theorem Machine.hardware_setSpace (m : Machine Device) (id : SpaceId) (next : RangeSpace) :
    (m.setSpace id next).hardware = m.hardware := by
  cases id <;> rfl

namespace Sparing

theorem keeps_note (n : Notice) : Keeps (Sparing config roster r words) (Action.note n) :=
  Action.keeps_note (fun _ _ h => ⟨h.config, h.roster, h.outside⟩) n

theorem keeps_record (call : Call) : Keeps (Sparing config roster r words) (Action.record call) :=
  Action.keeps_record (fun _ _ h => ⟨h.config, h.roster, h.outside⟩) call

theorem mapController {f : Controller → Controller} (h : Sparing config roster r words m)
    (hf : ∀ c, (f c).firmware = c.firmware) (i : Nat) :
    Sparing config roster r words (m.mapController i f) :=
  ⟨h.config, (Machine.roster_mapController hf m i).trans h.roster, h.outside⟩

theorem setSpace (h : Sparing config roster r words m) (id : SpaceId) (next : RangeSpace) :
    Sparing config roster r words (m.setSpace id next) := by
  have hhardware := m.hardware_setSpace id next
  refine ⟨?_, (m.roster_setSpace id next).trans h.roster, h.outside.of_vram ?_⟩
  · rw [hhardware]
    exact h.config
  · rw [hhardware]

theorem keeps_release (id : SpaceId) (range : AddressRange) :
    Keeps (Sparing config roster r words) (Action.release id range) := by
  apply keeps_get_bind
  intro m h
  dsimp only
  cases m.space? id with
  | none => exact h
  | some space =>
    dsimp only
    cases hrelease : space.release range m.journal with
    | error f => exact h
    | ok released =>
      obtain ⟨next, journal⟩ := released
      have hset := h.setSpace id next
      exact keeps_record _ { m.setSpace id next with journal } ⟨hset.config, hset.roster, hset.outside⟩

/-- Giving a heap object back changes no word. -/
theorem keeps_free {range : AddressRange} (hresource : o.resource = .heap range) :
    Keeps (Sparing config roster r words) (Action.free o) := by
  unfold Action.free
  rw [hresource]
  refine Action.keeps_andFinally (keeps_release _ _) fun m h => h.mapController ?_ o.owner
  intro c
  rfl

/-- What leaves the books alone changes only words. -/
theorem of_books (h : Sparing config roster r words m) (hbooks : m'.books = m.books)
    (houtside : Outside r words m') : Sparing config roster r words m' :=
  ⟨(congrArg (·.hardware.config) hbooks).trans h.config,
    (Machine.roster_of_plan (Machine.plan_of_books hbooks)).trans h.roster, houtside⟩

end Sparing

namespace Stocking

theorem keeps_note (n : Notice) :
    Keeps (Stocking config roster r words i below) (Action.note n) :=
  Action.keeps_note (fun _ _ h => ⟨⟨h.config, h.roster, h.outside⟩, h.heap⟩) n

theorem keeps_record (call : Call) :
    Keeps (Stocking config roster r words i below) (Action.record call) :=
  Action.keeps_record (fun _ _ h => ⟨⟨h.config, h.roster, h.outside⟩, h.heap⟩) call

/-- The controller of a heap that there is places its objects there. -/
theorem strategy_eq (h : Stocking config roster r words i below m) :
    (m.controller i).strategy = .heap := by
  obtain ⟨space, ⟨c, length, hc, hbacking⟩, -⟩ := h.heap
  rw [Machine.controller_of_getElem? hc, Controller.strategy, hbacking]
  rfl

/-- **The next addresses of the heap are reserved**, or none. -/
theorem reserve (hbelow : pageSize ∣ below) (hsize : pageSize ∣ size) (hpos : 0 < size) :
    Tries (Stocking config roster r words i below)
      (Action.reserve (.heap i) size pageSize : Action Device _)
      (fun range m => range = ⟨below, size⟩ ∧ Stocking config roster r words i (below + size) m)
      (Stocking config roster r words i below) := by
  intro m h
  obtain ⟨space, hid, hstocked⟩ := h.heap
  unfold Action.reserve
  rw [run_get_bind, hid.space?]
  dsimp only
  rcases hstocked.reserve hbelow hsize hpos with ⟨-, cause, hcause⟩ | ⟨next, hnext, hmore, -⟩
  · rw [run_bind_of_ok (run_lift_of_ok hcause m)]
    exact Tries.bind_of_keeps (keeps_record _) (fun _ h => h)
      (fun _ => tries_error cause fun _ h => h) m h
  · rw [run_bind_of_ok (run_lift_of_ok hnext m)]
    dsimp only
    rw [run_modify_bind]
    have hset : Stocking config roster r words i (below + size) (m.setSpace (.heap i) next) :=
      ⟨h.toSparing.setSpace _ next, next, hid.setSpace_self next, hmore⟩
    obtain ⟨m₁, hrecord⟩ : ∃ m₁, Action.record (.reserve (.heap i) size pageSize (.ok ⟨below, size⟩))
        (m.setSpace (.heap i) next) = .ok () m₁ := by
      unfold Action.record
      split <;> exact ⟨_, rfl⟩
    rw [run_bind_of_ok hrecord]
    exact ⟨rfl, (keeps_record _).of_ok hset hrecord⟩

/-- The object that the next addresses of a heap make. -/
def next (i below size : Nat) : InstanceObject := ⟨i, below, size, false, .heap ⟨below, size⟩⟩

/-- **A request is granted at the end of the stock**, or not at all. -/
theorem place (hbelow : pageSize ∣ below) (hsize : pageSize ∣ size) (hpos : 0 < size)
    (hround : Action.pageRound size 0 = .ok (size, pageSize)) :
    Tries (Stocking config roster r words i below) (Action.place i size 0 : Action Device _)
      (fun o m => o = next i below size ∧ Stocking config roster r words i (below + size) m)
      (Sparing config roster r words) := by
  have hheap : Tries (Stocking config roster r words i below)
      (Action.placeInHeap i size pageSize : Action Device _)
      (fun o m => o = next i below size ∧ Stocking config roster r words i (below + size) m)
      (Sparing config roster r words) := by
    refine Tries.bind ((reserve hbelow hsize hpos).weaken (fun _ _ h => h) fun _ h => h.toSparing)
      (fun range => ?_) fun cause => ?_
    · rintro m ⟨rfl, h⟩
      exact ⟨rfl, h⟩
    · exact .bind_of_keeps (Sparing.keeps_note _) (fun _ h => h) fun _ => tries_error cause fun _ h => h
  intro m h
  unfold Action.place
  rw [run_get_bind, h.strategy_eq]
  refine Tries.bind_of_keeps (keeps_note _) (fun _ h => h.toSparing) (fun _ => ?_) m h
  rw [hround]
  dsimp only
  refine Tries.bind hheap (fun o => ?_) fun cause => tries_error cause fun _ h => h
  rintro m ⟨rfl, h⟩
  have hcount : ∀ m, Stocking config roster r words i (below + size) m →
      Stocking config roster r words i (below + size)
        (m.mapController i fun c => { c with live := c.live + 1 }) := by
    rintro m ⟨hsparing, space, hid, hstocked⟩
    refine ⟨hsparing.mapController ?_ i, space, (Machine.has_mapController ?_).mpr hid, hstocked⟩ <;>
      (intro c; rfl)
  refine Tries.bind_of_keeps (keeps_note _) (fun _ h => h.toSparing) (fun _ => ?_) m h
  intro m h
  exact ⟨rfl, hcount m h⟩

/-- Zeroing the object at the end of the stock changes its words. -/
theorem keeps_zeroing (hsize : pageSize ∣ size) (hr : r = ⟨below, size⟩) (stock : Nat) :
    Keeps (Stocking config roster r words i stock) (Action.fill (next i below size) 0) := by
  have hwhole : (next i below size).wholly.extent = r := by
    have hwords : size / wordSize * wordSize = size :=
      Nat.div_mul_cancel (Dvd.dvd.trans (by decide) hsize)
    simp only [hr, Access.extent, InstanceObject.wholly, InstanceObject.words, next, hwords,
      Nat.add_zero]
  intro m ⟨hsparing, space, hid, hstocked⟩
  have hbooks := Action.books_fill (next i below size) 0 m rfl
  refine ⟨hsparing.of_books hbooks ?_, space, hid.of_books hbooks.symm, hstocked⟩
  exact (hwhole ▸ outside_fill rfl 0) m hsparing.outside

/-- **An object is made at the end of the stock**, or none. -/
theorem allocate (hbelow : pageSize ∣ below) (hsize : pageSize ∣ size) (hpos : 0 < size)
    (hround : Action.pageRound size 0 = .ok (size, pageSize)) {zeroed : Bool}
    (hzeroed : zeroed = true → r = ⟨below, size⟩) :
    Tries (Stocking config roster r words i below) (Action.allocate i size 0 zeroed : Action Device _)
      (fun o m => o = next i below size ∧ Stocking config roster r words i (below + size) m)
      (Sparing config roster r words) := by
  have hmake : Tries (Stocking config roster r words i below)
      (Action.make i size 0 zeroed : Action Device _)
      (fun o m => o = next i below size ∧ Stocking config roster r words i (below + size) m)
      (Sparing config roster r words) := by
    refine Tries.bind (place hbelow hsize hpos hround) (fun o => ?_) fun cause =>
      tries_error cause fun _ h => h
    rintro m ⟨rfl, h⟩
    dsimp only
    cases hz : zeroed with
    | false => exact ⟨rfl, h⟩
    | true =>
      have hfill : Keeps (Stocking config roster r words i (below + size))
          (Action.fill (next i below size) 0) := keeps_zeroing hsize (hzeroed hz) _
      rw [if_pos rfl]
      have hzeroing : Ends (fun _ => Stocking config roster r words i (below + size))
          (Sparing config roster r words) (Action.orUndo (Action.fill (next i below size) 0)
            (Action.free (next i below size) : Action Device _) m) :=
        Action.ends_orUndo (.of_keeps hfill h) fun _ h => .of_keeps (Sparing.keeps_free rfl) h.toSparing
      cases hact : Action.orUndo (Action.fill (next i below size) 0)
          (Action.free (next i below size) : Action Device _) m with
      | ok a m₁ =>
        rw [run_bind_of_ok hact]
        exact ⟨rfl, hzeroing.of_ok hact⟩
      | error f m₁ =>
        rw [run_bind_of_error hact]
        exact hzeroing.of_error hact
  intro m h
  unfold Action.allocate
  rw [run_get_bind]
  cases (m.controller i).phase with
  | suspended => exact h.toSparing
  | constructed => exact hmake m h
  | initialized => exact hmake m h

/-- An object is made at the end of the stock, and freed if what comes after it fails. -/
theorem withAllocated (hbelow : pageSize ∣ below) (hsize : pageSize ∣ size) (hpos : 0 < size)
    (hround : Action.pageRound size 0 = .ok (size, pageSize)) {zeroed : Bool}
    (hzeroed : zeroed = true → r = ⟨below, size⟩)
    {follow : InstanceObject → Action Device (Except Error α)} {Q : α → Machine Device → Prop}
    (hfollow : Tries (Stocking config roster r words i (below + size)) (follow (next i below size)) Q
      (Sparing config roster r words)) :
    Tries (Stocking config roster r words i below) (Action.withAllocated i size zeroed follow) Q
      (Sparing config roster r words) := by
  refine Tries.bind (allocate hbelow hsize hpos hround hzeroed) (fun o => ?_) fun cause =>
    tries_error cause fun _ h => h
  rintro m ⟨rfl, h⟩
  exact hfollow.guarding_of_keeps (Sparing.keeps_free rfl) m h

end Stocking

end

/-! ## The firmware structures -/

open ReservedLayout (vbiosSize ramhtSize ramroSize ramfcSize)

/-- The addresses of the firmware structure that is zeroed when it is made. -/
def zeroedFirmware : AddressRange := ⟨vbiosSize + ramhtSize + ramroSize, ramfcSize⟩

/-- The address behind the firmware structures. -/
def firmwareEnd : Nat := zeroedFirmware.limit

/-- The firmware structures of a controller, one behind the other from the start of its heap. -/
def FirmwareObjects.laid (i : Nat) : FirmwareObjects where
  vbios := Stocking.next i 0 vbiosSize
  ramht := Stocking.next i vbiosSize ramhtSize
  ramro := Stocking.next i (vbiosSize + ramhtSize) ramroSize
  ramfc := Stocking.next i (vbiosSize + ramhtSize + ramroSize) ramfcSize

/-- Every address before their end lies in one of the structures, and no other does. -/
theorem FirmwareObjects.exists_laid_holds (i x : Nat) :
    (∃ o ∈ (laid i).toList, o.extent.Holds x) ↔ x < firmwareEnd := by
  simp only [toList, laid, List.mem_cons, List.not_mem_nil, or_false, exists_eq_or_imp, exists_eq_left,
    Stocking.next, InstanceObject.extent, AddressRange.Holds, AddressRange.limit, firmwareEnd,
    zeroedFirmware]
  unfold vbiosSize ramhtSize ramroSize ramfcSize
  omega

section

variable {config : Simulator.Config} {roster : List (Option FirmwareObjects)} {i : Nat}

/-- **The firmware structures are laid one behind the other**, and only the last of them is zeroed. -/
theorem Action.placeFirmware_lays {chipset units : UInt32} {layout : ReservedLayout}
    (h : ReservedLayout.compute chipset units = .ok layout) :
    Tries (Stocking config roster zeroedFirmware words i 0)
      (Action.placeFirmware i layout : Action Device _)
      (fun firmware m => firmware = .laid i ∧ Sparing config roster zeroedFirmware words m)
      (Sparing config roster zeroedFirmware words) := by
  obtain ⟨hvbios, hramht, hramro, hramfc⟩ := ReservedLayout.ranges_of_compute h
  unfold Action.placeFirmware
  rw [hvbios, hramht, hramro, hramfc]
  dsimp only
  refine Stocking.withAllocated (by decide : pageSize ∣ 0) (by decide : pageSize ∣ vbiosSize)
    (by decide) (by decide +kernel) (fun hzeroed => absurd hzeroed Bool.false_ne_true) ?_
  refine Stocking.withAllocated (by decide : pageSize ∣ 0 + vbiosSize)
    (by decide : pageSize ∣ ramhtSize) (by decide) (by decide +kernel)
    (fun hzeroed => absurd hzeroed Bool.false_ne_true) ?_
  refine Stocking.withAllocated (by decide : pageSize ∣ 0 + vbiosSize + ramhtSize)
    (by decide : pageSize ∣ ramroSize) (by decide) (by decide +kernel)
    (fun hzeroed => absurd hzeroed Bool.false_ne_true) ?_
  refine Stocking.withAllocated (by decide : pageSize ∣ 0 + vbiosSize + ramhtSize + ramroSize)
    (by decide : pageSize ∣ ramfcSize) (by decide) (by decide +kernel) ?_ ?_
  · intro _
    simp only [zeroedFirmware, Nat.zero_add]
  · have hleft : ∀ below m, Stocking config roster zeroedFirmware words i below m →
      Sparing config roster zeroedFirmware words m := fun _ _ h => h.toSparing
    refine Tries.lift_bind _ (hleft _) fun _ => Tries.lift_bind _ (hleft _) fun _ =>
      Tries.lift_bind _ (hleft _) fun _ => Tries.lift_bind _ (hleft _) fun _ => ?_
    intro m h
    refine ⟨?_, h.toSparing⟩
    simp only [FirmwareObjects.laid, Nat.zero_add]

/-- A controller without firmware structures is destroyed without a word changing. -/
theorem Sparing.keeps_teardown (hnone : roster[i]?.join = none) :
    Keeps (Sparing config roster r words) (Action.teardown i : Action Device _) := by
  have hdismiss : Keeps (Sparing config roster r words) (Action.dismiss i : Action Device _) := by
    refine (Sparing.keeps_note _).bind fun _ => Action.keeps_onController fun m h => ?_
    exact h.mapController (by intro c; rfl) i
  have hfirmware : Keeps (Sparing config roster r words) (Action.freeFirmware i : Action Device _) := by
    apply keeps_get_bind
    intro m h
    rw [m.firmware_controller, h.roster, hnone]
    exact h
  refine hfirmware.bind fun _ => keeps_get_bind fun m h => ?_
  dsimp only
  split
  · exact (Sparing.keeps_note _).bind (fun _ => hdismiss) m h
  · exact hdismiss m h

/-- A heap of the size that the layout asks for is empty at first. -/
theorem Action.reserveHeap_stocks (chipset : ChipsetInfo) :
    Tries (Sparing config roster r words) (Action.reserveHeap chipset : Action Device _)
      (fun reserved m => Sparing config roster r words m ∧
        (∃ units, ReservedLayout.compute chipset.chipset units = .ok reserved.2) ∧
        ∃ space length, reserved.1 = .heap space length ∧ Stocked 0 space)
      (Sparing config roster r words) := by
  have hregister : ∀ register, Keeps (Sparing config roster r words) (Action.readRegister register) := by
    intro register m h
    exact h.of_books (Action.books_readRegister register m rfl) (outside_readRegister register m h.outside)
  unfold Action.reserveHeap
  split
  · exact tries_error _ fun _ h => h
  · refine Tries.bind_of_keeps ((Sparing.keeps_record _).bind fun _ => keeps_get_bind fun _ h => h)
      (fun _ h => h) fun bar => ?_
    refine Tries.bind_of_keeps ((Sparing.keeps_record _).bind fun _ => keeps_get_bind fun _ h => h)
      (fun _ h => h) fun answer => ?_
    cases answer with
    | none => exact .bind_of_keeps (Sparing.keeps_note _) (fun _ h => h) fun _ => tries_error _ fun _ h => h
    | some length =>
      refine Tries.bind_of_keeps (hregister _) (fun _ h => h) fun units => ?_
      dsimp only
      cases hlayout : ReservedLayout.compute chipset.chipset (UInt32.ofNat (enabledShaderUnits units)) with
      | error f => exact fun _ h => h
      | ok layout =>
        intro m h
        rw [run_bind_of_ok (run_lift_of_ok rfl m)]
        by_cases hshort : length < layout.reserved
        · rw [if_pos hshort]
          exact h
        · rw [if_neg hshort]
          refine Tries.bind_of_keeps (Sparing.keeps_note _) (fun _ h => h) (fun _ => ?_) m h
          intro m h
          unfold Backing.ofReserved
          cases hspace : RangeSpace.create "instmem heap" 0 layout.reserved pageSize with
          | error cause => exact h
          | ok space => exact ⟨h, ⟨_, hlayout⟩, space, length, rfl, .of_create hspace⟩

/-- **A controller on a heap is built with its firmware structures laid**, or without any, and changes
no word but those of the structure that is zeroed. -/
theorem Action.buildOnHeap_lays (chipset : ChipsetInfo) :
    Tries (Sparing config roster zeroedFirmware words) (Action.buildOnHeap chipset : Action Device _)
      (fun i m => i = roster.length ∧
        Sparing config (roster ++ [some (.laid i)]) zeroedFirmware words m)
      (fun m => ∃ firmware, (firmware = [] ∨ firmware = [none]) ∧
        Sparing config (roster ++ firmware) zeroedFirmware words m) := by
  have hunbuilt : ∀ m, Sparing config roster zeroedFirmware words m →
      ∃ firmware, (firmware = [] ∨ firmware = [none]) ∧
        Sparing config (roster ++ firmware) zeroedFirmware words m := by
    intro m h
    exact ⟨[], .inl rfl, (List.append_nil roster).symm ▸ h⟩
  unfold Action.buildOnHeap
  refine Tries.bind ((reserveHeap_stocks chipset).weaken (fun _ _ h => h) hunbuilt) (fun reserved => ?_)
    fun cause => tries_error cause fun _ h => h
  obtain ⟨backing, layout⟩ := reserved
  rintro m ⟨h, ⟨units, hlayout⟩, space, length, rfl, hstocked⟩
  have hlength : m.controllers.length = roster.length := by
    rw [← h.roster, Machine.length_roster]
  have hadd : addController (.fresh chipset (.heap space length) (some layout)) m =
      .ok roster.length { m with
        controllers := m.controllers ++ [.fresh chipset (.heap space length) (some layout)] } := by
    rw [← hlength]
    rfl
  have hnone : (roster ++ [none])[roster.length]?.join = none := by
    rw [List.getElem?_concat_length]
    rfl
  dsimp only
  rw [run_bind_of_ok hadd]
  have hequip : Tries (Stocking config (roster ++ [none]) zeroedFirmware words roster.length 0)
      (Action.equip roster.length layout : Action Device _)
      (fun i m => i = roster.length ∧
        Sparing config (roster ++ [some (.laid i)]) zeroedFirmware words m)
      (Sparing config (roster ++ [none]) zeroedFirmware words) := by
    refine Tries.guarding_of_keeps ?_ (Sparing.keeps_teardown hnone)
    refine Tries.bind (placeFirmware_lays hlayout) (fun firmware => ?_) fun cause =>
      tries_error cause fun _ h => h
    rintro m ⟨rfl, h⟩
    refine ⟨rfl, h.config, ?_, h.outside⟩
    rw [Machine.roster_setFirmware, h.roster, List.set_append_right _ _ (Nat.le_refl _), Nat.sub_self]
    rfl
  refine hequip.weaken (fun _ _ h => h) (fun m h => ⟨[none], .inr rfl, h⟩) _ ?_
  refine ⟨⟨h.config, ?_, h.outside⟩, space,
    ⟨.fresh chipset (.heap space length) (some layout), length, ?_, rfl⟩, hstocked⟩
  · rw [Machine.roster, List.map_append, ← Machine.roster, h.roster]
    rfl
  · rw [← hlength]
    exact List.getElem?_concat_length

/-- **A controller for dedicated memory is built with its firmware structures laid**, or without any. -/
theorem Action.build_lays (hvram : config.hasVram = true) :
    Tries (Sparing config roster zeroedFirmware words) (Action.build : Action Device _)
      (fun i m => i = roster.length ∧
        Sparing config (roster ++ [some (.laid i)]) zeroedFirmware words m)
      (fun m => ∃ firmware, (firmware = [] ∨ firmware = [none]) ∧
        Sparing config (roster ++ firmware) zeroedFirmware words m) := by
  intro m h
  have hhas : (Platform.chipset m.hardware).hasVram = true := by
    rw [← hvram, ← h.config]
    rfl
  unfold Action.build
  rw [run_get_bind, if_pos hhas]
  by_cases hfamily : ¬ (Platform.chipset m.hardware).family.isSupported
  · rw [if_pos hfamily]
    exact ⟨[], .inl rfl, (List.append_nil roster).symm ▸ h⟩
  · rw [if_neg hfamily]
    exact buildOnHeap_lays _ m h

end

end InstanceMemory
