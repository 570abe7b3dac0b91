import InstanceMemory.Proofs.Machine.Books
import InstanceMemory.Machine.Construction

/-!
# Placements leave the store alone

`m.store` is what a machine has apart from what is taken of it: the contents of its memory, its
registers, and for each controller its phase and what it knows of the window. It leaves out what is
taken and counted, the firmware structures on record, the budgets of the device, and what is noted.
Books and store are opposite: an access changes the store and not the books, while making an object,
giving it back and destroying a controller changes the books and not the store, **whether it answers,
is refused or faults half way**.
-/

set_option autoImplicit false

namespace InstanceMemory

open Simulator (Device SystemMemory Translation)

/-- The controller without its objects and its presence. -/
def Controller.store (c : Controller) : Controller :=
  { c.frame with firmware := none, isPresent := true }

/-- What a machine has apart from what is taken of it. -/
def Machine.store (m : Machine Device) : Machine Device :=
  { m.frame with
    controllers := m.controllers.map (·.store)
    trace := .start m.trace.isRecording }

variable {α : Type} {m m' : Machine Device} {store : Machine Device}

namespace Machine

theorem store_mapController {i : Nat} {f : Controller → Controller}
    (h : ∀ c, m.controllers[i]? = some c → (f c).store = c.store) :
    (m.mapController i f).store = m.store := by
  have hmap : (m.mapController i f).controllers.map (·.store) = m.controllers.map (·.store) :=
    map_mapController h
  simp only [store, hmap]
  rfl

/-- A space that was reserved of or released to takes its place. -/
theorem store_setSpace {id : SpaceId} {space next : RangeSpace} (h : m.space? id = some space)
    (hemptied : next.emptied = space.emptied) : (m.setSpace id next).store = m.store := by
  cases id with
  | shared =>
    have hshared : m.shared = some space := h
    simp only [store, frame, setSpace, hshared, Option.map_some, hemptied]
  | heap i =>
    apply store_mapController
    intro c hc
    unfold space? at h
    dsimp only at h
    rw [controller_of_getElem? hc] at h
    cases hbacking : c.backing with
    | heap before length =>
      rw [hbacking] at h
      obtain rfl := Option.some.inj h
      simp only [Controller.store, Controller.frame, Backing.emptied, hbacking, hemptied]
    | iommu => rfl
    | dma => rfl

end Machine

/-! ## Spaces and the device -/

theorem RangeSpace.emptied_of_reserve {space next : RangeSpace} {size align : Nat}
    {range : AddressRange} (h : space.reserve size align = .ok (.ok (range, next))) :
    next.emptied = space.emptied := by
  unfold reserve at h
  split at h
  · cases h
  · dsimp only at h
    split at h
    · cases h
    · split at h
      · cases h
      · rename_i rounded _
        cases htake : Holes.take rounded (max align space.granularity) space.free with
        | error f =>
          rw [htake] at h
          cases h
        | ok taken =>
          rw [htake] at h
          cases taken with
          | none => cases h
          | some hole =>
            cases h
            rfl

theorem RangeSpace.emptied_of_release {space next : RangeSpace} {range : AddressRange}
    {journal journal' : Journal} (h : space.release range journal = .ok (next, journal')) :
    next.emptied = space.emptied ∧ journal'.isOpen = journal.isOpen := by
  unfold release at h
  split at h
  · cases hinsert : Holes.insert range.base range.length space.free with
    | error f =>
      rw [hinsert] at h
      cases h
    | ok free =>
      rw [hinsert] at h
      cases h
      exact ⟨rfl, rfl⟩
  · cases hnote : journal.note (.untrackedRelease space.name range) with
    | error f =>
      rw [hnote] at h
      cases h
    | ok noted =>
      rw [hnote] at h
      cases h
      exact ⟨rfl, Journal.isOpen_of_note hnote⟩

namespace Simulator.SystemMemory

variable {memory memory' : SystemMemory}

theorem bare_of_allocPage {page : Option Nat} (h : memory.allocPage = .ok (page, memory')) :
    memory'.bare = memory.bare := by
  unfold allocPage at h
  cases hspend : memory.pageBudget.spend? with
  | none =>
    rw [hspend] at h
    cases h
    rfl
  | some pageBudget =>
    rw [hspend] at h
    cases hreserve : memory.space.reserve pageSize pageSize with
    | error f =>
      rw [hreserve] at h
      cases h
    | ok answer =>
      rw [hreserve] at h
      cases answer with
      | error cause =>
        cases h
        rfl
      | ok granted =>
        obtain ⟨range, next⟩ := granted
        cases h
        simp only [bare, RangeSpace.emptied_of_reserve hreserve]

theorem bare_of_allocBuffer {size : Nat} {buffer : Option Buffer}
    (h : memory.allocBuffer size = .ok (buffer, memory')) : memory'.bare = memory.bare := by
  unfold allocBuffer at h
  split at h
  · cases h
    rfl
  · cases hreserve : memory.space.reserve size pageSize with
    | error f =>
      rw [hreserve] at h
      cases h
    | ok answer =>
      rw [hreserve] at h
      cases answer with
      | error cause =>
        cases h
        rfl
      | ok granted =>
        obtain ⟨range, next⟩ := granted
        cases h
        simp only [bare, RangeSpace.emptied_of_reserve hreserve]

theorem bare_of_freePage {page : Nat} {journal journal' : Journal}
    (h : memory.freePage page journal = .ok (memory', journal')) :
    memory'.bare = memory.bare ∧ journal'.isOpen = journal.isOpen := by
  unfold freePage at h
  cases hrelease : memory.space.release ⟨page, pageSize⟩ journal with
  | error f =>
    rw [hrelease] at h
    cases h
  | ok released =>
    rw [hrelease] at h
    obtain ⟨next, noted⟩ := released
    cases h
    obtain ⟨hemptied, hopen⟩ := RangeSpace.emptied_of_release hrelease
    exact ⟨by simp only [bare, hemptied], hopen⟩

theorem bare_of_freeBuffer {buffer : Buffer} {journal journal' : Journal}
    (h : memory.freeBuffer buffer journal = .ok (memory', journal')) :
    memory'.bare = memory.bare ∧ journal'.isOpen = journal.isOpen := by
  unfold freeBuffer at h
  cases hrelease : memory.space.release ⟨buffer.handle, buffer.size⟩ journal with
  | error f =>
    rw [hrelease] at h
    cases h
  | ok released =>
    rw [hrelease] at h
    obtain ⟨next, noted⟩ := released
    cases h
    obtain ⟨hemptied, hopen⟩ := RangeSpace.emptied_of_release hrelease
    exact ⟨by simp only [bare, hemptied], hopen⟩

end Simulator.SystemMemory

namespace Action

/-! ## Bookkeeping -/

theorem store_note (n : Notice) : Keeps (Machine.store · = store) (note n) := by
  intro m hm
  unfold leaves note
  cases hjournal : m.journal.note n with
  | error f => exact hm
  | ok journal =>
    have hopen : journal.isOpen = m.journal.isOpen := Journal.isOpen_of_note hjournal
    simp only [Machine.store, Machine.frame, hopen] at hm ⊢
    exact hm

theorem store_record (call : Call) : Keeps (Machine.store · = store) (record call) := by
  refine keeps_record ?_ call
  intro m call hm
  have hrecording : (m.trace.record call).isRecording = m.trace.isRecording := by
    unfold Trace.record
    split <;> rfl
  simp only [Machine.store, Machine.frame, hrecording] at hm ⊢
  exact hm

theorem store_onController {i : Nat} {f : Controller → Controller}
    (h : ∀ c, (f c).store = c.store) : Keeps (Machine.store · = store) (onController i f) :=
  keeps_onController fun _ hm => (Machine.store_mapController fun c _ => h c).trans hm

theorem store_reserve (id : SpaceId) (size align : Nat) :
    Keeps (Machine.store · = store) (reserve id size align) := by
  apply keeps_get_bind
  intro m hm
  cases hspace : m.space? id with
  | none => exact hm
  | some space =>
    dsimp only
    cases hreserve : space.reserve size align with
    | error f => exact hm
    | ok answer =>
      rw [leaves_bind_of_ok (run_lift_of_ok rfl m)]
      cases answer with
      | error cause => exact (store_record _).bind (fun _ => keeps_pure _) m hm
      | ok granted =>
        obtain ⟨range, next⟩ := granted
        have hnext := Machine.store_setSpace hspace (RangeSpace.emptied_of_reserve hreserve)
        exact (store_record _).bind (fun _ => keeps_pure _) (m.setSpace id next) (hnext.trans hm)

theorem store_release (id : SpaceId) (range : AddressRange) :
    Keeps (Machine.store · = store) (release id range) := by
  apply keeps_get_bind
  intro m hm
  dsimp only
  cases hspace : m.space? id with
  | none => exact hm
  | some space =>
    dsimp only
    cases hrelease : space.release range m.journal with
    | error f => exact hm
    | ok released =>
      obtain ⟨next, journal⟩ := released
      obtain ⟨hemptied, hopen⟩ := RangeSpace.emptied_of_release hrelease
      have hnext := Machine.store_setSpace hspace hemptied
      have hjournal : ({ m.setSpace id next with journal } : Machine Device).store =
          (m.setSpace id next).store := by
        have hsame : (m.setSpace id next).journal = m.journal := by
          cases id <;> rfl
        simp only [Machine.store, Machine.frame, hopen, hsame]
      exact store_record _ { m.setSpace id next with journal } ((hjournal.trans hnext).trans hm)

/-! ## Calls to the device -/

/-- System memory that takes or gives without a change of its words. -/
theorem store_onMemory {act : SystemMemory → Except Fault (α × SystemMemory)}
    (h : ∀ memory a memory', act memory = .ok (a, memory') → memory'.bare = memory.bare) :
    Keeps (Machine.store · = store) (onHardware (Device.onMemory act)) := by
  apply keeps_onHardware
  intro m hm
  unfold leaves Device.onMemory
  cases hact : act m.hardware.memory with
  | error f => exact hm
  | ok taken =>
    obtain ⟨a, memory⟩ := taken
    have hbare := h _ _ _ hact
    simp only [Machine.store, Machine.frame, hbare] at hm ⊢
    exact hm

/-- System memory that takes something back without a change of its words. -/
theorem store_onMemoryNoting
    {act : SystemMemory → Journal → Except Fault (SystemMemory × Journal)}
    (h : ∀ memory journal memory' journal', act memory journal = .ok (memory', journal') →
      memory'.bare = memory.bare ∧ journal'.isOpen = journal.isOpen) :
    Keeps (Machine.store · = store) (onHardwareNoting (Device.onMemoryNoting act)) := by
  intro m hm
  unfold leaves onHardwareNoting Device.onMemoryNoting
  cases hact : act m.hardware.memory m.journal with
  | error f =>
    simp only [hact]
    exact hm
  | ok given =>
    obtain ⟨memory, journal⟩ := given
    obtain ⟨hbare, hopen⟩ := h _ _ _ _ hact
    simp only [hact]
    simp only [Machine.store, Machine.frame, hbare, hopen] at hm ⊢
    exact hm

/-- Whatever happens to the translation table, the store does not tell. -/
theorem store_onTranslation (absent : α) (act : EStateM Fault Translation α) :
    Keeps (Machine.store · = store) (onHardware (Device.onTranslation absent act)) := by
  apply keeps_onHardware
  intro m hm
  unfold leaves Device.onTranslation
  cases ht : m.hardware.translation with
  | none => exact hm
  | some t =>
    have hempty : (m.hardware.translation.map fun _ => Translation.empty) = some .empty := by
      rw [ht]
      rfl
    simp only [Machine.store, Machine.frame, hempty] at hm
    cases hact : act t <;> simp only [hact] <;> exact hm

theorem store_allocPage : Keeps (Machine.store · = store) (allocPage : Action Device _) :=
  (store_onMemory fun _ _ _ => SystemMemory.bare_of_allocPage).bind fun _ =>
    (store_record _).bind fun _ => keeps_pure _

theorem store_freePage (page : Nat) :
    Keeps (Machine.store · = store) (freePage page : Action Device _) :=
  keeps_get_bind fun m hm =>
    (store_onMemoryNoting fun _ _ _ _ => SystemMemory.bare_of_freePage).bind
      (fun _ => store_record _) m hm

theorem store_mapPage (address page : Nat) :
    Keeps (Machine.store · = store) (mapPage address page : Action Device _) := by
  have hmap : Keeps (Machine.store · = store)
      (onHardware (Platform.map address page pageSize .readWrite) : Action Device _) := by
    apply keeps_onHardware
    intro m hm
    have hkeeps := store_onTranslation (.error .invalid)
      (Translation.map address page pageSize .readWrite) m hm
    unfold leaves Platform.map Simulator.instPlatformDevice Device.map
    simp only [leaves, onHardware] at hkeeps ⊢
    cases hact : Device.onTranslation (.error .invalid)
      (Translation.map address page pageSize .readWrite) m.hardware with
    | ok answer d =>
      rw [hact] at hkeeps
      rw [run_bind_of_ok hact]
      exact hkeeps
    | error f d =>
      rw [hact] at hkeeps
      rw [run_bind_of_error hact]
      exact hkeeps
  exact hmap.bind fun _ => (store_record _).bind fun _ => keeps_pure _

theorem store_unmapPage (address : Nat) :
    Keeps (Machine.store · = store) (unmapPage address : Action Device _) :=
  keeps_get_bind fun m hm =>
    (store_onTranslation 0 (Translation.unmap address pageSize)).bind (fun _ => store_record _) m hm

theorem store_allocBuffer (size : Nat) :
    Keeps (Machine.store · = store) (allocBuffer size : Action Device _) :=
  (store_onMemory fun _ _ _ => SystemMemory.bare_of_allocBuffer).bind fun _ =>
    (store_record _).bind fun _ => keeps_pure _

theorem store_freeBuffer (buffer : Buffer) :
    Keeps (Machine.store · = store) (freeBuffer buffer : Action Device _) :=
  (store_onMemoryNoting fun _ _ _ _ => SystemMemory.bare_of_freeBuffer).bind fun _ =>
    store_record _

/-! ## Placements -/

theorem store_freePages (pages : List Nat) :
    Keeps (Machine.store · = store) (freePages pages : Action Device _) := by
  induction pages with
  | nil => exact keeps_pure _
  | cons page rest ih => exact (store_freePage page).bind fun _ => ih

theorem store_unmapSlots (base slots : Nat) :
    Keeps (Machine.store · = store) (unmapSlots base slots : Action Device _) := by
  induction slots with
  | zero => exact keeps_pure _
  | succ slots ih => exact (store_unmapPage _).bind fun _ => ih

theorem store_undoPlacement (range : AddressRange) (slots : Nat) (taken : List Nat) :
    Keeps (Machine.store · = store) (undoPlacement range slots taken : Action Device _) :=
  (store_unmapSlots _ _).bind fun _ => (store_release _ _).bind fun _ => store_freePages taken

theorem store_takePages (count more : Nat) (taken : List Nat) :
    Keeps (Machine.store · = store) (takePages count more taken : Action Device _) := by
  induction more generalizing taken with
  | zero => exact keeps_pure _
  | succ more ih =>
    apply (keeps_orUndo store_allocPage (store_freePages taken)).bind
    intro answer
    cases answer with
    | some page => exact ih (page :: taken)
    | none => exact (store_note _).bind fun _ => (store_freePages taken).bind fun _ => keeps_pure _

theorem store_mapPages (range : AddressRange) (taken pages : List Nat) (slots address : Nat) :
    Keeps (Machine.store · = store)
      (mapPages range taken pages slots address : Action Device _) := by
  induction pages generalizing slots address with
  | nil =>
    unfold mapPages
    exact Keeps.bind (keeps_orUndo (keeps_lift _) (store_undoPlacement range slots taken))
      fun _ => keeps_pure _
  | cons page rest ih =>
    have hundo := @store_undoPlacement store range slots taken
    unfold mapPages
    apply Keeps.bind (keeps_orUndo (keeps_lift _) hundo)
    intro _
    apply (keeps_orUndo (store_mapPage address page) hundo).bind
    intro answer
    cases answer with
    | ok => exact ih (slots + 1) (address + pageSize)
    | error code => exact (store_note _).bind fun _ => hundo.bind fun _ => keeps_pure _

theorem store_placeInHeap (i size align : Nat) :
    Keeps (Machine.store · = store) (placeInHeap i size align : Action Device _) := by
  apply (store_reserve _ _ _).bind
  intro answer
  cases answer with
  | ok range => exact keeps_pure _
  | error cause => exact (store_note _).bind fun _ => keeps_pure _

theorem store_placeBehindIommu (i size align : Nat) :
    Keeps (Machine.store · = store) (placeBehindIommu i size align : Action Device _) := by
  apply keeps_get_bind
  intro m hm
  dsimp only
  split
  · exact (store_note _).bind (fun _ => keeps_pure _) m hm
  · refine (store_takePages _ _ _).bind ?_ m hm
    intro answer
    cases answer with
    | none => exact keeps_pure _
    | some taken =>
      apply (keeps_orUndo (store_reserve _ _ _) (store_freePages taken)).bind
      intro answer
      cases answer with
      | error cause =>
        exact (store_note _).bind fun _ => (store_freePages taken).bind fun _ => keeps_pure _
      | ok range =>
        apply (store_mapPages range taken taken.reverse 0 range.base).bind
        intro answer
        cases answer <;> exact keeps_pure _

theorem store_unmapAndFree (address : Nat) (pages : List Nat) :
    Keeps (Machine.store · = store) (unmapAndFree address pages : Action Device _) := by
  induction pages generalizing address with
  | nil => exact Keeps.bind (keeps_lift _) fun _ => keeps_pure _
  | cons page rest ih =>
    refine Keeps.bind (keeps_lift _) fun _ => ?_
    exact (store_unmapPage address).bind fun _ => (store_freePage page).bind fun _ =>
      ih (address + pageSize)

theorem store_placeInBuffer (i size align : Nat) :
    Keeps (Machine.store · = store) (placeInBuffer i size align : Action Device _) := by
  apply (store_allocBuffer size).bind
  intro answer
  cases answer with
  | none => exact (store_note _).bind fun _ => keeps_pure _
  | some buffer =>
    refine Keeps.bind (keeps_lift _) ?_
    intro aligned
    cases aligned with
    | true => exact keeps_pure _
    | false => exact (store_note _).bind fun _ => keeps_pure _

/-- **Making an object, without zeroing it, leaves the store alone.** -/
theorem store_place (i size align : Nat) :
    Keeps (Machine.store · = store) (place i size align : Action Device _) := by
  have hplaceBy : ∀ strategy size align,
      Keeps (Machine.store · = store) (placeBy strategy i size align : Action Device _) := by
    intro strategy size align
    cases strategy with
    | heap => exact store_placeInHeap i size align
    | iommu => exact store_placeBehindIommu i size align
    | dma => exact store_placeInBuffer i size align
  apply keeps_get_bind
  intro m hm
  refine Keeps.bind (P := (Machine.store · = store)) (store_note _) ?_ m hm
  intro _
  cases pageRound size align with
  | error cause => exact keeps_pure _
  | ok rounded =>
    apply (hplaceBy _ _ _).bind
    intro answer
    cases answer with
    | error cause => exact keeps_pure _
    | ok object =>
      refine (store_note _).bind fun _ => (store_onController ?_).bind fun _ =>
        keeps_pure _
      intro c
      rfl

/-- **Giving an object back leaves the store alone.** -/
theorem store_free (object : InstanceObject) :
    Keeps (Machine.store · = store) (free object : Action Device _) := by
  refine keeps_andFinally ?_ fun m hm => (Machine.store_mapController ?_).trans hm
  · unfold giveBack
    cases object.resource with
    | heap range => exact store_release _ _
    | iommu range pages => exact (store_unmapAndFree _ _).bind fun _ => store_release _ _
    | dma buffer => exact store_freeBuffer buffer
  · intro _ _
    rfl

/-- **Destroying a controller leaves the store alone.** -/
theorem store_teardown (i : Nat) :
    Keeps (Machine.store · = store) (teardown i : Action Device _) := by
  have hfirmware : Keeps (Machine.store · = store) (freeFirmware i : Action Device _) := by
    apply keeps_get_bind
    intro m hm
    cases (m.controller i).firmware with
    | none => exact hm
    | some firmware =>
      refine Keeps.bind (P := (Machine.store · = store)) (store_onController ?_)
        (fun _ => (store_free _).bind fun _ => (store_free _).bind fun _ =>
          (store_free _).bind fun _ => store_free _) m hm
      intro c
      rfl
  have hdismiss : Keeps (Machine.store · = store) (dismiss i : Action Device _) := by
    refine (store_note _).bind fun _ => store_onController ?_
    intro c
    rfl
  refine hfirmware.bind fun _ => keeps_get_bind ?_
  intro m hm
  dsimp only
  split
  · exact (store_note _).bind (fun _ => hdismiss) m hm
  · exact hdismiss m hm

/-! ## Requests, with and without zeros -/

/-- **A request for zeros makes the object that it makes without them**, and then zeroes it. -/
theorem run_allocate (i size align : Nat) (zeroed : Bool) (m : Machine Device) :
    Action.allocate i size align zeroed m =
      match Action.allocate i size align false m with
      | .ok (.ok o) m₁ =>
        (do
          if zeroed then orUndo (fill o 0) (free o)
          return .ok o : Action Device (Except Error InstanceObject)) m₁
      | answer => answer := by
  have hmake : Action.make i size align zeroed m =
      match Action.make i size align false m with
      | .ok (.ok o) m₁ =>
        (do
          if zeroed then orUndo (fill o 0) (free o)
          return .ok o : Action Device (Except Error InstanceObject)) m₁
      | answer => answer := by
    unfold make
    cases hplace : (place i size align : Action Device _) m with
    | error f m₁ => rw [run_bind_of_error hplace, run_bind_of_error hplace]
    | ok answer m₁ =>
      rw [run_bind_of_ok hplace, run_bind_of_ok hplace]
      cases answer <;> rfl
  unfold allocate
  rw [run_get_bind, run_get_bind]
  cases (m.controller i).phase with
  | suspended => rfl
  | constructed => exact hmake
  | initialized => exact hmake

theorem allocate_unzeroed {i size align : Nat} {zeroed : Bool} {m m' : Machine Device}
    {o : InstanceObject} (h : Action.allocate i size align zeroed m = .ok (.ok o) m') :
    ∃ m₁, Action.allocate i size align false m = .ok (.ok o) m₁ := by
  rw [run_allocate] at h
  cases hact : (Action.allocate i size align false : Action Device _) m with
  | error f m₁ =>
    rw [hact] at h
    cases h
  | ok answer m₁ =>
    rw [hact] at h
    cases answer with
    | error cause => cases h
    | ok o₁ =>
      dsimp only at h
      suffices hsame : o₁ = o from ⟨m₁, hsame ▸ rfl⟩
      cases zeroed with
      | false => exact Except.ok.inj (EStateM.Result.ok.inj h).1
      | true =>
        rw [if_pos rfl] at h
        cases hzero : (Action.orUndo (Action.fill o₁ 0) (Action.free o₁)) m₁ with
        | error f m₂ =>
          rw [run_bind_of_error hzero] at h
          cases h
        | ok a m₂ =>
          rw [run_bind_of_ok hzero] at h
          exact Except.ok.inj (EStateM.Result.ok.inj h).1

theorem store_allocate_unzeroed {store : Machine Device} (i size align : Nat) :
    Keeps (Machine.store · = store) (Action.allocate i size align false : Action Device _) := by
  have hmake : Keeps (Machine.store · = store) (Action.make i size align false : Action Device _) := by
    refine (store_place i size align).bind fun answer => ?_
    cases answer <;> exact keeps_pure _
  apply keeps_get_bind
  intro m hm
  cases (m.controller i).phase with
  | suspended => exact hm
  | constructed => exact hmake m hm
  | initialized => exact hmake m hm

end Action
end InstanceMemory
