import InstanceMemory.Proofs.Machine.Placement
import InstanceMemory.Machine.Access

/-!
# Accesses and phases leave the books alone

`m.books` is what tells what is taken of a machine, and of what. It leaves out what is written in
memory and in registers, what the controllers know of the window, their phases, and what is noted. No
access to an object changes the books, **whether it answers or faults half way**, and neither does
starting, suspending or resuming a controller. What is held can be read from the books alone
(`Holding.of_books`), so it is the same before and after.
-/

set_option autoImplicit false

namespace InstanceMemory

open Simulator (Device Vram SystemMemory)

/-- The controller without its window and its phase. -/
def Controller.books (c : Controller) : Controller :=
  { c with window := .unknown, phase := .constructed }

/-- The device without its registers and without what is written in its memory. -/
def Simulator.Device.books (d : Device) : Device :=
  { d with
    window := 0
    windowWrites := 0
    registers := ∅
    vram.words := .zero
    memory.words := .zero }

/-- What tells what is taken of a machine. -/
def Machine.books (m : Machine Device) : Machine Device :=
  { m with
    hardware := m.hardware.books
    controllers := m.controllers.map (·.books)
    interrupt := none
    journal := .start m.journal.isOpen
    trace := .start m.trace.isRecording }

variable {α : Type} {m m' : Machine Device} {books : Machine Device}

/-! ## What the books tell -/

/-- Lists that are equal under a function have the same values under it, place by place. -/
theorem exists_getElem?_of_map_eq {γ δ : Type} {f : γ → δ} {xs ys : List γ} {i : Nat} {x : γ}
    (h : xs.map f = ys.map f) (hx : xs[i]? = some x) : ∃ y, ys[i]? = some y ∧ f y = f x := by
  have heq := congrArg (·[i]?) h
  simp only [List.getElem?_map, hx, Option.map_some] at heq
  exact Option.map_eq_some_iff.mp heq.symm

theorem Machine.length_of_books (h : m'.books = m.books) :
    m'.controllers.length = m.controllers.length := by
  have hlength := congrArg (·.controllers.length) h
  simpa only [Machine.books, List.length_map] using hlength

theorem Machine.Has.of_books {id : SpaceId} {space : RangeSpace} (h : m'.Has id space)
    (hbooks : m'.books = m.books) : m.Has id space := by
  cases id with
  | shared =>
    have hshared : m'.shared = m.shared := congrArg (·.shared) hbooks
    exact hshared.symm.trans h
  | heap i =>
    obtain ⟨c', length, hc', hbacking⟩ := h
    obtain ⟨c, hc, hsame⟩ := exists_getElem?_of_map_eq (congrArg (·.controllers) hbooks) hc'
    exact ⟨c, length, hc, (congrArg (·.backing) hsame).trans hbacking⟩

/-- **What is held can be read from the books.** -/
theorem Holding.of_books {items : List Item} (h : Holding items m)
    (hbooks : m'.books = m.books) : Holding items m' := by
  have htranslation : m'.hardware.translation = m.hardware.translation :=
    congrArg (·.hardware.translation) hbooks
  refine ⟨?_, ⟨?_, ?_, ?_⟩, ?_, ?_, ?_, ?_⟩
  · exact (congrArg (·.trace.isRecording) hbooks).trans h.silent
  · have hspace : m'.hardware.memory.space = m.hardware.memory.space :=
      congrArg (·.hardware.memory.space) hbooks
    exact hspace ▸ h.memory.space
  · exact (congrArg (·.hardware.memory.livePages) hbooks).trans h.memory.livePages
  · exact (congrArg (·.hardware.memory.liveBuffers) hbooks).trans h.memory.liveBuffers
  · exact htranslation ▸ h.translation
  · exact htranslation ▸ h.untranslated
  · intro id space hid
    exact h.spaces id space (hid.of_books hbooks)
  · intro id hne
    obtain ⟨space, hid⟩ := h.placed id hne
    exact ⟨space, hid.of_books hbooks.symm⟩

/-! ## Changes that leave the books alone -/

theorem Machine.books_mapController {i : Nat} {f : Controller → Controller}
    (h : ∀ c, m.controllers[i]? = some c → (f c).books = c.books) :
    (m.mapController i f).books = m.books := by
  have hmap : (m.mapController i f).controllers.map (·.books) = m.controllers.map (·.books) :=
    map_mapController h
  simp only [books, hmap]
  rfl

namespace Simulator

theorem Vram.size_write (vram : Vram) (offset : Nat) (value : UInt32) :
    (vram.write offset value).size = vram.size := by
  unfold Vram.write
  cases vram.word? offset <;> rfl

theorem SystemMemory.books_write (memory : SystemMemory) (physical : Nat) (value : UInt32) :
    { (memory.write physical value).2 with words := .zero } = { memory with words := .zero } := by
  unfold SystemMemory.write
  cases memory.word? physical <;> rfl

namespace Device

theorem books_setVram (d : Device) {vram : Vram} (h : vram.size = d.vram.size) :
    { d with vram := vram }.books = d.books := by
  simp only [books, h]

theorem books_writeAt (d : Device) (place : Nat) (value : UInt32) :
    (d.writeAt place value).books = d.books := by
  unfold writeAt
  dsimp only
  split
  · exact d.books_setVram (d.vram.size_write place value)
  · have hmemory := d.memory.books_write place value
    simp only [books]
    rw [hmemory]

theorem books_write (d : Device) (address : Nat) (value : UInt32) :
    (leaves (write address value) d).books = d.books := by
  unfold leaves write
  cases d.resolve address with
  | error f => rfl
  | ok place =>
    cases place with
    | none => rfl
    | some place => exact d.books_writeAt place value

theorem books_writeRegister (d : Device) (register : Nat) (value : UInt32) :
    (leaves (writeRegister register value) d).books = d.books := by
  by_cases hwindow : register = windowRegister
  · simp only [leaves, writeRegister, hwindow, ↓reduceIte]
    rfl
  · cases hshown : d.shownAddress? register with
    | none =>
      simp only [leaves, writeRegister, hwindow, ↓reduceIte, hshown]
      rfl
    | some address =>
      have hwrite := d.books_write address value
      simp only [leaves, writeRegister, hwindow, ↓reduceIte, hshown] at hwrite ⊢
      exact hwrite

end Device
end Simulator

namespace Action

theorem books_note (n : Notice) : Keeps (Machine.books · = books) (note n) := by
  intro m hm
  unfold leaves note
  cases hjournal : m.journal.note n with
  | error f => exact hm
  | ok journal =>
    have hopen : journal.isOpen = m.journal.isOpen := Journal.isOpen_of_note hjournal
    simp only [Machine.books, hopen] at hm ⊢
    exact hm

theorem books_record (call : Call) : Keeps (Machine.books · = books) (record call) := by
  refine keeps_record ?_ call
  intro m call hm
  have hrecording : (m.trace.record call).isRecording = m.trace.isRecording := by
    unfold Trace.record
    split <;> rfl
  simp only [Machine.books, hrecording] at hm ⊢
  exact hm

theorem books_onController {i : Nat} {f : Controller → Controller}
    (h : ∀ c, (f c).books = c.books) : Keeps (Machine.books · = books) (onController i f) :=
  keeps_onController fun _ hm => (Machine.books_mapController fun c _ => h c).trans hm

/-! ## Phases -/

/-- A controller takes the place of one with the same books. -/
theorem books_replaceController {i : Nat} {c : Controller} (n : Notice)
    (h : c.books = (m.controller i).books) (hm : m.books = books) :
    (leaves (replaceController i c n) m).books = books := by
  have hmap : (m.mapController i fun _ => c).books = books :=
    (Machine.books_mapController fun c₀ hc₀ => by
      rw [h, Machine.controller_of_getElem? hc₀]).trans hm
  unfold replaceController
  have honController : onController i (fun _ => c) m = .ok () (m.mapController i fun _ => c) := rfl
  rw [leaves_bind_of_ok honController]
  exact (books_note n).bind (fun _ => keeps_pure _) _ hmap

theorem books_of_transition {c c' : Controller} {request : Request} {source target : Phase}
    (h : c.transition request source target = .ok c') : c'.books = c.books := by
  unfold Controller.transition at h
  split at h
  · cases h
    rfl
  · cases h

theorem books_of_tryInvalidate {c c' : Controller} (h : c.tryInvalidate = some c') :
    c'.books = c.books := by
  unfold Controller.tryInvalidate at h
  split at h
  · cases h
  · cases h
    rfl

theorem books_init (i : Nat) : Keeps (Machine.books · = books) (init i : Action Device _) := by
  unfold init
  apply keeps_get_bind
  intro m hm
  dsimp only
  cases hready : (m.controller i).transition .init .constructed .initialized with
  | error cause => exact hm
  | ok ready => exact books_replaceController _ (books_of_transition hready) hm

theorem books_suspend (i : Nat) : Keeps (Machine.books · = books) (suspend i : Action Device _) := by
  unfold suspend
  apply keeps_get_bind
  intro m hm
  dsimp only
  cases hasleep : (m.controller i).transition .suspend .initialized .suspended with
  | error cause => exact hm
  | ok asleep =>
    dsimp only
    cases hforgets : asleep.tryInvalidate with
    | none => exact hm
    | some forgetful =>
      exact books_replaceController _
        ((books_of_tryInvalidate hforgets).trans (books_of_transition hasleep)) hm

theorem books_resume (i : Nat) : Keeps (Machine.books · = books) (resume i : Action Device _) := by
  unfold resume
  apply keeps_get_bind
  intro m hm
  dsimp only
  cases hawake : (m.controller i).transition .resume .suspended .initialized with
  | error cause => exact hm
  | ok awake => exact books_replaceController _ (books_of_transition hawake) hm

theorem books_tryInvalidate (i : Nat) :
    Keeps (Machine.books · = books) (tryInvalidate i : Action Device _) := by
  apply keeps_get_bind
  intro m hm
  cases hforgets : (m.controller i).tryInvalidate with
  | none => exact hm
  | some c =>
    refine (Machine.books_mapController ?_).trans hm
    intro c₀ hc₀
    rw [books_of_tryInvalidate hforgets, Machine.controller_of_getElem? hc₀]

/-- An interrupt suspends a controller at most. -/
theorem books_serveInterrupt : Keeps (Machine.books · = books) (serveInterrupt : Action Device _) := by
  unfold serveInterrupt
  apply keeps_get_bind
  intro m hm
  cases m.interrupt with
  | none => exact hm
  | some i =>
    refine Keeps.bind (P := (Machine.books · = books)) (keeps_modify ?_) ?_ m hm
    · intro m hm
      exact hm
    · intro _
      apply keeps_get_bind
      intro m hm
      split
      · exact (books_suspend i).bind (fun _ => books_record _) m hm
      · exact hm

/-! ## Registers and the aperture -/

theorem books_onHardware {act : EStateM Fault Device α}
    (h : ∀ d, (leaves act d).books = d.books) : Keeps (Machine.books · = books) (onHardware act) := by
  apply keeps_onHardware
  intro m hm
  simp only [Machine.books, h] at hm ⊢
  exact hm

/-- To read a register changes nothing of the device. -/
theorem leaves_platform_readRegister (address : Nat) (d : Device) :
    leaves (Platform.readRegister address : EStateM Fault Device UInt32) d = d := by
  unfold leaves Platform.readRegister Simulator.instPlatformDevice
  dsimp only
  cases d.readRegister address <;> rfl

theorem books_readRegister (address : Nat) :
    Keeps (Machine.books · = books) (readRegister address : Action Device _) := by
  have hread : Keeps (Machine.books · = books)
      (onHardware (Platform.readRegister address) : Action Device _) :=
    books_onHardware fun d => congrArg Device.books (leaves_platform_readRegister address d)
  unfold readRegister
  exact books_serveInterrupt.bind fun _ => hread.bind fun _ =>
    (books_record _).bind fun _ => keeps_pure _

theorem books_writeRegister (address : Nat) (value : UInt32) :
    Keeps (Machine.books · = books) (writeRegister address value : Action Device _) := by
  unfold writeRegister
  exact books_serveInterrupt.bind fun _ =>
    (books_onHardware fun d => d.books_writeRegister address value).bind fun _ => books_record _

theorem books_readAperture (offset : Nat) :
    Keeps (Machine.books · = books) (readAperture offset : Action Device _) :=
  keeps_get_bind fun m hm => (books_record _).bind (fun _ => keeps_pure _) m hm

theorem books_writeAperture (offset : Nat) (value : UInt32) :
    Keeps (Machine.books · = books) (writeAperture offset value : Action Device _) := by
  unfold writeAperture
  refine Keeps.bind (books_onHardware ?_) fun _ => books_record _
  intro d
  exact d.books_setVram (d.vram.size_write offset value)

/-! ## Words -/

/-- An access through the window keeps what changes of the window and the accesses to the registers
keep. -/
theorem keeps_throughWindow {π : Type} [Platform π] {P : Machine π → Prop} {i address : Nat}
    {access : Nat → Action π α} (hnote : ∀ n, Keeps P (note n))
    (hwindow : ∀ m f, (∀ c : Controller, f c = { c with window := (f c).window }) → P m →
      P (m.mapController i f))
    (hselector : ∀ value, Keeps P (writeRegister windowRegister value))
    (haccess : ∀ register, Keeps P (access register)) : Keeps P (throughWindow i address access) := by
  have hselect : Keeps P (selectWindow i (windowBase address)) := by
    unfold selectWindow
    apply keeps_get_bind
    intro m hm
    split
    · exact hm
    · refine Keeps.bind (hselector _) (fun _ => Keeps.bind (keeps_onController ?_) ?_) m hm
      · exact fun m hm => hwindow m _ (fun _ => rfl) hm
      · exact fun _ => keeps_pure _
  have hhold : Keeps P (holdingWindow i (accessSelected i address access)) := by
    unfold holdingWindow
    refine Keeps.bind (keeps_onController ?_) fun _ => keeps_andFinally ?_ ?_
    · exact fun m hm => hwindow m _ (fun _ => rfl) hm
    · exact hselect.bind fun _ => (haccess _).bind fun _ => keeps_pure _
    · exact fun m hm => hwindow m _ (fun _ => rfl) hm
  unfold throughWindow
  apply hhold.bind
  intro moved
  dsimp only
  split
  · exact (hnote _).bind fun _ => keeps_pure _
  · exact keeps_pure _

theorem books_throughWindow (i address : Nat) {access : Nat → Action Device α}
    (h : ∀ register, Keeps (Machine.books · = books) (access register)) :
    Keeps (Machine.books · = books) (throughWindow i address access) := by
  refine keeps_throughWindow books_note ?_ (books_writeRegister _) h
  intro m f hf hm
  refine (Machine.books_mapController ?_).trans hm
  intro c _
  rw [hf]
  rfl

theorem books_readWord (object : InstanceObject) (offset : Nat) :
    Keeps (Machine.books · = books) (readWord object offset : Action Device _) := by
  unfold readWord
  refine (keeps_lift _).bind ?_
  intro address
  cases object.strategy with
  | heap => exact books_readAperture address
  | iommu => exact books_throughWindow _ _ books_readRegister
  | dma => exact books_throughWindow _ _ books_readRegister

theorem books_writeWord (object : InstanceObject) (offset : Nat) (value : UInt32) :
    Keeps (Machine.books · = books) (writeWord object offset value : Action Device _) := by
  unfold writeWord
  refine (keeps_lift _).bind ?_
  intro address
  cases object.strategy with
  | heap => exact books_writeAperture address value
  | iommu => exact books_throughWindow _ _ fun register => books_writeRegister register value
  | dma => exact books_throughWindow _ _ fun register => books_writeRegister register value

/-! ## Accesses -/

/-! What every access to one word keeps, every access to words keeps. -/

section

variable {π : Type} [Platform π] {P : Machine π → Prop} {object : InstanceObject}

theorem keeps_readWords (h : ∀ offset, Keeps P (readWord object offset)) (offset words : Nat) :
    Keeps P (readWords object offset words) := by
  have hfrom : ∀ words offset before, Keeps P (readFrom object words offset before) := by
    intro words
    induction words with
    | zero => exact fun _ _ => keeps_pure _
    | succ words ih =>
      exact fun offset _ => (h offset).bind fun _ => (keeps_lift _).bind fun _ => ih _ _
  exact (keeps_lift _).bind fun _ => hfrom words offset []

theorem keeps_writeWords (h : ∀ offset value, Keeps P (writeWord object offset value))
    (offset : Nat) (values : List UInt32) : Keeps P (writeWords object offset values) := by
  have hfrom : ∀ values offset, Keeps P (writeFrom object values offset) := by
    intro values
    induction values with
    | nil => exact fun _ => keeps_pure _
    | cons value rest ih =>
      exact fun offset => (h offset value).bind fun _ => (keeps_lift _).bind fun _ => ih _
  exact (keeps_lift _).bind fun _ => hfrom values offset

theorem keeps_fill {value : UInt32} (h : ∀ offset, Keeps P (writeWord object offset value)) :
    Keeps P (fill object value) := by
  have hfrom : ∀ words offset, Keeps P (fillFrom object value words offset) := by
    intro words
    induction words with
    | zero => exact fun _ => keeps_pure _
    | succ words ih => exact fun offset => (h offset).bind fun _ => ih _
  exact hfrom object.words 0

end

theorem books_read32 (object : InstanceObject) (offset : Nat) :
    Keeps (Machine.books · = books) (read32 object offset : Action Device _) :=
  (keeps_lift _).bind fun _ => books_readWord object offset

theorem books_write32 (object : InstanceObject) (offset : Nat) (value : UInt32) :
    Keeps (Machine.books · = books) (write32 object offset value : Action Device _) :=
  (keeps_lift _).bind fun _ => books_writeWord object offset value

theorem books_readWords (object : InstanceObject) (offset words : Nat) :
    Keeps (Machine.books · = books) (readWords object offset words : Action Device _) :=
  keeps_readWords (books_readWord object) offset words

theorem books_writeWords (object : InstanceObject) (offset : Nat) (values : List UInt32) :
    Keeps (Machine.books · = books) (writeWords object offset values : Action Device _) :=
  keeps_writeWords (books_writeWord object) offset values

theorem books_fill (object : InstanceObject) (value : UInt32) :
    Keeps (Machine.books · = books) (fill object value : Action Device _) :=
  keeps_fill fun offset => books_writeWord object offset value

end Action
end InstanceMemory
