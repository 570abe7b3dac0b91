import InstanceMemory.Proofs.Machine.Lasting
import InstanceMemory.Proofs.Machine.Phases
import InstanceMemory.Proofs.Machine.Places

/-!
# Machines without dedicated memory

On a device without dedicated memory every object lies in system memory, and is seen through the
window alone. A machine is `Windowed` if its device is such a one, nothing is recorded and nothing
interrupts an access. Accesses keep it quiet (`Quiet.keeps_readWord`, `Quiet.keeps_writeWord`), whether
they answer or fault and wherever the window has been moved to, so requests leave it windowed
(`Windowed.lasting`). Building a controller takes nothing on such a device (`Action.build_cases`).
-/

set_option autoImplicit false

namespace InstanceMemory

open Simulator (Device)

variable {α : Type} {i address size : Nat} {m m' : Machine Device} {o : InstanceObject}

/-! ## Machines that stay quiet -/

/-- A quiet machine whose device has a property. -/
structure QuietWith (P : Device → Prop) (m : Machine Device) : Prop where
  quiet : Quiet m
  device : P m.hardware

namespace QuietWith

variable {P : Device → Prop}

theorem keeps_note (n : Notice) : Keeps (QuietWith P) (Action.note n) :=
  Action.keeps_note (fun _ _ h => ⟨⟨h.quiet.silent, h.quiet.uninterrupted⟩, h.device⟩) n

theorem keeps_record (call : Call) : Keeps (QuietWith P) (Action.record call) := by
  intro m h
  rw [leaves_of_ok (h.quiet.record call)]
  exact h

theorem keeps_onHardware {act : EStateM Fault Device α} (h : ∀ d, P d → P (leaves act d)) :
    Keeps (QuietWith P) (Action.onHardware act) :=
  Action.keeps_onHardware fun m hm =>
    ⟨⟨hm.quiet.silent, hm.quiet.uninterrupted⟩, h m.hardware hm.device⟩

theorem keeps_readRegister (register : Nat) : Keeps (QuietWith P) (Action.readRegister register) := by
  intro m h
  rw [leaves, h.quiet.readRegister register]
  refine keeps_onHardware (fun d hd => ?_) m h
  rwa [Action.leaves_platform_readRegister]

/-- An access through the window keeps what the window does not matter to, wherever the window is, if
the access of the device does. -/
theorem keeps_throughWindow (hP : ∀ d window windowWrites, P d → P { d with window, windowWrites })
    {access : Nat → Action Device α} {act : EStateM Fault Device α} (haccess : ∀ m, Quiet m →
      access (apertureRegister + windowOffset address) m = Action.onHardware act m)
    (hact : ∀ d, P d → P (leaves act d)) :
    Keeps (QuietWith P) (Action.throughWindow i address access) := by
  intro m h
  have hshowing : P (m.showing i (windowBase address)).hardware := by
    obtain ⟨window, windowWrites, hselecting⟩ :=
      Device.exists_selecting (m.trusted i) (windowBase address) m.hardware
    rw [Machine.showing, hselecting]
    exact hP _ _ _ h.device
  rw [leaves, h.quiet.throughWindow i address haccess]
  refine (keeps_onHardware hact).bind (fun answer => ?_) _
    ⟨⟨h.quiet.silent, h.quiet.uninterrupted⟩, hshowing⟩
  split
  · exact (keeps_note _).bind fun _ => keeps_pure _
  · exact keeps_pure _

/-- **A read changes nothing but the window**, whatever its controller trusts. -/
theorem keeps_readWord (hP : ∀ d window windowWrites, P d → P { d with window, windowWrites })
    (o : InstanceObject) (offset : Nat) : Keeps (QuietWith P) (Action.readWord o offset) := by
  have haperture : ∀ address, Keeps (QuietWith P) (Action.readAperture address) := fun address =>
    keeps_get_bind fun m h => (keeps_record _).bind (fun _ => keeps_pure _) m h
  have hwindow : ∀ address, Keeps (QuietWith P) (Action.readWindowed o.owner address) := by
    intro address
    refine keeps_throughWindow hP (fun m h => h.readRegister _) fun d hd => ?_
    rwa [Action.leaves_platform_readRegister]
  unfold Action.readWord
  refine (keeps_lift _).bind ?_
  intro address
  cases o.strategy with
  | heap => exact haperture address
  | iommu => exact hwindow address
  | dma => exact hwindow address

/-! No request for another phase touches the device. -/

theorem phaseless : Phaseless (QuietWith P) := fun _ _ _ _ _ h =>
  ⟨⟨h.quiet.silent, h.quiet.uninterrupted⟩, h.device⟩

end QuietWith

namespace Quiet

theorem phaseless : Phaseless Quiet := fun _ _ _ _ _ h => ⟨h.silent, h.uninterrupted⟩

/-- What keeps a machine quiet, whatever becomes of the device. -/
theorem of_keeps {act : Action Device α} (h : Keeps (QuietWith fun _ => True) act) :
    Keeps Quiet act := fun m hm => (h m ⟨hm, trivial⟩).quiet

theorem keeps_readWord (o : InstanceObject) (offset : Nat) : Keeps Quiet (Action.readWord o offset) :=
  of_keeps (QuietWith.keeps_readWord (fun _ _ _ _ => trivial) o offset)

theorem keeps_writeWord (o : InstanceObject) (offset : Nat) (value : UInt32) :
    Keeps Quiet (Action.writeWord o offset value) := by
  have haperture : ∀ address, Keeps Quiet (Action.writeAperture address value) := fun address =>
    of_keeps ((QuietWith.keeps_onHardware fun _ _ => trivial).bind fun _ => QuietWith.keeps_record _)
  have hwindow : ∀ address, Keeps Quiet (Action.writeWindowed o.owner address value) := fun address =>
    of_keeps (QuietWith.keeps_throughWindow (fun _ _ _ _ => trivial)
      (fun m h => h.writeRegister _ value) fun _ _ => trivial)
  unfold Action.writeWord
  refine (keeps_lift _).bind ?_
  intro address
  cases o.strategy with
  | heap => exact haperture address
  | iommu => exact hwindow address
  | dma => exact hwindow address

end Quiet

/-! ## Building -/

/-- Without dedicated memory a controller takes nothing to be built. -/
theorem Action.build_cases {π : Type} [Platform π] {m : Machine π}
    (h : (Platform.chipset m.hardware).hasVram = false) :
    (∃ cause, (Action.build : Action π _) m = .ok (.error cause) m) ∨
      ∃ c journal, c.phase = .constructed ∧ c.strategy ≠ .heap ∧ c.firmware = none ∧
        Action.build m =
          .ok (.ok m.controllers.length) { m with controllers := m.controllers ++ [c], journal } := by
  have henlist : ∀ (n : Notice) (text : String) (c : Controller), n.text = .ok text →
      ∃ journal, Action.enlist n c m =
        .ok (.ok m.controllers.length) { m with controllers := m.controllers ++ [c], journal } := by
    intro n text c hn
    obtain ⟨journal, hnote⟩ := Action.note_of_text hn m
    refine ⟨journal, ?_⟩
    rw [Action.enlist, run_bind_of_ok hnote]
    rfl
  have hvram : ¬ (Platform.chipset m.hardware).hasVram = true := by
    rw [h]
    exact Bool.false_ne_true
  unfold Action.build
  rw [run_get_bind]
  by_cases hfamily : ¬ (Platform.chipset m.hardware).family.isSupported
  · rw [if_pos hfamily]
    exact .inl ⟨_, rfl⟩
  · rw [if_neg hfamily, if_neg hvram]
    by_cases hshared : m.shared.isSome = true
    · rw [if_pos hshared]
      let c : Controller := .fresh (Platform.chipset m.hardware) .iommu none
      obtain ⟨journal, hact⟩ := henlist .servingIommu _ c rfl
      exact .inr ⟨c, journal, rfl, (by decide : Strategy.iommu ≠ .heap), rfl, hact⟩
    · rw [if_neg hshared]
      let c : Controller := .fresh (Platform.chipset m.hardware) .dma none
      obtain ⟨journal, hact⟩ := henlist .servingDma _ c rfl
      exact .inr ⟨c, journal, rfl, (by decide : Strategy.dma ≠ .heap), rfl, hact⟩

/-! ## Windowed machines -/

/-- A quiet machine whose device has no dedicated memory, and system memory of a size. -/
structure Windowed (size : Nat) (m : Machine Device) : Prop where
  quiet : Quiet m
  memory : m.hardware.config.hasVram = false
  size_eq : m.hardware.memory.size = size

namespace Windowed

theorem of_store (h : Windowed size m) (hstore : m'.store = m.store) : Windowed size m' := by
  have hconfig : m'.hardware.config = m.hardware.config := congrArg (·.hardware.config) hstore
  have hsize : m'.hardware.memory.size = m.hardware.memory.size :=
    congrArg (·.hardware.memory.size) hstore
  exact ⟨h.quiet.of_store hstore, hconfig ▸ h.memory, hsize.trans h.size_eq⟩

/-- What leaves the books alone keeps a machine windowed if it keeps it quiet. -/
theorem keeps {act : Action Device α} (hquiet : Keeps Quiet act)
    (hbooks : ∀ books, Keeps (Machine.books · = books) act) : Keeps (Windowed size) act := by
  intro m h
  have hsame := hbooks _ m rfl
  have hconfig : (leaves act m).hardware.config = m.hardware.config :=
    congrArg (·.hardware.config) hsame
  have hsize : (leaves act m).hardware.memory.size = m.hardware.memory.size :=
    congrArg (·.hardware.memory.size) hsame
  exact ⟨hquiet m h.quiet, hconfig ▸ h.memory, hsize.trans h.size_eq⟩

theorem lasting (i size : Nat) : Lasting i (Windowed size) where
  of_store _ _ hstore h := h.of_store hstore
  zeroing o _ := keeps (Action.keeps_fill fun offset => Quiet.keeps_writeWord o offset 0) fun _ =>
    Action.books_fill o 0
  register register := keeps (Quiet.of_keeps (QuietWith.keeps_readRegister register)) fun _ =>
    Action.books_readRegister register

/-- No machine without dedicated memory places objects on a heap. -/
theorem strategy_ne_heap (h : Windowed size m) : m.strategy ≠ .heap := by
  rw [ne_eq, Accounts.hasVram_iff, h.memory]
  exact Bool.false_ne_true

end Windowed
end InstanceMemory
