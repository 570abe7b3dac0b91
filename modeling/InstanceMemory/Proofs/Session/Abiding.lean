import InstanceMemory.Proofs.Machine.Windowed
import InstanceMemory.Proofs.Session.Runs
import InstanceMemory.Proofs.Simulator.Device

/-!
# What abides in a session

A property of the machine is `Abiding` if everything that a session does with the machine keeps it: it
can be read from the store, it has nothing to do with what a request for another phase changes, single
words can be read and written without losing it, and so can registers be read, controllers be added and
refusals be set. **What abides is kept by every move** (`Abiding.after`), whether it is answered,
refused or faults, on every kind of device.

What a configuration settles abides (`Configured`), and so does that nothing is recorded and nothing
interrupts an access (`Quiet.abiding`).
-/

set_option autoImplicit false

namespace InstanceMemory

open Simulator (Config Device Move)
open Simulator.Session (Rearmed)

variable {α : Type} {P : Machine Device → Prop} {session : Session Device}

/-- A property that is kept by everything that is done with a machine. -/
structure Abiding (P : Machine Device → Prop) : Prop where
  of_store : ∀ m m', m'.store = m.store → P m → P m'
  phaseless : Phaseless P
  readWord : ∀ o offset, Keeps P (Action.readWord o offset)
  writeWord : ∀ o offset value, Keeps P (Action.writeWord o offset value)
  register : ∀ address, Keeps P (Action.readRegister address)
  add : ∀ m c, P m → P { m with controllers := m.controllers ++ [c] }
  rearm : ∀ m d, Rearmed m.hardware d → P m → P { m with hardware := d }

namespace Session

theorem keeps_onMachine {act : Action Device α} (h : Keeps P act) :
    Keeps (fun session => P session.machine) (onMachine act) := by
  intro session hsession
  rw [leaves_onMachine]
  exact h _ hsession

/-- What a controller does to the machine is all it does. -/
theorem keeps_ofController {name : String} {act : Nat → Action Device α}
    (h : ∀ i, Keeps P (act i)) (reply : α → Outcome Reply) :
    Keeps (fun session => P session.machine)
      (withController name fun i => onMachine (act i) >>= fun a => pure (reply a)) :=
  keeps_withController fun session i hsession _ =>
    (keeps_onMachine (h i)).bind (fun _ => keeps_pure _) session hsession

/-- What an access does to the machine is all it does. -/
theorem keeps_ofObject {target : Target} {act : InstanceObject → Action Device α}
    (h : ∀ o, Keeps P (act o)) (reply : α → Outcome Reply) :
    Keeps (fun session => P session.machine)
      (withObject target fun o => onMachine (act o) >>= fun a => pure (reply a)) :=
  keeps_withObject fun session o hsession _ =>
    (keeps_onMachine (h o)).bind (fun _ => keeps_pure _) session hsession

end Session

namespace Abiding

variable (hP : Abiding P)

include hP

/-! ## Every action -/

theorem keeps {act : Action Device α} (h : ∀ store, Keeps (Machine.store · = store) act) :
    Keeps P act := fun m hm => hP.of_store m _ (h _ m rfl) hm

theorem fill (o : InstanceObject) (value : UInt32) : Keeps P (Action.fill o value) :=
  Action.keeps_fill fun offset => hP.writeWord o offset value

theorem readWords (o : InstanceObject) (offset words : Nat) :
    Keeps P (Action.readWords o offset words) :=
  Action.keeps_readWords (hP.readWord o) offset words

/-- What abides lasts for every controller. -/
theorem lasting (i : Nat) : Lasting i P where
  of_store := hP.of_store
  zeroing o _ := hP.fill o 0
  register := hP.register

/-- **Building a controller keeps what abides**, on every kind of device. -/
theorem build : Keeps P (Action.build : Action Device _) := by
  have hadd : ∀ c, Keeps P (Action.addController c : Action Device _) := fun c =>
    keeps_get_bind fun m hm => hP.add m c hm
  have henlist : ∀ n c, Keeps P (Action.enlist n c : Action Device _) := fun n c =>
    (hP.keeps fun _ => Action.store_note n).bind fun _ => (hadd c).bind fun _ => keeps_pure _
  apply keeps_get_bind
  intro m hm
  dsimp only
  split
  · exact hm
  · split
    · refine Keeps.bind ((hP.lasting 0).reserveHeap _) ?_ m hm
      intro answer
      cases answer with
      | error cause => exact keeps_pure _
      | ok reserved => exact (hadd _).bind fun i => (hP.lasting i).equip reserved.2
    · split
      · exact henlist _ _ m hm
      · exact henlist _ _ m hm

/-! ## Every move -/

theorem operate (operation : Operation) :
    Keeps (fun session => P session.machine) (Session.operate operation) := by
  cases operation with
  | build name =>
    apply keeps_get_bind
    intro session h
    split
    · exact h
    · refine Keeps.bind (P := fun session => P session.machine) (Session.keeps_onMachine hP.build) ?_
        session h
      intro answer
      cases answer with
      | error cause => exact keeps_pure _
      | ok i => exact fun _ h => h
  | destroy name =>
    apply Session.keeps_withController
    intro session i h _
    rw [leaves, run_modify_bind, ← leaves]
    exact (Session.keeps_onMachine (hP.keeps fun _ => Action.store_teardown i)).bind
      (fun _ => keeps_pure _) _ h
  | init name => exact Session.keeps_ofController hP.phaseless.init _
  | suspend name => exact Session.keeps_ofController hP.phaseless.suspend _
  | resume name => exact Session.keeps_ofController hP.phaseless.resume _
  | allocate controller name size align zeroed =>
    apply Session.keeps_withController
    intro session i h _
    rw [leaves, run_get_bind, ← leaves]
    split
    · exact h
    · refine Keeps.bind (P := fun session => P session.machine)
        (Session.keeps_onMachine ((hP.lasting i).allocate size align zeroed)) ?_ session h
      intro answer
      cases answer with
      | error cause => exact keeps_pure _
      | ok object => exact fun _ h => h
  | free name =>
    apply Session.keeps_withObject
    intro session o h _
    rw [leaves, run_modify_bind, ← leaves]
    exact (Session.keeps_onMachine (hP.keeps fun _ => Action.store_free o)).bind
      (fun _ => keeps_pure _) _ h
  | read32 target offset =>
    exact Session.keeps_ofObject (fun o => (keeps_lift _).bind fun _ => hP.readWord o offset) _
  | write32 target offset value =>
    exact Session.keeps_ofObject (fun o => (keeps_lift _).bind fun _ => hP.writeWord o offset value) _
  | readWords target offset words =>
    exact Session.keeps_ofObject (fun o => hP.readWords o offset words) _
  | writeWords target offset values =>
    exact Session.keeps_ofObject (fun o => Action.keeps_writeWords (hP.writeWord o) offset values) _
  | fill target value => exact Session.keeps_ofObject (fun o => hP.fill o value) _
  | scan target => exact Session.keeps_ofObject (fun o => hP.readWords o 0 o.words) _

/-- **Every move keeps what abides.** -/
theorem after (session : Session Device) (move : Move) (h : P session.machine) :
    P (Simulator.Session.after session move).machine := by
  cases move with
  | operation operation =>
    rw [Simulator.Session.after, Simulator.Session.outcome_snd]
    exact hP.operate operation session h
  | faults probe hfaults =>
    obtain ⟨d, hd, hleaves⟩ := Simulator.Session.probe_setsFaults hfaults session
    rw [Simulator.Session.after, Simulator.Session.outcome_snd, hleaves]
    exact hP.rearm session.machine d hd h

/-- **Every run keeps what abides.** -/
theorem run (moves : List Move) (h : P session.machine) :
    P (Simulator.Session.run moves session).machine :=
  Simulator.Session.run_induction (P := fun session => P session.machine) hP.after moves h

end Abiding

/-! ## What abides -/

/-- Nothing is recorded and nothing interrupts an access, in every run. -/
theorem Quiet.abiding : Abiding Quiet where
  of_store _ _ hstore h := h.of_store hstore
  phaseless := Quiet.phaseless
  readWord := Quiet.keeps_readWord
  writeWord := Quiet.keeps_writeWord
  register address := Quiet.of_keeps (QuietWith.keeps_readRegister address)
  add _ _ h := ⟨h.silent, h.uninterrupted⟩
  rearm _ _ _ h := ⟨h.silent, h.uninterrupted⟩

/-- What a configuration settles of a machine. -/
structure Configured (config : Config) (m : Machine Device) : Prop where
  same : m.hardware.config = config
  memory : m.hardware.memory.size = config.systemMemorySize
  shared : m.shared.isSome = config.iommuSpace.isSome

namespace Configured

variable {config : Config} {m m' : Machine Device}

theorem of_books (h : Configured config m) (hbooks : m'.books = m.books) : Configured config m' := by
  have hconfig : m'.hardware.config = m.hardware.config := congrArg (·.hardware.config) hbooks
  have hmemory : m'.hardware.memory.size = m.hardware.memory.size :=
    congrArg (·.hardware.memory.size) hbooks
  have hshared : m'.shared = m.shared := congrArg (·.shared) hbooks
  exact ⟨hconfig.trans h.same, hmemory.trans h.memory, hshared ▸ h.shared⟩

theorem of_store (h : Configured config m) (hstore : m'.store = m.store) : Configured config m' := by
  have hconfig : m'.hardware.config = m.hardware.config := congrArg (·.hardware.config) hstore
  have hmemory : m'.hardware.memory.size = m.hardware.memory.size :=
    congrArg (·.hardware.memory.size) hstore
  have hshared := congrArg (·.shared.isSome) hstore
  simp only [Machine.store, Machine.frame, Option.isSome_map] at hshared
  exact ⟨hconfig.trans h.same, hmemory.trans h.memory, hshared.trans h.shared⟩

/-- **Every run leaves the device as it is configured.** -/
theorem abiding (config : Config) : Abiding (Configured config) where
  of_store _ _ hstore h := h.of_store hstore
  phaseless _ _ _ _ _ h := ⟨h.same, h.memory, h.shared⟩
  readWord o offset m h := h.of_books (Action.books_readWord o offset m rfl)
  writeWord o offset value m h := h.of_books (Action.books_writeWord o offset value m rfl)
  register address m h := h.of_books (Action.books_readRegister address m rfl)
  add _ _ h := ⟨h.same, h.memory, h.shared⟩
  rearm := by
    rintro m _ ⟨pageBudget, refusesBuffers, f, refusesBars, rfl⟩ h
    exact ⟨h.same, h.memory, h.shared⟩

/-- A session starts on the device of its configuration. -/
theorem start {journalOpen : Bool} {host : Simulator.Host}
    (h : Simulator.Session.start config journalOpen host = .ok session) :
    Configured config session.machine := by
  obtain ⟨device, shared, hstart, rfl⟩ := Simulator.Session.start_eq_ok h
  obtain ⟨memory, -, rfl, -⟩ := Device.start_eq_ok hstart
  exact ⟨rfl, rfl, Device.isSome_of_start hstart⟩

/-- The strategy of a device follows from its configuration. -/
theorem strategy_eq (h : Configured config m) : m.strategy =
    if config.hasVram then .heap else if config.iommuSpace.isSome then .iommu else .dma := by
  rw [Machine.strategy, h.same, h.shared]

end Configured
end InstanceMemory
