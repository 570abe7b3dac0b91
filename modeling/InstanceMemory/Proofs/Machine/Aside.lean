import InstanceMemory.Proofs.Machine.Books
import InstanceMemory.Proofs.Machine.Ledger
import InstanceMemory.Proofs.Machine.Phases

/-!
# What goes on beside taking and giving back

Most of what a machine does takes nothing and gives nothing back: it notes, it accesses registers, it
moves a window, and it changes the phase of a controller, at a request or at an interrupt. A property
of machines is `Aside` if all this leaves it alone, on whatever platform. It is then kept by every
access to an object (`Aside.readWord`, `Aside.writeWord`) and by every request for another phase
(`Aside.phaseless`), **whether they answer or fault**.

What has been given back so far is such a property (`aside_returned`).
-/

set_option autoImplicit false

namespace InstanceMemory

variable {π : Type}

/-- A property that neither the platform's state, the journal, an interrupt, a call that neither
takes nor gives back, nor a controller's window and phase have to do with. -/
structure Aside (P : Machine π → Prop) : Prop where
  hardware : ∀ m (hardware : π), P m → P { m with hardware }
  journal : ∀ m journal, P m → P { m with journal }
  interrupt : ∀ m, P m → P { m with interrupt := none }
  call : ∀ m call, call.takes = none → call.gives = none → P m →
    P { m with trace := m.trace.record call }
  controller : ∀ m i f, (∀ c, m.controllers[i]? = some c →
      (f c).backing = c.backing ∧ (f c).firmware = c.firmware) →
    P m → P (m.mapController i f)

namespace Aside

variable {P : Machine π → Prop} (hP : Aside P)

include hP

theorem note (n : Notice) : Keeps P (Action.note n) := Action.keeps_note hP.journal n

theorem record {call : Call} (htakes : call.takes = none) (hgives : call.gives = none) :
    Keeps P (Action.record call) := by
  intro m hm
  unfold leaves Action.record
  by_cases hrecording : m.trace.isRecording = true
  · rw [if_pos hrecording]
    exact hP.call m call htakes hgives hm
  · rw [if_neg hrecording]
    exact hm

theorem onHardware {α : Type} (act : EStateM Fault π α) : Keeps P (Action.onHardware act) :=
  Action.keeps_onHardware fun m hm => hP.hardware m _ hm

/-- A request for another phase changes the record of its controller at most. -/
theorem phaseless : Phaseless P := by
  intro m i phase window journal hm
  refine hP.journal _ journal (hP.controller m i _ (fun c hc => ?_) hm)
  rw [← Machine.controller_of_getElem? hc]
  exact ⟨rfl, rfl⟩

/-- An interrupt suspends a controller at most. -/
theorem serveInterrupt : Keeps P Action.serveInterrupt := by
  apply keeps_get_bind
  intro m hm
  cases m.interrupt with
  | none => exact hm
  | some i =>
    have hserved := hP.interrupt m hm
    dsimp only
    rw [leaves, run_modify_bind, run_get_bind, ← leaves]
    split
    · exact ((hP.phaseless.suspend i).bind fun _ => hP.record rfl rfl) _ hserved
    · exact hserved

/-! ## Accesses -/

variable [Platform π]

theorem readRegister (register : Nat) : Keeps P (Action.readRegister register) :=
  hP.serveInterrupt.bind fun _ => (hP.onHardware _).bind fun _ =>
    (hP.record rfl rfl).bind fun _ => keeps_pure _

theorem writeRegister (register : Nat) (value : UInt32) :
    Keeps P (Action.writeRegister register value) :=
  hP.serveInterrupt.bind fun _ => (hP.onHardware _).bind fun _ => hP.record rfl rfl

theorem throughWindow {α : Type} {i address : Nat} {access : Nat → Action π α}
    (h : ∀ register, Keeps P (access register)) :
    Keeps P (Action.throughWindow i address access) := by
  refine Action.keeps_throughWindow hP.note ?_ (hP.writeRegister _) h
  intro m f hf hm
  refine hP.controller m i f (fun c _ => ?_) hm
  rw [hf]
  exact ⟨rfl, rfl⟩

theorem readWord (object : InstanceObject) (offset : Nat) :
    Keeps P (Action.readWord object offset) := by
  have hwindow : ∀ address, Keeps P (Action.readWindowed object.owner address) := fun address =>
    hP.throughWindow hP.readRegister
  unfold Action.readWord
  refine (keeps_lift _).bind fun address => ?_
  cases object.strategy with
  | heap => exact keeps_get_bind fun m hm => (hP.record rfl rfl).bind (fun _ => keeps_pure _) m hm
  | iommu => exact hwindow address
  | dma => exact hwindow address

theorem writeWord (object : InstanceObject) (offset : Nat) (value : UInt32) :
    Keeps P (Action.writeWord object offset value) := by
  have hwindow : ∀ address, Keeps P (Action.writeWindowed object.owner address value) :=
    fun address => hP.throughWindow fun register => hP.writeRegister register value
  unfold Action.writeWord
  refine (keeps_lift _).bind fun address => ?_
  cases object.strategy with
  | heap => exact (hP.onHardware _).bind fun _ => hP.record rfl rfl
  | iommu => exact hwindow address
  | dma => exact hwindow address

end Aside

/-! ## What has been given back -/

/-- What has been given back so far, the oldest first. -/
def Machine.returned (m : Machine π) : List Loan := m.trace.calls.toList.filterMap Call.gives

theorem Machine.returned_record {m : Machine π} {call : Call} (hgives : call.gives = none) :
    { m with trace := m.trace.record call }.returned = m.returned := by
  unfold Machine.returned Trace.record
  dsimp only
  split
  · rw [Array.toList_push, List.filterMap_append, List.filterMap_cons_none hgives]
    exact List.append_nil _
  · rfl

/-- **What goes on beside gives nothing back.** -/
theorem aside_returned (returned : List Loan) :
    Aside fun m : Machine π => m.returned = returned where
  hardware _ _ h := h
  journal _ _ h := h
  interrupt _ h := h
  call _ _ _ hgives h := (Machine.returned_record hgives).trans h
  controller _ _ _ _ h := h

end InstanceMemory
