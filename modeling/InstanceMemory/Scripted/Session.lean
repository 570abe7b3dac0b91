import InstanceMemory.Scripted.Board
import InstanceMemory.Session.Basic

/-!
# Sessions on the scripted platform

A session on a board records what is asked of it. Beside the commands of every session there are
**probes**: of the memory behind the board's resource, and one that arms an interrupt, which
suspends a controller in the midst of whatever accesses a register next.
-/

set_option autoImplicit false

namespace InstanceMemory.Scripted

/-- A command to the board itself. -/
inductive Probe
  | readAperture (offset : Nat)
  | writeAperture (offset : Nat) (value : UInt32)
  /-- Suspends the controller of a name at the next register access; an unknown name takes an armed
  interrupt back. -/
  | interrupt (controller : String)
  deriving DecidableEq, Repr

/-- What a probe answers. -/
inductive Finding
  | nothing
  | word (value : UInt32)
  deriving DecidableEq, Repr

namespace Session

open InstanceMemory.Session (Step onMachine)
open InstanceMemory.Action (onHardware)

/-- A session on a board, with the space of device addresses behind its IOMMU. -/
def start (board : Board) (shared : Option RangeSpace) (journalOpen : Bool) :
    InstanceMemory.Session Board :=
  .start (.start board shared journalOpen true)

/-- Carries out a probe. -/
def probe : Probe → Step Board (Outcome Finding)
  | .readAperture offset => return .reply (.word ((← get).machine.hardware.readAperture offset))
  | .writeAperture offset value => do
    onMachine (onHardware fun b => .ok () (b.writeAperture offset value))
    return .reply .nothing
  | .interrupt name => do
    let target := (← get).controllers.get? name
    onMachine (modify fun m => { m with interrupt := target })
    return .reply .nothing

end Session
end InstanceMemory.Scripted
