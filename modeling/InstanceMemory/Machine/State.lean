import InstanceMemory.Controller
import InstanceMemory.Trace

/-!
# Machines

A **machine** is a platform with the controllers built on it, the space of device addresses they
share, and what has been noted and asked so far. Operations are actions on a machine: they answer,
or fault and leave behind what they did.

This module holds the state and the actions that touch nothing but bookkeeping: notices, the trace,
the record of a controller, and the range spaces by name.
-/

set_option autoImplicit false

namespace InstanceMemory

/-- A platform with everything built on it. -/
structure Machine (π : Type) where
  hardware : π
  /-- The device addresses behind the IOMMU, if the device has one. -/
  shared : Option RangeSpace
  /-- Every controller built so far, in the order they were built. -/
  controllers : List Controller
  /-- A controller to be suspended before the next register access. -/
  interrupt : Option Nat
  journal : Journal
  trace : Trace

/-- An operation on a machine. -/
abbrev Action (π : Type) := EStateM Fault (Machine π)

namespace Machine

variable {π : Type}

/-- A machine without controllers. -/
def start (hardware : π) (shared : Option RangeSpace) (journalOpen recording : Bool) : Machine π :=
  ⟨hardware, shared, [], none, .start journalOpen, .start recording⟩

/-- The controller of a number. -/
def controller (m : Machine π) (i : Nat) : Controller := m.controllers.getD i default

/-- The machine with one controller's record changed. -/
@[inline] def mapController (m : Machine π) (i : Nat) (f : Controller → Controller) : Machine π :=
  { m with controllers := m.controllers.modify i f }

/-- The space of a name. -/
def space? (m : Machine π) : SpaceId → Option RangeSpace
  | .shared => m.shared
  | .heap i =>
    match (m.controller i).backing with
    | .heap space _ => some space
    | .iommu | .dma => none

/-- The machine with one space replaced. -/
def setSpace (m : Machine π) (id : SpaceId) (space : RangeSpace) : Machine π :=
  match id with
  | .shared => { m with shared := some space }
  | .heap i => m.mapController i fun c =>
    match c.backing with
    | .heap _ apertureLength => { c with backing := .heap space apertureLength }
    | .iommu | .dma => c

/-- The space that a controller places its objects in; buffers are placed by the platform. -/
def spaceOf (m : Machine π) (i : Nat) : Option SpaceId :=
  match (m.controller i).strategy with
  | .heap => some (.heap i)
  | .iommu => some .shared
  | .dma => none

/-- How many ranges of the shared space are allocated. -/
def held (m : Machine π) : Nat := (m.shared.map (·.allocated.length)).getD 0

end Machine

namespace Action

variable {π : Type} {α : Type}

/-- Enters a notice into the journal. -/
def note (n : Notice) : Action π Unit := fun m =>
  match m.journal.note n with
  | .ok journal => .ok () { m with journal }
  | .error f => .error f m

/-- Adds a call to the trace. -/
def record (call : Call) : Action π Unit := fun m =>
  if m.trace.isRecording then .ok () { m with trace := m.trace.record call } else .ok () m

/-- Changes the record of one controller. -/
@[inline] def onController (i : Nat) (f : Controller → Controller) : Action π Unit := fun m =>
  .ok () (m.mapController i f)

/-- Runs an action, and changes the machine after it, also if the action faults. -/
@[inline] def andFinally (act : Action π α) (f : Machine π → Machine π) : Action π α := fun m =>
  match act m with
  | .ok a m => .ok a (f m)
  | .error e m => .error e (f m)

/-- Runs an action, and undoes what came before it if the action faults. -/
@[inline] def orUndo (act : Action π α) (undo : Action π Unit) : Action π α := fun m =>
  match act m with
  | .ok a m => .ok a m
  | .error f m =>
    match undo m with
    | .ok _ m => .error f m
    | .error f m => .error f m

/-- Reserves a range of a space. A space that the machine does not have holds nothing. -/
def reserve (id : SpaceId) (size align : Nat) : Action π (Except Error AddressRange) := do
  match (← get).space? id with
  | none => return .error (.outOfAddressSpace size align)
  | some space =>
    match ← space.reserve size align with
    | .error cause =>
      record (.reserve id size align (.error cause))
      return .error cause
    | .ok (range, space) =>
      modify (·.setSpace id space)
      record (.reserve id size align (.ok range))
      return .ok range

/-- Releases a range of a space. -/
def release (id : SpaceId) (range : AddressRange) : Action π Unit := do
  let m ← get
  match m.space? id with
  | none => return
  | some space =>
    let (space, journal) ← space.release range m.journal
    modify fun m => { m.setSpace id space with journal }
    record (.release id range)

end Action
end InstanceMemory
