import InstanceMemory.Object
import InstanceMemory.Controller

/-!
# Commands and what they answer

A session names controllers and objects, and is driven by commands. The commands fall into four
groups: the **operations** of controllers and objects, the **inspections**, which change nothing,
and two groups that reach past the objects, to a controller's **window** and to the **space** it
places objects in.

A command is answered, ends in an error of the operation, is refused because a name does not stand
for what it needs, or faults.
-/

set_option autoImplicit false

namespace InstanceMemory

/-- An object as commands name it. -/
inductive Target
  | object (name : String)
  /-- A firmware structure of a controller. -/
  | firmware (controller : String) (name : FirmwareName)
  deriving DecidableEq, Repr

/-- The operations of controllers and objects. -/
inductive Operation
  | build (controller : String)
  | destroy (controller : String)
  | init (controller : String)
  | suspend (controller : String)
  | resume (controller : String)
  | allocate (controller object : String) (size align : Nat) (zeroed : Bool)
  | free (object : String)
  | read32 (target : Target) (offset : Nat)
  | write32 (target : Target) (offset : Nat) (value : UInt32)
  | readWords (target : Target) (offset words : Nat)
  | writeWords (target : Target) (offset : Nat) (values : List UInt32)
  | fill (target : Target) (value : UInt32)
  /-- Reads a whole object and counts equal neighbours. -/
  | scan (target : Target)
  deriving DecidableEq, Repr

/-- The commands that only look. -/
inductive Inspection
  | object (target : Target)
  | objectText (target : Target)
  | controllerText (controller : String)
  | windowText (controller : String)
  | report (controller : String)
  deriving DecidableEq, Repr

/-- The commands on a controller's window. -/
inductive WindowCommand
  | invalidate (controller : String)
  | tryInvalidate (controller : String)
  | read (controller : String) (address : Nat)
  | write (controller : String) (address : Nat) (value : UInt32)
  deriving DecidableEq, Repr

/-- The commands on the space a controller places its objects in. -/
inductive SpaceCommand
  | reserve (controller : String) (size align : Nat)
  | release (controller : String) (range : AddressRange)
  deriving DecidableEq, Repr

/-- What drives a session. -/
inductive Command
  | operation (operation : Operation)
  | inspection (inspection : Inspection)
  | window (command : WindowCommand)
  | space (command : SpaceCommand)
  deriving DecidableEq, Repr

/-- Why a command was not carried out. -/
inductive Refusal
  | nameInUse
  | noController
  | noObject
  /-- The controller places its objects in no space of its own choosing. -/
  | noSpace
  /-- The device has no IOMMU. -/
  | noIommu
  deriving DecidableEq, Repr

/-- A controller with the space it places objects in, if it has one. -/
structure ControllerStatus where
  controller : Controller
  space : Option RangeSpace
  deriving DecidableEq, Repr

/-- All there is to say of a controller. -/
structure ControllerReport extends ControllerStatus where
  /-- What the firmware structures leave of its heap. -/
  dynamicBytes : Option Nat
  deriving DecidableEq, Repr

/-- The answer of a command that was carried out. -/
inductive Reply
  | nothing
  | flag (value : Bool)
  | word (value : UInt32)
  | words (values : List UInt32)
  /-- Values with the number of times they stand in a row. -/
  | runs (runs : List (Nat × UInt32))
  | range (range : AddressRange)
  | text (text : String)
  | object (object : InstanceObject)
  | report (report : ControllerReport)
  deriving DecidableEq, Repr

/-- How a command ended, for answers of some type. -/
inductive Outcome (α : Type)
  | reply (answer : α)
  | error (cause : Error)
  | refused (cause : Refusal)
  | faulted (cause : Fault)
  deriving DecidableEq, Repr

end InstanceMemory
