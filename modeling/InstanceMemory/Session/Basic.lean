import InstanceMemory.Directory
import InstanceMemory.Machine.Construction
import InstanceMemory.Session.Command

/-!
# Sessions

A session is a machine together with the names under which its controllers and objects go. A
controller's name ends with the controller; its objects keep theirs and stay usable. When a session
ends, the remaining objects are freed in the order of their names, and then the remaining
controllers are destroyed in the order of theirs.
-/

set_option autoImplicit false

namespace InstanceMemory

/-- A machine with names for its controllers and objects. -/
structure Session (π : Type) where
  machine : Machine π
  /-- The numbers of the controllers that have not been destroyed. -/
  controllers : Directory Nat
  /-- The live objects, the firmware structures apart. -/
  objects : Directory InstanceObject

/-- The values of a list with the number of times they stand in a row; the runs before it are listed
the newest first. -/
def runsOf (before : List (Nat × UInt32)) : List UInt32 → List (Nat × UInt32)
  | [] => before.reverse
  | value :: rest =>
    match before with
    | (count, last) :: earlier =>
      if last = value then runsOf ((count + 1, last) :: earlier) rest
      else runsOf ((1, value) :: before) rest
    | [] => runsOf [(1, value)] rest

namespace Session

variable {π : Type} {α : Type}

/-- A session in which nothing has a name yet. -/
def start (machine : Machine π) : Session π := ⟨machine, [], []⟩

/-- A step of a session. -/
abbrev Step (π : Type) := EStateM Fault (Session π)

/-- Lets the machine act. -/
@[inline] def onMachine (act : Action π α) : Step π α := fun ⟨machine, controllers, objects⟩ =>
  match act machine with
  | .ok a machine => .ok a ⟨machine, controllers, objects⟩
  | .error f machine => .error f ⟨machine, controllers, objects⟩

/-- What an operation answers, as the outcome of a command. -/
def outcomeOf (reply : α → Reply) : Except Error α → Outcome Reply
  | .ok a => .reply (reply a)
  | .error cause => .error cause

/-- Goes on with the controller of a name. -/
def withController (name : String) (next : Nat → Step π (Outcome Reply)) :
    Step π (Outcome Reply) := do
  match (← get).controllers.get? name with
  | none => return .refused .noController
  | some i => next i

/-- The object a target stands for. -/
def resolve? (session : Session π) : Target → Option InstanceObject
  | .object name => session.objects.get? name
  | .firmware controller name => do
    let i ← session.controllers.get? controller
    return (← (session.machine.controller i).firmware).get name

/-- Goes on with the object of a target. -/
def withObject (target : Target) (next : InstanceObject → Step π (Outcome Reply)) :
    Step π (Outcome Reply) := do
  match (← get).resolve? target with
  | none => return .refused .noObject
  | some object => next object

variable [Platform π]

/-- Carries out an operation. -/
def operate : Operation → Step π (Outcome Reply)
  | .build name => do
    if ((← get).controllers.get? name).isSome then return .refused .nameInUse
    match ← onMachine Action.build with
    | .error cause => return .error cause
    | .ok i =>
      modify fun s => { s with controllers := s.controllers.insert name i }
      return .reply .nothing
  | .destroy name => withController name fun i => do
    modify fun s => { s with controllers := s.controllers.erase name }
    onMachine (Action.teardown i)
    return .reply .nothing
  | .init name => withController name fun i => do
    return outcomeOf (fun _ => .nothing) (← onMachine (Action.init i))
  | .suspend name => withController name fun i => do
    return outcomeOf (fun _ => .nothing) (← onMachine (Action.suspend i))
  | .resume name => withController name fun i => do
    return outcomeOf (fun _ => .nothing) (← onMachine (Action.resume i))
  | .allocate controller name size align zeroed => withController controller fun i => do
    if ((← get).objects.get? name).isSome then return .refused .nameInUse
    match ← onMachine (Action.allocate i size align zeroed) with
    | .error cause => return .error cause
    | .ok object =>
      modify fun s => { s with objects := s.objects.insert name object }
      return .reply (.object object)
  | .free name => withObject (.object name) fun object => do
    modify fun s => { s with objects := s.objects.erase name }
    onMachine (Action.free object)
    return .reply .nothing
  | .read32 target offset => withObject target fun object => do
    return .reply (.word (← onMachine (Action.read32 object offset)))
  | .write32 target offset value => withObject target fun object => do
    onMachine (Action.write32 object offset value)
    return .reply .nothing
  | .readWords target offset words => withObject target fun object => do
    return .reply (.words (← onMachine (Action.readWords object offset words)))
  | .writeWords target offset values => withObject target fun object => do
    onMachine (Action.writeWords object offset values)
    return .reply .nothing
  | .fill target value => withObject target fun object => do
    onMachine (Action.fill object value)
    return .reply .nothing
  | .scan target => withObject target fun object => do
    return .reply (.runs (runsOf [] (← onMachine (Action.readWords object 0 object.words))))

/-- The status of a controller. -/
def statusOf (machine : Machine π) (i : Nat) : ControllerStatus :=
  ⟨machine.controller i, (machine.spaceOf i).bind machine.space?⟩

/-- The report of a controller. -/
def reportOf (machine : Machine π) (i : Nat) : Except Fault ControllerReport := do
  let status := statusOf machine i
  return { status with dynamicBytes := ← status.controller.layout.mapM (·.dynamicBytes) }

/-- Looks at something. -/
def inspect : Inspection → Step π (Outcome Reply)
  | .object target => withObject target fun object => return .reply (.object object)
  | .objectText target => withObject target fun object => return .reply (.text object.fieldsText)
  | .controllerText name => withController name fun i => do
    return .reply (.text ((← get).machine.controller i).fieldsText)
  | .windowText name => withController name fun i => do
    return .reply (.text ((← get).machine.controller i).window.fieldsText)
  | .report name => withController name fun i => do
    return .reply (.report (← reportOf (← get).machine i))

/-- Carries out a command on a window. -/
def operateWindow : WindowCommand → Step π (Outcome Reply)
  | .invalidate name => withController name fun i => do
    onMachine (Action.invalidate i)
    return .reply .nothing
  | .tryInvalidate name => withController name fun i => do
    return .reply (.flag (← onMachine (Action.tryInvalidate i)))
  | .read name address => withController name fun i => do
    return .reply (.word (← onMachine (Action.readWindowed i address)))
  | .write name address value => withController name fun i => do
    onMachine (Action.writeWindowed i address value)
    return .reply .nothing

/-- Goes on with the space that the controller of a name places its objects in. -/
def withSpace (name : String) (next : SpaceId → Step π (Outcome Reply)) :
    Step π (Outcome Reply) :=
  withController name fun i => do
    match (← get).machine.spaceOf i with
    | none => return .refused .noSpace
    | some id => next id

/-- Carries out a command on a space. -/
def operateSpace : SpaceCommand → Step π (Outcome Reply)
  | .reserve name size align => withSpace name fun id => do
    return outcomeOf .range (← onMachine (Action.reserve id size align))
  | .release name range => withSpace name fun id => do
    onMachine (Action.release id range)
    return .reply .nothing

/-- Carries out a command. -/
def carryOut : Command → Step π (Outcome Reply)
  | .operation operation => operate operation
  | .inspection inspection => inspect inspection
  | .window command => operateWindow command
  | .space command => operateSpace command

/-- The outcome of a step, and the session after it. A step that faults leaves what it did. -/
def outcome (step : Step π (Outcome α)) (session : Session π) : Outcome α × Session π :=
  match step session with
  | .ok outcome session => (outcome, session)
  | .error cause session => (.faulted cause, session)

/-- Frees objects in turn. -/
def freeAll : List InstanceObject → Action π Unit
  | [] => return
  | object :: rest => do
    Action.free object
    freeAll rest

/-- Destroys controllers in turn. -/
def teardownAll : List Nat → Action π Unit
  | [] => return
  | i :: rest => do
    Action.teardown i
    teardownAll rest

/-- Ends the session. -/
def finish : Step π (Outcome Reply) := do
  let objects := (← get).objects.values
  modify fun s => { s with objects := [] }
  onMachine (freeAll objects)
  let controllers := (← get).controllers.values
  modify fun s => { s with controllers := [] }
  onMachine (teardownAll controllers)
  return .reply .nothing

/-! ## What shows from outside -/

/-- The named controllers, in the order of their names. -/
def statuses (session : Session π) : List (String × ControllerStatus) :=
  session.controllers.map fun (name, i) => (name, statusOf session.machine i)

/-- The lines noted since they were taken last, and the session without them. -/
def takeLines (session : Session π) : List String × Session π :=
  (session.machine.journal.lines.toList,
    { session with machine.journal.lines := #[] })

/-- The platform events since they were taken last, and the session without them. -/
def takeEvents (session : Session π) : List Call × Session π :=
  (session.machine.trace.platformEvents, { session with machine.trace.calls := #[] })

end Session
end InstanceMemory
