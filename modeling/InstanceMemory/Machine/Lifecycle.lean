import InstanceMemory.Machine.State

/-!
# The phases of a controller

A controller is initialized once, and then suspended and resumed in turn. Suspending forgets the
window, which the device does not preserve, and is refused while an access through the window is
under way. A refused request changes nothing.
-/

set_option autoImplicit false

namespace InstanceMemory.Controller

/-- The controller in the phase a request leads to, if it is in the phase the request needs. -/
def transition (c : Controller) (request : Request) (source target : Phase) :
    Except Error Controller :=
  if c.phase = source then .ok { c with phase := target }
  else .error (.invalidState request c.phase)

/-- The controller without trust in its window, unless an access is under way. -/
def tryInvalidate (c : Controller) : Option Controller :=
  if c.window.isHeld then none else some { c with window.cached := none }

end InstanceMemory.Controller

namespace InstanceMemory.Action

variable {π : Type}

/-- Puts a controller in the place of its record, and notes the change. -/
def replaceController (i : Nat) (c : Controller) (n : Notice) : Action π (Except Error Unit) := do
  onController i fun _ => c
  note n
  return .ok ()

/-- Makes a fresh controller ready. -/
def init (i : Nat) : Action π (Except Error Unit) := do
  let c := (← get).controller i
  match c.transition .init .constructed .initialized with
  | .error cause => return .error cause
  | .ok ready => replaceController i ready (.initialized c.strategy)

/-- Suspends a controller. -/
def suspend (i : Nat) : Action π (Except Error Unit) := do
  let c := (← get).controller i
  match c.transition .suspend .initialized .suspended with
  | .error cause => return .error cause
  | .ok asleep =>
    match asleep.tryInvalidate with
    | none => return .error .busy
    | some asleep => replaceController i asleep .suspended

/-- Wakes a suspended controller. -/
def resume (i : Nat) : Action π (Except Error Unit) := do
  let c := (← get).controller i
  match c.transition .resume .suspended .initialized with
  | .error cause => return .error cause
  | .ok awake => replaceController i awake .resumed

/-- Makes a controller program the window before its next access. -/
def invalidate (i : Nat) : Action π Unit :=
  onController i fun c => { c with window.cached := none }

/-- As `invalidate`, unless an access through the window is under way; tells whether it was done. -/
def tryInvalidate (i : Nat) : Action π Bool := do
  match ((← get).controller i).tryInvalidate with
  | none => return false
  | some c =>
    onController i fun _ => c
    return true

/-- Suspends the controller that an interrupt names, if it is still there. An interrupt comes
once. -/
def serveInterrupt : Action π Unit := do
  match (← get).interrupt with
  | none => return
  | some i =>
    modify fun m => { m with interrupt := none }
    if ((← get).controller i).isPresent then
      record (.interrupt (← suspend i))

end InstanceMemory.Action
