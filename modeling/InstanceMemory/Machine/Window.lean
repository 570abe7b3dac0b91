import InstanceMemory.Machine.Calls

/-!
# Access through the window

Device memory is seen through a window of 1 MiB that a register selects. A controller remembers the
base it selected last and writes the register only for an access outside that window. The window is
held from the selection to the end of the access, so a suspend request in between is refused and the
access goes to the memory it was meant for.
-/

set_option autoImplicit false

namespace InstanceMemory.Action

variable {π : Type} [Platform π] {α : Type}

/-- Makes the window show a base, and tells whether the register was written for it. -/
def selectWindow (i base : Nat) : Action π Bool := do
  if ((← get).controller i).window.cached = some base then return false
  writeRegister windowRegister (windowSelector base)
  onController i fun c => { c with window.cached := some base }
  return true

/-- Runs an action while a controller's window is held. -/
@[inline] def holdingWindow (i : Nat) (act : Action π α) : Action π α := do
  onController i fun c => { c with window.isHeld := true }
  andFinally act (·.mapController i fun c => { c with window.isHeld := false })

/-- Runs an access to a register of the aperture with the window over an address, and tells whether
the window was moved for it. -/
@[inline] def accessSelected (i address : Nat) (access : (register : Nat) → Action π α) :
    Action π (Bool × α) := do
  let moved ← selectWindow i (windowBase address)
  return (moved, ← access (apertureRegister + windowOffset address))

/-- Runs an access through the window, which is held for it. A move of the window is noted once the
access is done. -/
@[inline] def throughWindow (i address : Nat) (access : (register : Nat) → Action π α) : Action π α := do
  let (moved, answer) ← holdingWindow i (accessSelected i address access)
  if moved then note (.windowMoved (windowBase address))
  return answer

/-- Reads the word at a device address. -/
def readWindowed (i address : Nat) : Action π UInt32 :=
  throughWindow i address readRegister

/-- Writes the word at a device address. -/
def writeWindowed (i address : Nat) (value : UInt32) : Action π Unit :=
  throughWindow i address (writeRegister · value)

end InstanceMemory.Action
