import InstanceMemory.Machine.Lifecycle

/-!
# Calls to the platform

One action per question to the platform. Each is answered by the platform and entered into the
trace. An interrupt is served before a register access, so a suspend request can come in between the
programming of the window and the access through it.
-/

set_option autoImplicit false

namespace InstanceMemory.Action

variable {π : Type} [Platform π] {α : Type}

/-- Lets the platform act. -/
@[inline] def onHardware (act : EStateM Fault π α) : Action π α :=
  fun ⟨hardware, shared, controllers, interrupt, journal, trace⟩ =>
    match act hardware with
    | .ok a hardware => .ok a ⟨hardware, shared, controllers, interrupt, journal, trace⟩
    | .error f hardware => .error f ⟨hardware, shared, controllers, interrupt, journal, trace⟩

/-- Lets the platform act, with something to note. -/
@[inline] def onHardwareNoting (act : EStateM Fault (π × Journal) α) : Action π α :=
  fun ⟨hardware, shared, controllers, interrupt, journal, trace⟩ =>
    match act (hardware, journal) with
    | .ok a (hardware, journal) => .ok a ⟨hardware, shared, controllers, interrupt, journal, trace⟩
    | .error f (hardware, journal) =>
      .error f ⟨hardware, shared, controllers, interrupt, journal, trace⟩

/-- Reads a register. -/
def readRegister (address : Nat) : Action π UInt32 := do
  serveInterrupt
  let value ← onHardware (Platform.readRegister address)
  record (.readRegister address value)
  return value

/-- Writes a register. -/
def writeRegister (address : Nat) (value : UInt32) : Action π Unit := do
  serveInterrupt
  onHardware (Platform.writeRegister address value)
  record (.writeRegister address value)

/-- Reads a word through the aperture. -/
def readAperture (offset : Nat) : Action π UInt32 := do
  let value := Platform.readAperture (← get).hardware offset
  record (.readAperture offset value)
  return value

/-- Writes a word through the aperture. -/
def writeAperture (offset : Nat) (value : UInt32) : Action π Unit := do
  onHardware fun hardware => .ok () (Platform.writeAperture hardware offset value)
  record (.writeAperture offset value)

/-- Asks for the length of a resource. -/
def barLength (bar : Nat) : Action π Nat := do
  record (.barLength bar)
  return Platform.barLength (← get).hardware bar

/-- Maps a resource, and tells the length of the aperture it gives. -/
def mapBar (bar : Nat) : Action π (Option Nat) := do
  record (.mapBar bar)
  return Platform.mapBar (← get).hardware bar

/-- Takes a page of system memory. -/
def allocPage : Action π (Option Nat) := do
  let page ← onHardware Platform.allocPage
  record (.allocPage page)
  return page

/-- Gives a page back. -/
def freePage (page : Nat) : Action π Unit := do
  let held := (← get).held
  onHardwareNoting (Platform.freePage page)
  record (.freePage page held)

/-- Maps one page to a device address, for reading and writing. -/
def mapPage (address page : Nat) : Action π (Except Int Unit) := do
  let answer ← onHardware (Platform.map address page pageSize .readWrite)
  record (.map address page pageSize .readWrite answer)
  return answer

/-- Takes back the mapping of one page of device addresses. -/
def unmapPage (address : Nat) : Action π Unit := do
  let held := (← get).held
  let _ ← onHardware (Platform.unmap address pageSize)
  record (.unmap address pageSize held)

/-- Takes a contiguous buffer. -/
def allocBuffer (size : Nat) : Action π (Option Buffer) := do
  let buffer ← onHardware (Platform.allocBuffer size .instanceMemory)
  record (.allocBuffer size .instanceMemory buffer)
  return buffer

/-- Gives a buffer back. -/
def freeBuffer (buffer : Buffer) : Action π Unit := do
  onHardwareNoting (Platform.freeBuffer buffer .instanceMemory)
  record (.freeBuffer buffer .instanceMemory)

end InstanceMemory.Action
