import InstanceMemory.Session.Basic
import InstanceMemory.Simulator.Device

/-!
# Sessions on the simulated device

Beside the commands of every session there are **probes**, which reach past the controllers to the
device itself: its memory, registers and resources, the faults it can be told to have, and its
allocators and translation table.
-/

set_option autoImplicit false

namespace InstanceMemory.Simulator

/-- A command to the device itself. -/
inductive Probe
  | readVram (offset : Nat)
  | writeVram (offset : Nat) (value : UInt32)
  | fillVram (offset words : Nat) (value : UInt32)
  | vramLength
  | readMemory (physical : Nat)
  | writeMemory (physical : Nat) (value : UInt32)
  /-- Reads a device address as the device itself does. -/
  | readAsDevice (address : Nat)
  | readRegister (register : Nat)
  | writeRegister (register : Nat) (value : UInt32)
  | barLength (bar : Nat)
  | mapBar (bar : Nat)
  | readBar (bar offset : Nat)
  | writeBar (bar offset : Nat) (value : UInt32)
  /-- Refuses pages after a number of them. -/
  | limitPages (count : Nat)
  /-- Refuses mappings after a number of them. -/
  | limitMappings (count : Nat)
  | refuseBuffers (refuse : Bool)
  | refuseBars (refuse : Bool)
  /-- Refuses nothing any more. -/
  | clearFaults
  | allocPage
  | freePage (page : Nat)
  | allocBuffer (size : Nat)
  | freeBuffer (buffer : Buffer)
  | map (address physical size : Nat) (permissions : Permissions)
  | unmap (address size : Nat)
  | translate (address : Nat)
  | sharedSpace
  | iommuText
  | configuration
  deriving DecidableEq, Repr

/-- What a probe answers. -/
inductive Finding
  | nothing
  | flag (value : Bool)
  | word (value : UInt32)
  | optionalWord (value : Option UInt32)
  | address (value : Nat)
  | optionalAddress (value : Option Nat)
  /-- The length of VRAM. -/
  | extent (length : Nat)
  | optionalBuffer (buffer : Option Buffer)
  | refusedMapping (code : Int)
  | optionalSpace (space : Option RangeSpace)
  | text (text : String)
  | configuration (config : Config)
  deriving DecidableEq, Repr

/-- What shows of the device after each step. -/
structure Status where
  windowWrites : Nat
  windowBase : Nat
  livePages : Nat
  liveBuffers : Nat
  /-- How many pages are mapped, if there is an IOMMU. -/
  mappedPages : Option Nat
  /-- How much of the device addresses behind the IOMMU is free. -/
  freeAddresses : Option Nat
  deriving DecidableEq, Repr

/-- What shows of a device and the space behind its IOMMU. -/
def Device.status (d : Device) (shared : Option RangeSpace) : Status where
  windowWrites := d.windowWrites
  windowBase := d.selectedBase
  livePages := d.memory.livePages
  liveBuffers := d.memory.liveBuffers
  mappedPages := d.translation.map (·.mappedPages)
  freeAddresses := shared.map (·.freeBytes)

/-- The fields of the space behind an IOMMU by name. -/
def iommuText : Option RangeSpace → String
  | none => "None"
  | some space => "Some(IommuContext \x7b space: " ++ space.bounds.fieldsText ++ ", .. \x7d)"

namespace Session

open InstanceMemory.Session (Step onMachine)
open InstanceMemory.Action (onHardware onHardwareNoting)

/-- A session on the device of a configuration, on a host. -/
def start (config : Config) (journalOpen : Bool) (host : Host := default) :
    Except StartError (InstanceMemory.Session Device) := do
  let (device, shared) ← Device.start config host
  return .start (.start device shared journalOpen false)

/-- The device as it stands. -/
def device : Step Device Device := return (← get).machine.hardware

/-- Changes the device. -/
def change (f : Device → Device) : Step Device (Outcome Finding) := do
  onMachine (onHardware fun d => .ok () (f d))
  return .reply .nothing

/-- Changes the limits of the system memory. -/
def changeMemory (f : SystemMemory → SystemMemory) : Step Device (Outcome Finding) :=
  change fun d => { d with memory := f d.memory }

/-- Goes on if the device has an IOMMU. -/
def withIommu (next : Step Device (Outcome Finding)) : Step Device (Outcome Finding) := do
  if (← device).translation.isSome then next else return .refused .noIommu

/-- Carries out a probe. -/
def probe : Probe → Step Device (Outcome Finding)
  | .readVram offset => return .reply (.word ((← device).vram.read offset))
  | .writeVram offset value => change fun d => { d with vram := d.vram.write offset value }
  | .fillVram offset words value => change fun d => { d with vram := d.vram.fill value words offset }
  | .vramLength => return .reply (.extent (← device).vram.length)
  | .readMemory physical => return .reply (.optionalWord ((← device).memory.read? physical))
  | .writeMemory physical value => do
    let isWord := ((← device).memory.word? physical).isSome
    let _ ← changeMemory fun memory => (memory.write physical value).2
    return .reply (.flag isWord)
  | .readAsDevice address => return .reply (.word (← (← device).read address))
  | .readRegister register =>
    return .reply (.word (← onMachine (onHardware (Platform.readRegister register))))
  | .writeRegister register value => do
    onMachine (onHardware (Platform.writeRegister register value))
    return .reply .nothing
  | .barLength bar => return .reply (.address ((← device).barLength bar))
  | .mapBar bar => return .reply (.optionalAddress ((← device).mapBar bar))
  | .readBar bar offset => do
    let d ← device
    return .reply (.optionalWord ((d.mapBar bar).map fun _ => d.vram.read offset))
  | .writeBar bar offset value => do
    let isMapped := ((← device).mapBar bar).isSome
    if isMapped then
      let _ ← change fun d => { d with vram := d.vram.write offset value }
    return .reply (.flag isMapped)
  | .limitPages count => changeMemory fun memory => { memory with pageBudget := some count }
  | .limitMappings count =>
    change fun d => { d with translation := d.translation.map ({ · with budget := some count }) }
  | .refuseBuffers refuse => changeMemory fun memory => { memory with refusesBuffers := refuse }
  | .refuseBars refuse => change fun d => { d with refusesBars := refuse }
  | .clearFaults => change fun d =>
    { d with
      memory := { d.memory with pageBudget := none, refusesBuffers := false }
      translation := d.translation.map ({ · with budget := none })
      refusesBars := false }
  | .allocPage => return .reply (.optionalAddress (← onMachine (onHardware Platform.allocPage)))
  | .freePage page => do
    onMachine (onHardwareNoting (Platform.freePage page))
    return .reply .nothing
  | .allocBuffer size => do
    let buffer ← onMachine (onHardware (Platform.allocBuffer size .instanceMemory))
    return .reply (.optionalBuffer buffer)
  | .freeBuffer buffer => do
    onMachine (onHardwareNoting (Platform.freeBuffer buffer .instanceMemory))
    return .reply .nothing
  | .map address physical size permissions => withIommu do
    match ← onMachine (onHardware (Platform.map address physical size permissions)) with
    | .ok () => return .reply .nothing
    | .error code => return .reply (.refusedMapping code)
  | .unmap address size => withIommu do
    return .reply (.address (← onMachine (onHardware (Platform.unmap address size))))
  | .translate address => withIommu do
    match (← device).translation with
    | none => return .refused .noIommu
    | some translation => return .reply (.optionalAddress (← translation.translate address))
  | .sharedSpace => return .reply (.optionalSpace (← get).machine.shared)
  | .iommuText => return .reply (.text (iommuText (← get).machine.shared))
  | .configuration => return .reply (.configuration (← device).config)

/-- What shows of the device of a session. -/
def status (session : InstanceMemory.Session Device) : Status :=
  session.machine.hardware.status session.machine.shared

end Session
end InstanceMemory.Simulator
