import InstanceMemory.Simulator.Config
import InstanceMemory.Simulator.Translation

/-!
# The simulated device

Just enough of a device for instance memory to run on: a register file whose aperture resolves
through the programmed window, dedicated VRAM, system memory, and an IOMMU if the configuration has
one. Device addresses reach VRAM if the device has it. On any other device they are physical
addresses of system memory, and those with the resolve bit are translated first. An access that
reaches nothing reads as all ones and writes nothing.
-/

set_option autoImplicit false

namespace InstanceMemory.Simulator

/-- What a read of nothing answers. -/
def busError : UInt32 := 0xffffffff

/-- Dedicated memory. -/
structure Vram where
  /-- The number of words. -/
  size : Nat
  words : WordMemory

namespace Vram

/-- Memory of a length in bytes; a part of a word at its end does not count. -/
def create (length : Nat) : Vram := ⟨length / 4, .zero⟩

/-- The length in bytes. -/
def length (vram : Vram) : Nat := vram.size * 4

/-- The number of the word at an offset, if the offset is that of a word. -/
def word? (vram : Vram) (offset : Nat) : Option Nat :=
  if offset % 4 = 0 ∧ offset / 4 < vram.size then some (offset / 4) else none

/-- The word at an offset. -/
def read (vram : Vram) (offset : Nat) : UInt32 :=
  match vram.word? offset with
  | none => busError
  | some word => vram.words.read word

/-- Writes the word at an offset. -/
def write (offset : Nat) (value : UInt32) (vram : Vram) : Vram :=
  match vram.word? offset with
  | none => vram
  | some word =>
    let ⟨size, words⟩ := vram
    ⟨size, words.write word value⟩

/-- Writes a value to some words from an offset on. -/
def fill (value : UInt32) : (words offset : Nat) → Vram → Vram
  | 0, _, vram => vram
  | words + 1, offset, vram => fill value words (offset + 4) (vram.write offset value)

end Vram

/-- A simulated device. -/
structure Device where
  config : Config
  /-- The value of the window register. -/
  window : UInt32
  /-- How often the window register was written. -/
  windowWrites : Nat
  /-- Every other register that was written. -/
  registers : Std.TreeMap Nat UInt32
  vram : Vram
  memory : SystemMemory
  translation : Option Translation
  refusesBars : Bool

namespace Device

/-- The device of a configuration on a host, with the space of device addresses behind its IOMMU. -/
def start (config : Config) (host : Host := default) :
    Except StartError (Device × Option RangeSpace) := do
  host.map config.systemMemorySize
  let memory ← (SystemMemory.create config.systemMemorySize).mapError .space
  let vram := Vram.create (max config.primaryBarLength config.fallbackBarLength)
  let shared ← config.iommuSpace.mapM fun size =>
    if resolveBit < size then throw .overlapsResolveBit
    else (RangeSpace.create "iommu" 0 size pageSize).mapError .space
  let translation := shared.map fun _ => Translation.empty
  return (⟨config, 0, 0, ∅, vram, memory, translation, false⟩, shared)

/-! ## Device addresses -/

/-- Where in its memory a device address lies. -/
def resolve (d : Device) (address : Nat) : Except Fault (Option Nat) :=
  if d.config.hasVram then .ok (some address)
  else if isResolved address then
    match d.translation with
    | none => .ok none
    | some translation => translation.translate (stripResolveBit address)
  else .ok (some address)

/-- The word at a device address. -/
def read (d : Device) (address : Nat) : Except Fault UInt32 := do
  match ← d.resolve address with
  | none => return busError
  | some place =>
    if d.config.hasVram then return d.vram.read place
    else return (d.memory.read? place).getD busError

/-- Writes the word at a place of the device's memory. -/
def writeAt (place : Nat) (value : UInt32) : Device → Device :=
  fun ⟨config, window, windowWrites, registers, vram, memory, translation, refusesBars⟩ =>
    if config.hasVram then
      ⟨config, window, windowWrites, registers, vram.write place value, memory, translation,
        refusesBars⟩
    else
      ⟨config, window, windowWrites, registers, vram, (memory.write place value).2, translation,
        refusesBars⟩

/-- Writes the word at a device address. -/
def write (address : Nat) (value : UInt32) : EStateM Fault Device Unit := fun d =>
  match d.resolve address with
  | .error f => .error f d
  | .ok none => .ok () d
  | .ok (some place) => .ok () (d.writeAt place value)

/-! ## Registers -/

/-- The base that the window register selects. -/
def selectedBase (d : Device) : Nat := d.window.toNat * windowRegisterStep

/-- The device address that a register of the aperture shows, if it is one. -/
def shownAddress? (d : Device) (register : Nat) : Option Nat :=
  if apertureRegister ≤ register ∧ register < apertureRegister + windowSize then
    some (d.selectedBase + (register - apertureRegister))
  else none

/-- Reads a register. The unit configuration always reads as configured. -/
def readRegister (d : Device) (register : Nat) : Except Fault UInt32 :=
  if register = unitConfigRegister then .ok d.config.unitConfig
  else if register = windowRegister then .ok d.window
  else
    match d.shownAddress? register with
    | some address => d.read address
    | none => .ok (d.registers.getD register 0)

/-- Writes a register. -/
def writeRegister (register : Nat) (value : UInt32) : EStateM Fault Device Unit := fun d =>
  if register = windowRegister then
    .ok () { d with window := value, windowWrites := d.windowWrites + 1 }
  else
    match d.shownAddress? register with
    | some address => write address value d
    | none => .ok () { d with registers := d.registers.insert register value }

/-! ## Resources -/

/-- The length of a resource. -/
def barLength (d : Device) (bar : Nat) : Nat :=
  if bar = primaryBar then d.config.primaryBarLength
  else if bar = fallbackBar then d.config.fallbackBarLength
  else 0

/-- The length of the aperture a resource maps to. Either resource shows the same memory. -/
def mapBar (d : Device) (bar : Nat) : Option Nat :=
  if d.refusesBars ∨ d.barLength bar = 0 then none else some d.vram.length

/-! ## Parts of the device -/

/-- Lets the system memory act. -/
def onMemory {α : Type} (act : SystemMemory → Except Fault (α × SystemMemory)) :
    EStateM Fault Device α := fun d =>
  match act d.memory with
  | .ok (a, memory) => .ok a { d with memory }
  | .error f => .error f d

/-- Lets the system memory take something back, with something to note. -/
def onMemoryNoting (act : SystemMemory → Journal → Except Fault (SystemMemory × Journal)) :
    EStateM Fault (Device × Journal) Unit := fun (d, journal) =>
  match act d.memory journal with
  | .ok (memory, journal) => .ok () ({ d with memory }, journal)
  | .error f => .error f (d, journal)

/-- Lets the translation act; without one the answer is given. -/
def onTranslation {α : Type} (absent : α) (act : EStateM Fault Translation α) :
    EStateM Fault Device α := fun d =>
  match d.translation with
  | none => .ok absent d
  | some translation =>
    match act translation with
    | .ok a translation => .ok a { d with translation := some translation }
    | .error f translation => .error f { d with translation := some translation }

/-- Maps a run of device addresses, or refuses with a code. -/
def map (address physical size : Nat) (permissions : Permissions) :
    EStateM Fault Device (Except Int Unit) := do
  return (← onTranslation (.error .invalid) (Translation.map address physical size permissions))
    |>.mapError MappingRefusal.code

/-- Takes back the mappings of a run of device addresses. -/
def unmap (address size : Nat) : EStateM Fault Device Nat :=
  onTranslation 0 (Translation.unmap address size)

end Device

instance : Platform Device where
  chipset d := .ofChipset d.config.chipset d.config.hasVram
  readRegister register := fun d =>
    match d.readRegister register with
    | .ok value => .ok value d
    | .error f => .error f d
  writeRegister := Device.writeRegister
  barLength := Device.barLength
  mapBar := Device.mapBar
  readAperture d offset := d.vram.read offset
  writeAperture d offset value := { d with vram := d.vram.write offset value }
  allocPage := Device.onMemory SystemMemory.allocPage
  freePage page := Device.onMemoryNoting (SystemMemory.freePage page)
  map := Device.map
  unmap := Device.unmap
  allocBuffer size _ := Device.onMemory (SystemMemory.allocBuffer size)
  freeBuffer buffer _ := Device.onMemoryNoting (SystemMemory.freeBuffer buffer)

end InstanceMemory.Simulator
