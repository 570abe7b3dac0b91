import InstanceMemory.Error

/-!
# Configurations of the simulated device

A configuration says which device is simulated and how much memory of each kind it has. Two presets
stand for the two kinds of device; all else is changed field by field.

The system memory of the device is mapped by the machine that simulates it, the **host**. What a host
maps is its own affair, so it is asked.
-/

set_option autoImplicit false

namespace InstanceMemory.Simulator

/-- What a simulated device is made of. -/
structure Config where
  chipset : UInt32
  hasVram : Bool
  /-- The value of the unit configuration register. -/
  unitConfig : UInt32
  primaryBarLength : Nat
  fallbackBarLength : Nat
  systemMemorySize : Nat
  /-- The size of the device addresses behind the IOMMU, if there is one. -/
  iommuSpace : Option Nat
  deriving DecidableEq, Repr, Inhabited

namespace Config

/-- A board with dedicated VRAM and all eight shader units. -/
def dedicatedVram (chipset : UInt32) : Config where
  chipset
  hasVram := true
  unitConfig := 0xff00
  primaryBarLength := 0x800000
  fallbackBarLength := 0
  systemMemorySize := 0x400000
  iommuSpace := none

/-- A part without VRAM, whose objects come from system memory. -/
def systemMemory (chipset : UInt32) : Config where
  chipset
  hasVram := false
  unitConfig := 0
  primaryBarLength := 0
  fallbackBarLength := 0
  systemMemorySize := 0x2000000
  iommuSpace := none

end Config

/-- Why a device cannot be simulated. -/
inductive StartError
  | emptyMemory
  /-- The host does not map the system memory. -/
  | unmappedMemory
  | space (cause : Error)
  /-- The device addresses behind the IOMMU reach the resolve bit. -/
  | overlapsResolveBit
  deriving DecidableEq, Repr

/-- The wording of a start error. -/
def StartError.message : StartError → String
  | .emptyMemory => "Invalid argument (os error 22)"
  | .unmappedMemory => "Cannot allocate memory (os error 12)"
  | .space cause => cause.message
  | .overlapsResolveBit => "IOMMU space overlaps the IOMMU resolve bit"

/-- The machine that simulates. -/
structure Host where
  /-- Whether a memory of a length in bytes is mapped. -/
  grants : Nat → Bool

namespace Host

/-- A host that grants whatever it is asked for. -/
def unlimited : Host := ⟨fun _ => true⟩

/-- A host that grants memory up to a length. -/
def upTo (limit : Nat) : Host := ⟨fun length => length ≤ limit⟩

/-- Where no host is named, eight gigabytes are granted at most. -/
instance : Inhabited Host := ⟨upTo 0x200000000⟩

/-- Asks a host for memory of a length. No host maps a memory of no length. -/
def map (host : Host) (length : Nat) : Except StartError Unit :=
  if length = 0 then .error .emptyMemory
  else if host.grants length then .ok ()
  else .error .unmappedMemory

end Host

end InstanceMemory.Simulator
