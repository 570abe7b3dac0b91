/-!
# Chipsets

A chipset number tells the family of a device. Instance memory is served on the families from Curie
to Maxwell; the reserved heap in dedicated VRAM is sized for Curie alone.
-/

set_option autoImplicit false

namespace InstanceMemory

/-- Device families, the oldest first. -/
inductive Family
  | tnt | celsius | kelvin | rankine | curie | tesla | fermi | kepler | maxwell | pascal | unknown
  deriving DecidableEq, Repr, Inhabited

namespace Family

/-- Every family, the oldest first. -/
def all : List Family :=
  [tnt, celsius, kelvin, rankine, curie, tesla, fermi, kepler, maxwell, pascal, unknown]

/-- The name of a family. -/
def name : Family → String
  | tnt => "Tnt"
  | celsius => "Celsius"
  | kelvin => "Kelvin"
  | rankine => "Rankine"
  | curie => "Curie"
  | tesla => "Tesla"
  | fermi => "Fermi"
  | kepler => "Kepler"
  | maxwell => "Maxwell"
  | pascal => "Pascal"
  | unknown => "Unknown"

/-- The family of a given name. -/
def ofName? (text : String) : Option Family := all.find? (·.name == text)

/-- The family a chipset number belongs to. -/
def ofChipset (chipset : UInt32) : Family :=
  let n := chipset.toNat
  if n = 0x04 ∨ n = 0x05 then tnt
  else if 0x10 ≤ n ∧ n ≤ 0x1f then celsius
  else if 0x20 ≤ n ∧ n ≤ 0x2f then kelvin
  else if 0x30 ≤ n ∧ n ≤ 0x3f then rankine
  else if 0x40 ≤ n ∧ n ≤ 0x4f ∨ 0x60 ≤ n ∧ n ≤ 0x6f then curie
  else if n = 0x50 ∨ 0x80 ≤ n ∧ n ≤ 0xaf then tesla
  else if 0xc0 ≤ n ∧ n ≤ 0xdf then fermi
  else if 0xe0 ≤ n ∧ n ≤ 0x10f then kepler
  else if 0x110 ≤ n ∧ n ≤ 0x12f then maxwell
  else if 0x130 ≤ n ∧ n ≤ 0x13f then pascal
  else unknown

/-- Whether instance memory is served on the family. -/
def isSupported : Family → Bool
  | curie | tesla | fermi | kepler | maxwell => true
  | tnt | celsius | kelvin | rankine | pascal | unknown => false

end Family

/-- What a device says of itself when a controller is built on it. -/
structure ChipsetInfo where
  chipset : UInt32
  family : Family
  /-- The device has dedicated video memory. -/
  hasVram : Bool
  deriving DecidableEq, Repr, Inhabited

/-- The identity of a chipset, with the family its number says. -/
def ChipsetInfo.ofChipset (chipset : UInt32) (hasVram : Bool) : ChipsetInfo :=
  ⟨chipset, Family.ofChipset chipset, hasVram⟩

end InstanceMemory
