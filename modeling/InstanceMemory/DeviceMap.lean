/-!
# The device's map

The registers that instance memory needs, the window onto device memory, the page size, and the bit
of a device address that has it resolved through the IOMMU.

A device address splits into the base of its window and an offset: the lowest 20 bits are the offset,
the 24 bits above them are the window, and the bits above 44 play no part.
-/

set_option autoImplicit false

namespace InstanceMemory

/-! ## Registers -/

/-- The register that tells the enabled shader units, in its bits 8 to 15. -/
def unitConfigRegister : Nat := 0x1540

/-- The register that selects the window: it takes the window's base without its lowest 16 bits. -/
def windowRegister : Nat := 0x1700

/-- The register through which the first word of the selected window is seen. -/
def apertureRegister : Nat := 0x700000

/-! ## The window -/

/-- The size of a window. -/
def windowSize : Nat := 0x100000

/-- One past the largest address that a window can show. -/
def windowedLimit : Nat := 0x100000000000

/-- What the window register leaves out of a window's base. -/
def windowRegisterStep : Nat := 0x10000

/-- The base of the window an address lies in. -/
def windowBase (address : Nat) : Nat := address % windowedLimit / windowSize * windowSize

/-- Where in its window an address lies. -/
def windowOffset (address : Nat) : Nat := address % windowSize

/-- The value that makes the window register select a base. -/
def windowSelector (base : Nat) : UInt32 := UInt32.ofNat (base / windowRegisterStep)

/-! ## Pages -/

/-- The size of a page. -/
def pageSize : Nat := 0x1000

/-- The number of bits of a page offset. -/
def pageBits : Nat := 12

/-! ## Resolving through the IOMMU -/

/-- The bit of a device address that has it resolved through the IOMMU. -/
def resolveBit : Nat := 0x400000000

/-- Whether an address is resolved through the IOMMU. -/
def isResolved (address : Nat) : Bool := address / resolveBit % 2 == 1

/-- The address without its resolve bit. -/
def stripResolveBit (address : Nat) : Nat :=
  if isResolved address then address - resolveBit else address

/-- The address with its resolve bit. -/
def setResolveBit (address : Nat) : Nat :=
  if isResolved address then address else address + resolveBit

/-! ## The aperture in dedicated memory -/

/-- The resource that carries the aperture if it has a length. -/
def primaryBar : Nat := 2

/-- The resource that carries the aperture otherwise. -/
def fallbackBar : Nat := 3

end InstanceMemory
