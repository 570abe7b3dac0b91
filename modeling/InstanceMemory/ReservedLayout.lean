import InstanceMemory.AddressRange
import InstanceMemory.Alignment
import InstanceMemory.DeviceMap

/-!
# The reserved layout

The heap reserved at the start of dedicated VRAM: how large it is for a chipset and its number of
shader units, and where in it the firmware structures lie. The structures are packed from offset
zero on; the size leaves room for the graphics contexts of every channel, the translation table and
the storage of other objects, rounded up to pages.
-/

set_option autoImplicit false

namespace InstanceMemory

/-- Whether a chipset has the nv44 graphics class: the whole 0x6x row has it, and so have those
columns of every other row whose bit is clear in `0xaaf`. -/
def isNv44Class (chipset : UInt32) : Bool :=
  chipset &&& 0xf0 == 0x60 || !(0xaaf : Nat).testBit (chipset &&& 0xf).toNat

/-- The bytes of a graphics context that one shader unit takes. -/
def contextSizePerUnit (chipset : UInt32) : Nat :=
  if chipset = 0x40 then 0x6aa0
  else if chipset < 0x43 then 0x4f00
  else if isNv44Class chipset then 0x4980
  else 0x4a40

/-- The number of enabled shader units, from the value of the unit configuration register. -/
def enabledShaderUnits (unitConfig : UInt32) : Nat :=
  setBitsOfLowByte ((unitConfig &&& 0xff00) >>> 8)

/-- The reserved heap and the placement of the firmware structures in it. -/
structure ReservedLayout where
  chipset : UInt32
  shaderUnits : UInt32
  /-- The bytes of one channel's graphics context. -/
  contextSize : Nat
  /-- The size of the heap, which starts at offset zero. -/
  reserved : Nat
  vbios : AddressRange
  ramht : AddressRange
  ramro : AddressRange
  ramfc : AddressRange
  deriving DecidableEq, Repr, Inhabited

namespace ReservedLayout

/-- The number of channels, each with a graphics context. -/
def channels : Nat := 32

/-- What a channel needs beside its graphics context. -/
def channelPad : Nat := 0x4000

/-- The size of the table that translates addresses on the bus. -/
def translationTableSize : Nat := 0x80000

/-- The room for objects outside the channels. -/
def objectStorageSize : Nat := 0x80000

/-- The room for the video firmware. -/
def vbiosSize : Nat := 0x10000

/-- The size of the hash table of objects. -/
def ramhtSize : Nat := 0x8000

/-- The size of the runout area. -/
def ramroSize : Nat := 0x8000

/-- The size of the contexts of the command queues. -/
def ramfcSize : Nat := 0x20000

/-- The layout for a chipset with a number of shader units. -/
def compute (chipset shaderUnits : UInt32) : Except Fault ReservedLayout := do
  let contextSize ← checkedMul (contextSizePerUnit chipset) shaderUnits.toNat
  let contexts ← checkedMul (← checkedAdd contextSize channelPad) channels
  let withTable ← checkedAdd contexts translationTableSize
  let reserved ← roundUp (← checkedAdd withTable objectStorageSize) pageSize
  let vbios : AddressRange := ⟨0, vbiosSize⟩
  let ramht : AddressRange := ⟨← vbios.stop, ramhtSize⟩
  let ramro : AddressRange := ⟨← ramht.stop, ramroSize⟩
  let ramfc : AddressRange := ⟨← ramro.stop, ramfcSize⟩
  return { chipset, shaderUnits, contextSize, reserved, vbios, ramht, ramro, ramfc }

/-- The bytes of the heap behind the firmware structures. -/
def dynamicBytes (layout : ReservedLayout) : Except Fault Nat := do
  checkedSub layout.reserved (← layout.ramfc.stop)

end ReservedLayout
end InstanceMemory
