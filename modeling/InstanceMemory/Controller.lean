import InstanceMemory.Object
import InstanceMemory.RangeSpace.Basic
import InstanceMemory.ReservedLayout

/-!
# Controllers

A **controller** serves instance memory on one device. It has a backing, chosen when it is built, a
window onto device memory, and a phase. Objects keep the backing and the window of their controller,
so the record of a controller stays behind when the controller itself is destroyed.
-/

set_option autoImplicit false

namespace InstanceMemory

/-- What a controller knows of the window register. -/
structure Window where
  /-- The base it programmed last, if the register can still be trusted to hold it. -/
  cached : Option Nat
  /-- An access through the window is under way. -/
  isHeld : Bool
  deriving DecidableEq, Repr, Inhabited

namespace Window

/-- A window that has never been programmed. -/
def unknown : Window := ⟨none, false⟩

/-- The fields of the window by name. -/
def fieldsText (w : Window) : String :=
  let base := match w.cached with
    | none => "None"
    | some base => "Some(" ++ toString base ++ ")"
  "Pramin \x7b window: " ++ base ++ ", .. \x7d"

end Window

/-- Where a controller's objects come from. -/
inductive Backing
  /-- The reserved heap, seen through an aperture of a length. -/
  | heap (space : RangeSpace) (apertureLength : Nat)
  /-- System pages, mapped into the shared space of device addresses. -/
  | iommu
  /-- Contiguous buffers. -/
  | dma
  deriving DecidableEq, Repr, Inhabited

namespace Backing

/-- The strategy of a backing. -/
def strategy : Backing → Strategy
  | heap .. => .heap
  | iommu => .iommu
  | dma => .dma

/-- A heap of a size at the start of dedicated memory. -/
def ofReserved (reserved apertureLength : Nat) : Except Error Backing := do
  return .heap (← RangeSpace.create "instmem heap" 0 reserved pageSize) apertureLength

/-- The fields of a backing by name; a backing behind the IOMMU shows the shared space. -/
def fieldsText (shared : Option RangeSpace) : Backing → String
  | heap space apertureLength =>
    "Heap(HeapBacking \x7b heap: " ++ space.bounds.fieldsText ++ ", bar_len: " ++
      toString apertureLength ++ " \x7d)"
  | iommu =>
    "Iommu(IommuBacking \x7b space: " ++ (shared.getD default).bounds.fieldsText ++ ", .. \x7d)"
  | dma =>
    "Dma(DmaBacking \x7b attrs: DmaAttrs(" ++
      " | ".intercalate BufferAttributes.instanceMemory.names ++ "), .. \x7d)"

end Backing

/-- A controller, or what is left of it for its objects. -/
structure Controller where
  chipset : ChipsetInfo
  backing : Backing
  window : Window
  phase : Phase
  /-- How many of its objects are alive, the firmware structures included. -/
  live : Nat
  layout : Option ReservedLayout
  firmware : Option FirmwareObjects
  /-- The controller has not been destroyed. -/
  isPresent : Bool
  deriving DecidableEq, Repr, Inhabited

namespace Controller

/-- A controller as it is built, before any object. -/
def fresh (chipset : ChipsetInfo) (backing : Backing) (layout : Option ReservedLayout) :
    Controller where
  chipset
  backing
  window := .unknown
  phase := .constructed
  live := 0
  layout
  firmware := none
  isPresent := true

/-- The strategy of a controller. -/
def strategy (c : Controller) : Strategy := c.backing.strategy

/-- The fields of the controller by name. -/
def fieldsText (c : Controller) : String :=
  "Instmem \x7b chipset: " ++ Hex.write c.chipset.chipset.toNat ++ ", strategy: " ++
    c.strategy.name ++ ", state: " ++ c.phase.name ++ ", live_objects: " ++ toString c.live ++
    ", .. \x7d"

end Controller
end InstanceMemory
