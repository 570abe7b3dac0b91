import InstanceMemory.DeviceMap
import InstanceMemory.Platform

/-!
# Instance objects

An **instance object** is a page-rounded run of device addresses, together with what its controller
took to make it: a range of the reserved heap, mapped system pages, or a contiguous buffer. Its
descriptor presents it to the device as one run of small pages.
-/

set_option autoImplicit false

namespace InstanceMemory

/-- What an object holds for as long as it lives. -/
inductive Resource
  | heap (range : AddressRange)
  /-- A range of device addresses, and the pages it is mapped to in ascending order of address. -/
  | iommu (range : AddressRange) (pages : List Nat)
  | dma (buffer : Buffer)
  deriving DecidableEq, Repr, Inhabited

/-- The strategy that makes objects of such a resource. -/
def Resource.strategy : Resource → Strategy
  | heap _ => .heap
  | iommu .. => .iommu
  | dma _ => .dma

/-- One contiguous run of pages. -/
structure MemoryRegion where
  pageShift : Nat
  /-- The number of the first page. -/
  offset : Nat
  /-- The number of pages. -/
  length : Nat
  deriving DecidableEq, Repr, Inhabited

/-- How the device maps an object. -/
structure MemoryDescriptor where
  /-- The device address of the first byte. -/
  offset : Nat
  /-- The number of pages. -/
  size : Nat
  pageShift : Nat
  memtype : Nat
  regions : List MemoryRegion
  deriving DecidableEq, Repr, Inhabited

/-- A run of device addresses as one region of small pages of the default type. -/
def MemoryDescriptor.ofRun (offset size : Nat) : MemoryDescriptor where
  offset
  size := size / pageSize
  pageShift := pageBits
  memtype := 0
  regions := [⟨pageBits, offset / pageSize, size / pageSize⟩]

/-- A live object. -/
structure InstanceObject where
  /-- The number of the controller that made the object and whose backing it keeps. -/
  owner : Nat
  /-- The device address of the first byte. -/
  offset : Nat
  /-- The size in bytes, a multiple of the page size. -/
  size : Nat
  /-- The platform's memory is less aligned than was asked for. -/
  isMisaligned : Bool
  resource : Resource
  deriving DecidableEq, Repr, Inhabited

namespace InstanceObject

/-- The strategy that made the object. -/
def strategy (o : InstanceObject) : Strategy := o.resource.strategy

/-- The object as the device maps it. -/
def descriptor (o : InstanceObject) : MemoryDescriptor := .ofRun o.offset o.size

/-- The fields of the object by name. -/
def fieldsText (o : InstanceObject) : String :=
  "InstanceObject \x7b strategy: " ++ o.strategy.name ++ ", offset: " ++ Hex.write o.offset ++
    ", size: " ++ Hex.write o.size ++ ", misaligned: " ++ toString o.isMisaligned ++ " \x7d"

end InstanceObject

/-- The firmware structures at the bottom of the reserved heap. -/
structure FirmwareObjects where
  vbios : InstanceObject
  ramht : InstanceObject
  ramro : InstanceObject
  ramfc : InstanceObject
  deriving DecidableEq, Repr, Inhabited

/-- One of the firmware structures. -/
inductive FirmwareName
  | vbios | ramht | ramro | ramfc
  deriving DecidableEq, Repr

namespace FirmwareObjects

/-- The object of a firmware structure. -/
def get (objects : FirmwareObjects) : FirmwareName → InstanceObject
  | .vbios => objects.vbios
  | .ramht => objects.ramht
  | .ramro => objects.ramro
  | .ramfc => objects.ramfc

/-- The objects in the order they were placed. -/
def toList (objects : FirmwareObjects) : List InstanceObject :=
  [objects.vbios, objects.ramht, objects.ramro, objects.ramfc]

end FirmwareObjects
end InstanceMemory
