import InstanceMemory.Chipset
import InstanceMemory.Journal

/-!
# Platforms

A **platform** is everything that instance memory asks of its surroundings: the device's registers,
the aperture onto dedicated memory, single system pages, the IOMMU's translation table, and
contiguous buffers. A platform is a type of states with one operation per question; an answer may
depend on everything asked before, and nothing is assumed of it.

Only giving pages and buffers back can have something to note, so only those operations see the
journal.
-/

set_option autoImplicit false

namespace InstanceMemory

/-- What a mapping permits the device. -/
structure Permissions where
  read : Bool
  write : Bool
  deriving DecidableEq, Repr, Inhabited

namespace Permissions

/-- Permission to read and to write. -/
def readWrite : Permissions := ⟨true, true⟩

/-- The permissions in the two lowest bits of a word. -/
def ofBits (bits : UInt32) : Permissions := ⟨bits &&& 1 != 0, bits &&& 2 != 0⟩

/-- Permissions as bits. -/
def bits (p : Permissions) : Nat := p.read.toNat + 2 * p.write.toNat

/-- Whether nothing is permitted. -/
def isEmpty (p : Permissions) : Bool := !p.read && !p.write

end Permissions

/-- What a buffer is needed for. -/
structure BufferAttributes where
  nonConsistent : Bool
  weakOrdering : Bool
  writeCombine : Bool
  noKernelMapping : Bool
  deriving DecidableEq, Repr, Inhabited

namespace BufferAttributes

/-- Instance memory needs no mapping for the processor and bears any order of writes. -/
def instanceMemory : BufferAttributes := ⟨true, true, true, true⟩

/-- The attributes as bits. -/
def bits (a : BufferAttributes) : Nat :=
  a.nonConsistent.toNat + 2 * a.weakOrdering.toNat + 4 * a.writeCombine.toNat +
    8 * a.noKernelMapping.toNat

/-- The names of the attributes that are set. -/
def names (a : BufferAttributes) : List String :=
  (if a.nonConsistent then ["NON_CONSISTENT"] else []) ++
    (if a.weakOrdering then ["WEAK_ORDERING"] else []) ++
    (if a.writeCombine then ["WRITE_COMBINE"] else []) ++
    (if a.noKernelMapping then ["NO_KERNEL_MAPPING"] else [])

end BufferAttributes

/-- A contiguous buffer in system memory. -/
structure Buffer where
  /-- The device address of the first byte. -/
  handle : Nat
  size : Nat
  deriving DecidableEq, Repr, Inhabited

/-- The states of a platform and what they answer. -/
class Platform (π : Type) where
  /-- The identity of the device. -/
  chipset : π → ChipsetInfo
  readRegister : Nat → EStateM Fault π UInt32
  writeRegister : Nat → UInt32 → EStateM Fault π Unit
  /-- The length of a resource, zero if there is none. -/
  barLength : π → Nat → Nat
  /-- The length of the aperture that a resource maps to, if it can be mapped. -/
  mapBar : π → Nat → Option Nat
  readAperture : π → Nat → UInt32
  writeAperture : π → Nat → UInt32 → π
  allocPage : EStateM Fault π (Option Nat)
  freePage : Nat → EStateM Fault (π × Journal) Unit
  /-- Maps a run of device addresses to physical ones, or refuses with a code. -/
  map : (address physical size : Nat) → Permissions → EStateM Fault π (Except Int Unit)
  /-- Takes back the mappings of a run of device addresses, and tells how much was mapped. -/
  unmap : (address size : Nat) → EStateM Fault π Nat
  allocBuffer : (size : Nat) → BufferAttributes → EStateM Fault π (Option Buffer)
  freeBuffer : Buffer → BufferAttributes → EStateM Fault (π × Journal) Unit

end InstanceMemory
