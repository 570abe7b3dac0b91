import InstanceMemory.Machine.Placement

/-!
# Access to objects

Objects are read and written by words. An access is checked against the object before anything is
touched: the offset must be a multiple of a word and the words must end within the object. After
that the words are accessed one by one in ascending order, each through the object's own strategy:
heap objects through the aperture, all others through the window.
-/

set_option autoImplicit false

namespace InstanceMemory

/-- The size of a word. -/
def wordSize : Nat := 4

/-- Whether an access to some words from an offset on may go ahead. -/
def InstanceObject.checkAccess (object : InstanceObject) (offset words : Nat) :
    Except Fault Unit :=
  if offset % wordSize ≠ 0 then .error (.unaligned offset)
  else do
    let stop ← checkedAdd offset (← checkedMul words wordSize)
    if stop ≤ object.size then .ok () else .error (.pastEnd offset words object.size)

/-- The number of words of an object. -/
def InstanceObject.words (object : InstanceObject) : Nat := object.size / wordSize

namespace Action

variable {π : Type} [Platform π]

/-- Reads the word at an offset of an object. -/
def readWord (object : InstanceObject) (offset : Nat) : Action π UInt32 := do
  let address ← checkedAdd object.offset offset
  match object.strategy with
  | .heap => readAperture address
  | .iommu | .dma => readWindowed object.owner address

/-- Writes the word at an offset of an object. -/
def writeWord (object : InstanceObject) (offset : Nat) (value : UInt32) : Action π Unit := do
  let address ← checkedAdd object.offset offset
  match object.strategy with
  | .heap => writeAperture address value
  | .iommu | .dma => writeWindowed object.owner address value

/-- Reads some words from an offset on, behind the words already read, which are listed the newest
first. -/
def readFrom (object : InstanceObject) :
    (words offset : Nat) → (before : List UInt32) → Action π (List UInt32)
  | 0, _, before => return before.reverse
  | words + 1, offset, before => do
    let value ← readWord object offset
    readFrom object words (← checkedAdd offset wordSize) (value :: before)

/-- Writes words from an offset on. -/
def writeFrom (object : InstanceObject) : (values : List UInt32) → (offset : Nat) → Action π Unit
  | [], _ => return
  | value :: rest, offset => do
    writeWord object offset value
    writeFrom object rest (← checkedAdd offset wordSize)

/-- Writes one value to some words from an offset on. -/
def fillFrom (object : InstanceObject) (value : UInt32) : (words offset : Nat) → Action π Unit
  | 0, _ => return
  | words + 1, offset => do
    writeWord object offset value
    fillFrom object value words (offset + wordSize)

/-- Reads consecutive words. -/
def readWords (object : InstanceObject) (offset words : Nat) : Action π (List UInt32) := do
  object.checkAccess offset words
  readFrom object words offset []

/-- Writes consecutive words. -/
def writeWords (object : InstanceObject) (offset : Nat) (values : List UInt32) :
    Action π Unit := do
  object.checkAccess offset values.length
  writeFrom object values offset

/-- Reads one word. -/
def read32 (object : InstanceObject) (offset : Nat) : Action π UInt32 := do
  object.checkAccess offset 1
  readWord object offset

/-- Writes one word. -/
def write32 (object : InstanceObject) (offset : Nat) (value : UInt32) : Action π Unit := do
  object.checkAccess offset 1
  writeWord object offset value

/-- Writes one value to every word of an object. -/
def fill (object : InstanceObject) (value : UInt32) : Action π Unit :=
  fillFrom object value object.words 0

/-- Makes an object, filled with zero if so asked. If the filling faults, the object is gone. -/
def make (i size align : Nat) (zeroed : Bool) : Action π (Except Error InstanceObject) := do
  match ← place i size align with
  | .error cause => return .error cause
  | .ok object =>
    if zeroed then orUndo (fill object 0) (free object)
    return .ok object

/-- Makes an object for a caller. A suspended controller makes none. -/
def allocate (i size align : Nat) (zeroed : Bool) : Action π (Except Error InstanceObject) := do
  match ((← get).controller i).phase with
  | .suspended => return .error (.invalidState .allocate .suspended)
  | .constructed | .initialized => make i size align zeroed

end Action
end InstanceMemory
