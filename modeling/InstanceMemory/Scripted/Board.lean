import InstanceMemory.DeviceMap
import InstanceMemory.Platform
import Std.Data.TreeMap

/-!
# The scripted platform

A **board** answers from a script: one list of answers per question, taken from the front, and a
fixed answer once a list is used up. Its registers are plain storage, the window and the aperture
not excepted, and so is the memory behind its one mapped resource. Nothing that is given back is
looked at, so a script can hand out a page twice, or one that is no page.
-/

set_option autoImplicit false

namespace InstanceMemory.Scripted

/-- What the memory behind a resource reads as where it was never written. -/
def unwrittenWord : UInt32 := 0xdeadbeef

/-- A platform that follows a script. -/
structure Board where
  chipset : ChipsetInfo
  registers : Std.TreeMap Nat UInt32
  bars : List (Nat × Nat)
  /-- The length of the memory that any resource maps to, if it can be mapped. -/
  apertureLength : Option Nat
  aperture : Std.TreeMap Nat UInt32
  /-- The pages to hand out. -/
  pages : List (Option Nat)
  /-- The codes of mappings to come; zero accepts one. -/
  mappings : List Int
  /-- The buffers to hand out. -/
  buffers : List (Option Buffer)

namespace Board

/-- The word at an offset of the memory behind a resource. -/
def readAperture (b : Board) (offset : Nat) : UInt32 := b.aperture.getD offset unwrittenWord

/-- Writes the word at an offset of the memory behind a resource. -/
def writeAperture (b : Board) (offset : Nat) (value : UInt32) : Board :=
  { b with aperture := b.aperture.insert offset value }

/-- The next page of the script. -/
def nextPage (b : Board) : Option Nat × Board :=
  (b.pages.head?.join, { b with pages := b.pages.tail })

/-- The next answer to a mapping. -/
def nextMapping (b : Board) : Except Int Unit × Board :=
  let code := b.mappings.headD 0
  (if code = 0 then .ok () else .error code, { b with mappings := b.mappings.tail })

/-- The next buffer of the script. -/
def nextBuffer (b : Board) : Option Buffer × Board :=
  (b.buffers.head?.join, { b with buffers := b.buffers.tail })

/-- Takes an answer from the board. -/
def answer {α : Type} (next : Board → α × Board) : EStateM Fault Board α := fun b =>
  let (a, b) := next b
  .ok a b

end Board

instance : Platform Board where
  chipset b := b.chipset
  readRegister register := Board.answer fun b => (b.registers.getD register 0, b)
  writeRegister register value :=
    Board.answer fun b => ((), { b with registers := b.registers.insert register value })
  barLength b bar := (b.bars.lookup bar).getD 0
  mapBar b _ := b.apertureLength
  readAperture := Board.readAperture
  writeAperture := Board.writeAperture
  allocPage := Board.answer Board.nextPage
  freePage _ := return
  map _ _ _ _ := Board.answer Board.nextMapping
  unmap _ size := return size
  allocBuffer _ _ := Board.answer Board.nextBuffer
  freeBuffer _ _ := return

end InstanceMemory.Scripted
