import InstanceMemory.DeviceMap
import InstanceMemory.Platform
import InstanceMemory.RangeSpace.Basic
import InstanceMemory.Simulator.WordMemory

/-!
# Simulated system memory

System memory hands out single pages and contiguous buffers from one range space, and holds words.
It can be told to refuse: pages after a number of them, buffers at once. It counts the pages and the
buffers that are out; giving back what was never taken counts as well, so a count can go below zero,
where it wraps around.
-/

set_option autoImplicit false

namespace InstanceMemory.Simulator

/-- The physical address of the first byte of system memory. -/
def systemMemoryBase : Nat := 0x10000000

/-- How often something may still succeed; nothing sets no limit. -/
abbrev Budget := Option Nat

/-- What is left of a budget after one more use, if it allows one. -/
def Budget.spend? : Budget → Option Budget
  | none => some none
  | some 0 => none
  | some (n + 1) => some (some n)

/-- One more, in a counter of 64 bits. -/
def countUp (n : Nat) : Nat := (n + 1) % addressLimit

/-- One less, in a counter of 64 bits. -/
def countDown (n : Nat) : Nat := (n + (addressLimit - 1)) % addressLimit

/-- System memory and what is taken of it. -/
structure SystemMemory where
  size : Nat
  words : WordMemory
  space : RangeSpace
  pageBudget : Budget
  refusesBuffers : Bool
  livePages : Nat
  liveBuffers : Nat

namespace SystemMemory

/-- Memory of a size, all of it free. -/
def create (size : Nat) : Except Error SystemMemory := do
  let space ← RangeSpace.create "sysmem" systemMemoryBase size pageSize
  return ⟨size, .zero, space, none, false, 0, 0⟩

/-- The number of the word at a physical address, if the address is that of a word. -/
def word? (memory : SystemMemory) (physical : Nat) : Option Nat :=
  let offset := physical - systemMemoryBase
  if systemMemoryBase ≤ physical ∧ offset % 4 = 0 ∧ offset + 4 ≤ memory.size then some (offset / 4)
  else none

/-- The word at a physical address. -/
def read? (memory : SystemMemory) (physical : Nat) : Option UInt32 :=
  (memory.word? physical).map memory.words.read

/-- Writes the word at a physical address, and tells whether there is one. -/
def write (physical : Nat) (value : UInt32) (memory : SystemMemory) : Bool × SystemMemory :=
  match memory.word? physical with
  | none => (false, memory)
  | some word =>
    let ⟨size, words, space, pageBudget, refusesBuffers, livePages, liveBuffers⟩ := memory
    (true,
      ⟨size, words.write word value, space, pageBudget, refusesBuffers, livePages, liveBuffers⟩)

/-- Takes a page. -/
def allocPage (memory : SystemMemory) : Except Fault (Option Nat × SystemMemory) :=
  match memory.pageBudget.spend? with
  | none => .ok (none, memory)
  | some pageBudget => do
    match ← memory.space.reserve pageSize pageSize with
    | .error _ => return (none, { memory with pageBudget })
    | .ok (range, space) =>
      return (some range.base,
        { memory with pageBudget, space, livePages := countUp memory.livePages })

/-- Gives a page back. -/
def freePage (page : Nat) (memory : SystemMemory) (journal : Journal) :
    Except Fault (SystemMemory × Journal) := do
  let (space, journal) ← memory.space.release ⟨page, pageSize⟩ journal
  return ({ memory with space, livePages := countDown memory.livePages }, journal)

/-- Takes a buffer. -/
def allocBuffer (size : Nat) (memory : SystemMemory) :
    Except Fault (Option Buffer × SystemMemory) :=
  if memory.refusesBuffers then .ok (none, memory)
  else do
    match ← memory.space.reserve size pageSize with
    | .error _ => return (none, memory)
    | .ok (range, space) =>
      return (some ⟨range.base, range.length⟩,
        { memory with space, liveBuffers := countUp memory.liveBuffers })

/-- Gives a buffer back. -/
def freeBuffer (buffer : Buffer) (memory : SystemMemory) (journal : Journal) :
    Except Fault (SystemMemory × Journal) := do
  let (space, journal) ← memory.space.release ⟨buffer.handle, buffer.size⟩ journal
  return ({ memory with space, liveBuffers := countDown memory.liveBuffers }, journal)

end SystemMemory
end InstanceMemory.Simulator
