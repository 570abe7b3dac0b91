import InstanceMemory.Journal
import InstanceMemory.RangeSpace.Holes

/-!
# Range spaces

A **range space** hands out ranges of `[base, base + length)` by first fit and takes them back. Every
reservation is rounded up to the granularity, and the holes are joined on release, so alternating
reservations and releases leave no fragments.

A reservation is refused with an error and then changes nothing. A release of anything that is not
exactly an outstanding reservation is noted and otherwise ignored; the notice names the range's stop
and so faults in an open journal if there is no such address (`RangeSpace.release`).
-/

set_option autoImplicit false

namespace InstanceMemory

/-- A linear space with its free and its allocated ranges, both in ascending order. -/
structure RangeSpace where
  name : String
  base : Nat
  length : Nat
  granularity : Nat
  free : List AddressRange
  allocated : List AddressRange
  deriving DecidableEq, Repr, Inhabited

namespace RangeSpace

/-- A space with nothing allocated. The space must be nonempty, lie below the address limit, and
start and end on multiples of a granularity that is a power of two. -/
def create (name : String) (base length granularity : Nat) : Except Error RangeSpace :=
  if length = 0 then .error (.invalidArgument (.emptySpace name))
  else if ¬ granularity.isPowerOfTwo then
    .error (.invalidArgument (.granularity name granularity))
  else if addressLimit ≤ base + length then
    .error (.invalidArgument (.overflowingSpace name base length))
  else if base % granularity ≠ 0 ∨ length % granularity ≠ 0 then
    .error (.invalidArgument (.unalignedSpace name base length granularity))
  else .ok ⟨name, base, length, granularity, [⟨base, length⟩], []⟩

/-- Puts a range among ranges in ascending order. -/
def insertAscending (range : AddressRange) : List AddressRange → List AddressRange
  | [] => [range]
  | r :: rest =>
    if range.base < r.base then range :: r :: rest else r :: insertAscending range rest

/-- Reserves `size` addresses, rounded up to the granularity, at the lowest free multiple of the
alignment. The alignment is at least the granularity, so zero asks for nothing more. -/
def reserve (space : RangeSpace) (size align : Nat) :
    Except Fault (Except Error (AddressRange × RangeSpace)) :=
  if size = 0 then .ok (.error (.invalidArgument (.emptyReservation space.name)))
  else
    let align := max align space.granularity
    if ¬ align.isPowerOfTwo then
      .ok (.error (.invalidArgument (.reservationAlignment space.name align)))
    else
      match nextMultiple? size space.granularity with
      | none => .ok (.error (.outOfAddressSpace size align))
      | some rounded => do
        match ← Holes.take rounded align space.free with
        | none => return .error (.outOfAddressSpace rounded align)
        | some (start, left) =>
          let range : AddressRange := ⟨start, rounded⟩
          return .ok (range,
            { space with free := left, allocated := insertAscending range space.allocated })

/-- Takes back an outstanding reservation; notes and ignores any other range. -/
def release (space : RangeSpace) (range : AddressRange) (journal : Journal) :
    Except Fault (RangeSpace × Journal) :=
  if range ∈ space.allocated then do
    let free ← Holes.insert range.base range.length space.free
    return ({ space with free, allocated := space.allocated.erase range }, journal)
  else do return (space, ← journal.note (.untrackedRelease space.name range))

/-- The managed space. -/
def bounds (space : RangeSpace) : AddressRange := ⟨space.base, space.length⟩

/-- The size of the managed space. -/
def capacity (space : RangeSpace) : Nat := space.length

/-- How much of the space is free. -/
def freeBytes (space : RangeSpace) : Nat := space.free.foldr (·.length + ·) 0

/-- Whether nothing is allocated. -/
def isIdle (space : RangeSpace) : Bool := space.allocated.isEmpty

end RangeSpace
end InstanceMemory
