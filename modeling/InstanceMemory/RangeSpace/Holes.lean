import InstanceMemory.AddressRange
import InstanceMemory.Alignment

/-!
# Holes

The **holes** of a space are its free ranges, in ascending order. `Holes.take` carves a request out
of the first hole that can hold it and keeps the padding before it and the tail behind it free;
`Holes.insert` gives a range back and joins it with the holes it touches. Between them they keep the
list canonical: as long as the holes are apart, the list after an insertion is again the list of
maximal gaps.

Every sum that a 64-bit machine would check is checked here. For holes that end below the address
limit none of the checks can fail; nothing in this module assumes it.
-/

set_option autoImplicit false

namespace InstanceMemory.Holes

/-- The lowest aligned start in a hole from which `size` addresses fit. A start or a stop that is
no address does not fit. -/
def startIn (size align : Nat) (hole : AddressRange) : Except Fault (Option Nat) :=
  match nextMultiple? hole.base align with
  | none => .ok none
  | some start =>
    if start + size < addressLimit then do
      return if start + size ≤ (← hole.stop) then some start else none
    else .ok none

/-- What stays free of a hole when `size` addresses from `start` on are taken out of it. -/
def remainder (hole : AddressRange) (stop start size : Nat) : List AddressRange :=
  (if hole.base < start then [⟨hole.base, start - hole.base⟩] else []) ++
    (if start + size < stop then [⟨start + size, stop - (start + size)⟩] else [])

/-- **First fit**: the start of the request in the first hole that can hold it, with the holes that
are left; nothing if no hole can. -/
def take (size align : Nat) :
    List AddressRange → Except Fault (Option (Nat × List AddressRange))
  | [] => .ok none
  | hole :: rest => do
    match ← startIn size align hole with
    | some start => return some (start, remainder hole (← hole.stop) start size ++ rest)
    | none =>
      match ← take size align rest with
      | some (start, left) => return some (start, hole :: left)
      | none => return none

/-- Puts a range in front of the holes above it, joined with the first of them if they touch. -/
def joinNext (base length : Nat) (above : List AddressRange) :
    Except Fault (List AddressRange) := do
  let stop ← checkedAdd base length
  match above with
  | [] => return [⟨base, length⟩]
  | hole :: rest =>
    if hole.base = stop then return ⟨base, ← checkedAdd length hole.length⟩ :: rest
    else return ⟨base, length⟩ :: hole :: rest

/-- Gives a range back to the holes, joined with the hole that ends where it begins and the hole
that begins where it ends. -/
def insert (base length : Nat) : List AddressRange → Except Fault (List AddressRange)
  | [] => joinNext base length []
  | hole :: rest => do
    if hole.base < base then
      if (← hole.stop) = base then joinNext hole.base (← checkedAdd length hole.length) rest
      else return hole :: (← insert base length rest)
    else joinNext base length (hole :: rest)

end InstanceMemory.Holes
