import InstanceMemory.Fault

/-!
# Address ranges

A range `[base, base + length)`. Any two addresses make a range: its stop may lie outside the
address space, and an operation that needs the stop of such a range faults. `contains` and
`overlaps` compare the bases first and look at a stop only where the comparison still depends on it.
-/

set_option autoImplicit false

namespace InstanceMemory

/-- A run of `length` addresses from `base` on. -/
structure AddressRange where
  base : Nat
  length : Nat
  deriving DecidableEq, Repr, Inhabited

namespace AddressRange

/-- One past the last address, as a number without bound. -/
def limit (r : AddressRange) : Nat := r.base + r.length

/-- One past the last address; faults outside the address space. -/
def stop (r : AddressRange) : Except Fault Nat := checkedAdd r.base r.length

/-- Whether an address lies in the range. -/
def contains (r : AddressRange) (address : Nat) : Except Fault Bool :=
  if address < r.base then .ok false
  else do return address < (← r.stop)

/-- Whether two ranges share an address, for nonempty ranges. -/
def overlaps (r s : AddressRange) : Except Fault Bool := do
  if r.base < (← s.stop) then return s.base < (← r.stop) else return false

/-- The half-open interval in hexadecimal. -/
def render (r : AddressRange) : Except Fault String := do
  return "[" ++ Hex.write r.base ++ ", " ++ Hex.write (← r.stop) ++ ")"

/-- The order by base, then by length. -/
def precedes (r s : AddressRange) : Bool :=
  r.base < s.base || (r.base == s.base && r.length ≤ s.length)

/-- Ranges in ascending order. -/
def sort (ranges : List AddressRange) : List AddressRange := ranges.mergeSort precedes

/-- The fields in decimal, by name. -/
def fieldsText (r : AddressRange) : String :=
  "AddressRange \x7b base: " ++ toString r.base ++ ", length: " ++ toString r.length ++ " \x7d"

end AddressRange
end InstanceMemory
