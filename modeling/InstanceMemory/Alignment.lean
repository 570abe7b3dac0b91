import InstanceMemory.Fault

/-!
# Alignment arithmetic

Rounding to multiples, the alignment test, and bit counts. `roundUp` takes any nonzero step;
`isAligned` masks with one less than the alignment, so it is the divisibility test exactly for
powers of two. `nextMultiple?` is the rounding that answers nothing where `roundUp` would fault.
-/

set_option autoImplicit false

namespace InstanceMemory

/-- The least multiple of `step` that is at least `value`. -/
def roundUp (value step : Nat) : Except Fault Nat :=
  if step = 0 then .error .divideByZero
  else checkedMul ((value + (step - 1)) / step) step

/-- Whether no bit below `align` is set in `value`, for a power of two `align`. -/
def isAligned (value align : Nat) : Except Fault Bool := do
  return value &&& (← checkedSub align 1) == 0

/-- The least multiple of `step` that is at least `value`, if there is one below `addressLimit`. -/
def nextMultiple? (value step : Nat) : Option Nat :=
  let multiple := (value + (step - 1)) / step * step
  if step = 0 ∨ addressLimit ≤ multiple then none else some multiple

/-- How many of the eight lowest bits of a word are set. -/
def setBitsOfLowByte (word : UInt32) : Nat :=
  ((List.range 8).filter word.toNat.testBit).length

end InstanceMemory
