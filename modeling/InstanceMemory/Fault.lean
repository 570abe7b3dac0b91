import InstanceMemory.Text.Hex

/-!
# Faults

A **fault** stops an operation where it stands: an address sum that leaves the 64-bit range, a
division by zero, or an access that an object refuses. It differs from an `Error`, which is an
answer of an operation that ran to its end. What an operation did before it faulted stays done, so
stateful operations run in `EStateM Fault σ`, whose failure carries the state.

Addresses, sizes and counts are natural numbers. Where a 64-bit machine would check a sum, a
difference or a product, the checked operations here fault exactly where the result is no address.
-/

set_option autoImplicit false

namespace InstanceMemory

/-- One past the largest address of 64 bits. -/
def addressLimit : Nat := 0x10000000000000000

/-- What can stop an operation before it has answered. -/
inductive Fault
  | addOverflow
  | subtractOverflow
  | multiplyOverflow
  | divideByZero
  /-- An object access at a byte offset that is no multiple of a word. -/
  | unaligned (offset : Nat)
  /-- An object access of some words that runs past the object's size. -/
  | pastEnd (offset words size : Nat)
  /-- A firmware object that was placed elsewhere than the layout says. -/
  | misplaced (found expected : Nat)
  deriving DecidableEq, Repr

/-- The wording of a fault. -/
def Fault.message : Fault → String
  | .addOverflow => "attempt to add with overflow"
  | .subtractOverflow => "attempt to subtract with overflow"
  | .multiplyOverflow => "attempt to multiply with overflow"
  | .divideByZero => "attempt to divide by zero"
  | .unaligned offset => "unaligned instance access at " ++ Hex.write offset
  | .pastEnd offset words size =>
    "instance access at " ++ Hex.write offset ++ " (+" ++ toString words ++ " words) past size " ++
      Hex.write size
  | .misplaced found expected =>
    "assertion \x60left == right\x60 failed\n  left: " ++ toString found ++ "\n right: " ++ toString expected

/-- A sum of two addresses, which faults when it reaches `addressLimit`. -/
def checkedAdd (a b : Nat) : Except Fault Nat :=
  if a + b < addressLimit then .ok (a + b) else .error .addOverflow

/-- A difference of two addresses, which faults when it would be negative. -/
def checkedSub (a b : Nat) : Except Fault Nat :=
  if b ≤ a then .ok (a - b) else .error .subtractOverflow

/-- A product of two sizes, which faults when it reaches `addressLimit`. -/
def checkedMul (a b : Nat) : Except Fault Nat :=
  if a * b < addressLimit then .ok (a * b) else .error .multiplyOverflow

/-- A checked computation runs as a stateful one that leaves the state alone. -/
instance {σ : Type} : MonadLift (Except Fault) (EStateM Fault σ) where
  monadLift
    | .ok a => fun s => .ok a s
    | .error f => fun s => .error f s

theorem checkedAdd_of_lt {a b : Nat} (h : a + b < addressLimit) : checkedAdd a b = .ok (a + b) :=
  if_pos h

theorem checkedSub_of_le {a b : Nat} (h : b ≤ a) : checkedSub a b = .ok (a - b) :=
  if_pos h

theorem checkedMul_of_lt {a b : Nat} (h : a * b < addressLimit) : checkedMul a b = .ok (a * b) :=
  if_pos h

end InstanceMemory
