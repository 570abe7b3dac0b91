/-!
# Hexadecimal text

Every address, size and data word is written in lower-case hexadecimal behind `0x`, without leading
zeros. This module holds the writer and its reader.
-/

set_option autoImplicit false

namespace InstanceMemory.Hex

/-- **The written form of a number**: `0x`, then its base-16 digits, the most significant first. -/
def write (n : Nat) : String := "0x" ++ String.ofList (Nat.toDigits 16 n)

/-- The value of one lower- or upper-case digit. -/
def digit? (c : Char) : Option Nat :=
  if '0' ≤ c ∧ c ≤ '9' then some (c.toNat - '0'.toNat)
  else if 'a' ≤ c ∧ c ≤ 'f' then some (c.toNat - 'a'.toNat + 10)
  else if 'A' ≤ c ∧ c ≤ 'F' then some (c.toNat - 'A'.toNat + 10)
  else none

/-- The number a row of digits stands for, read onto the value of the digits before it. -/
def digits? (before : Nat) : List Char → Option Nat
  | [] => some before
  | c :: rest =>
    match digit? c with
    | some d => digits? (before * 16 + d) rest
    | none => none

/-- Reads `0x` followed by at least one digit, and refuses all else. -/
def read? (text : String) : Option Nat :=
  match text.toList with
  | '0' :: 'x' :: c :: rest => digits? 0 (c :: rest)
  | _ => none

end InstanceMemory.Hex
