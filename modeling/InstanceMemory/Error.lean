import InstanceMemory.Chipset
import InstanceMemory.Lifecycle
import InstanceMemory.Text.Hex

/-!
# Errors

An **error** is the answer of an operation that could not do what it was asked. It names its cause;
the wording is `Error.message`, built from one sentence per kind of error (`Error.Sentence`), so a
sentence can also be had for a detail of any other origin.
-/

set_option autoImplicit false

namespace InstanceMemory

/-- Why the platform could not supply something. -/
inductive PlatformFailure
  | unmappedBar (bar : Nat)
  | refusedMapping (address : Nat) (code : Int)
  deriving DecidableEq, Repr

/-- Why a device cannot be served. -/
inductive Unsupported
  /-- The family is not handled at all. -/
  | family (chipset : UInt32) (family : Family)
  /-- The family has VRAM for which no reserved heap is sized. -/
  | unsizedHeap (family : Family) (chipset : UInt32)
  /-- The aperture is shorter than the reserved heap. -/
  | shortBar (bar length reserved : Nat)
  deriving DecidableEq, Repr

/-- What is wrong with an argument. -/
inductive BadArgument
  | emptySpace (space : String)
  | granularity (space : String) (granularity : Nat)
  | overflowingSpace (space : String) (base length : Nat)
  | unalignedSpace (space : String) (base length granularity : Nat)
  | emptyReservation (space : String)
  | reservationAlignment (space : String) (align : Nat)
  | objectAlignment (align : Nat)
  deriving DecidableEq, Repr

/-- The ways in which an operation can end without its result. -/
inductive Error
  | outOfAddressSpace (size align : Nat)
  | outOfMemory
  | platformFailed (cause : PlatformFailure)
  | unsupported (cause : Unsupported)
  | busy
  | invalidState (request : Request) (phase : Phase)
  | invalidArgument (cause : BadArgument)
  deriving DecidableEq, Repr

namespace Error.Sentence

/-- No room for a request of a size and an alignment. -/
def outOfAddressSpace (size align : Nat) : String :=
  "Out of address space (size " ++ Hex.write size ++ ", align " ++ Hex.write align ++ ")"

/-- No memory left to give. -/
def outOfMemory : String := "Out of memory"

/-- The platform could not supply something. -/
def platformFailed (detail : String) : String := "Platform allocation failed: " ++ detail

/-- The device cannot be served. -/
def unsupported (detail : String) : String := "Unsupported platform: " ++ detail

/-- Something else is under way. -/
def busy : String := "Device busy"

/-- A request came in the wrong phase. -/
def invalidState (request phase : String) : String := "Cannot " ++ request ++ " while " ++ phase

/-- An argument cannot be meant. -/
def invalidArgument (detail : String) : String := "Invalid argument: " ++ detail

end Error.Sentence

/-- The detail a platform failure puts into its sentence. -/
def PlatformFailure.detail : PlatformFailure → String
  | .unmappedBar bar => "unable to map PRAMIN BAR " ++ toString bar
  | .refusedMapping address code =>
    "IOMMU map of " ++ Hex.write address ++ " failed: errno " ++ toString code

/-- The detail an unsupported device puts into its sentence. -/
def Unsupported.detail : Unsupported → String
  | .family chipset kind =>
    "chipset " ++ Hex.write chipset.toNat ++ " (" ++ kind.name ++ ") has no instmem support"
  | .unsizedHeap kind chipset =>
    "no reserved heap sizing for " ++ kind.name ++ " chipset " ++ Hex.write chipset.toNat
  | .shortBar bar length reserved =>
    "PRAMIN BAR " ++ toString bar ++ " (" ++ Hex.write length ++ " bytes) cannot hold " ++
      Hex.write reserved ++ " reserved bytes"

/-- The detail a bad argument puts into its sentence. -/
def BadArgument.detail : BadArgument → String
  | .emptySpace space => space ++ ": empty address space"
  | .granularity space step =>
    space ++ ": granularity " ++ Hex.write step ++ " is not a power of two"
  | .overflowingSpace space base length =>
    space ++ ": space " ++ Hex.write base ++ "+" ++ Hex.write length ++ " overflows"
  | .unalignedSpace space base length step =>
    space ++ ": space " ++ Hex.write base ++ "+" ++ Hex.write length ++ " not aligned to " ++
      Hex.write step
  | .emptyReservation space => space ++ ": zero-sized reservation"
  | .reservationAlignment space align =>
    space ++ ": alignment " ++ Hex.write align ++ " is not a power of two"
  | .objectAlignment align => "alignment " ++ Hex.write align ++ " is not a power of two"

/-- The wording of an error. -/
def Error.message : Error → String
  | .outOfAddressSpace size align => Sentence.outOfAddressSpace size align
  | .outOfMemory => Sentence.outOfMemory
  | .platformFailed cause => Sentence.platformFailed cause.detail
  | .unsupported cause => Sentence.unsupported cause.detail
  | .busy => Sentence.busy
  | .invalidState request phase => Sentence.invalidState request.text phase.text
  | .invalidArgument cause => Sentence.invalidArgument cause.detail

end InstanceMemory
