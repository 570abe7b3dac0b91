import InstanceMemory.Platform

/-!
# Traces

A trace lists what was asked of the platform, with the answers, and what was done to the range
spaces on the way, the oldest first. A trace that is not recording stays empty.

Giving back a page or a mapping carries a snapshot: how many ranges were allocated in the shared
space at that moment. So a trace shows whether a page went back before its range did.
-/

set_option autoImplicit false

namespace InstanceMemory

/-- The range spaces of a machine. -/
inductive SpaceId
  /-- The device addresses behind the IOMMU, shared by all controllers. -/
  | shared
  /-- The reserved heap of one controller. -/
  | heap (controller : Nat)
  deriving DecidableEq, Repr, Inhabited

/-- One thing asked of the platform or of a range space. -/
inductive Call
  | readRegister (address : Nat) (value : UInt32)
  | writeRegister (address : Nat) (value : UInt32)
  | readAperture (offset : Nat) (value : UInt32)
  | writeAperture (offset : Nat) (value : UInt32)
  | barLength (bar : Nat)
  | mapBar (bar : Nat)
  | allocPage (page : Option Nat)
  | freePage (page held : Nat)
  | map (address physical size : Nat) (permissions : Permissions) (answer : Except Int Unit)
  | unmap (address size held : Nat)
  | allocBuffer (size : Nat) (attributes : BufferAttributes) (buffer : Option Buffer)
  | freeBuffer (buffer : Buffer) (attributes : BufferAttributes)
  | reserve (space : SpaceId) (size align : Nat) (answer : Except Error AddressRange)
  | release (space : SpaceId) (range : AddressRange)
  /-- A suspend request that came in between. -/
  | interrupt (answer : Except Error Unit)

/-- Whether a call is one that a platform can see happen, accesses to the aperture apart. -/
def Call.isPlatformEvent : Call → Bool
  | .readAperture .. | .writeAperture .. | .reserve .. | .release .. => false
  | _ => true

/-- The calls so far, the oldest first, or none if not recording. -/
structure Trace where
  isRecording : Bool
  calls : Array Call

namespace Trace

/-- A trace without calls. -/
def start (isRecording : Bool) : Trace := ⟨isRecording, #[]⟩

/-- The trace with one more call. -/
def record (trace : Trace) (call : Call) : Trace :=
  if trace.isRecording then { trace with calls := trace.calls.push call } else trace

/-- The calls that a platform can see happen. -/
def platformEvents (trace : Trace) : List Call := trace.calls.toList.filter Call.isPlatformEvent

end Trace
end InstanceMemory
