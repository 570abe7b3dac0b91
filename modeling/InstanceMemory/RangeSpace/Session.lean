import InstanceMemory.RangeSpace.Basic

/-!
# Sessions with a range space

A session is a range space together with the reservations made in it so far, counted from zero in
the order they were made. A released reservation stays counted, so it can be released again by its
number. A step that faults changes nothing.
-/

set_option autoImplicit false

namespace InstanceMemory

/-- A range space in use. -/
structure SpaceSession where
  space : RangeSpace
  /-- Every reservation made so far, the oldest first. -/
  made : Array AddressRange
  journal : Journal

/-- One step of a session with a range space. -/
inductive SpaceStep
  | reserve (size align : Nat)
  | release (range : AddressRange)
  /-- Releases the reservation of a number, counted round and round. -/
  | releaseMade (number : Nat)
  | describe

/-- What a step of a session answers. -/
inductive SpaceAnswer
  | nothing
  | range (range : AddressRange)
  | space (space : RangeSpace)
  | error (cause : Error)
  /-- A reservation was asked for by its number, and none has been made. -/
  | nothingReserved

namespace SpaceSession

/-- A session with an unused space. -/
def start (space : RangeSpace) (journalOpen : Bool) : SpaceSession :=
  ⟨space, #[], .start journalOpen⟩

/-- The session after a release. -/
def release (session : SpaceSession) (range : AddressRange) : Except Fault SpaceSession := do
  let (space, journal) ← session.space.release range session.journal
  return { session with space, journal }

/-- The answer of a step and the session after it. -/
def step (session : SpaceSession) : SpaceStep → Except Fault (SpaceAnswer × SpaceSession)
  | .reserve size align => do
    match ← session.space.reserve size align with
    | .error cause => return (.error cause, session)
    | .ok (range, space) =>
      return (.range range, { session with space, made := session.made.push range })
  | .release range => do return (.nothing, ← session.release range)
  | .releaseMade number =>
    match session.made[number % session.made.size]? with
    | none => .ok (.nothingReserved, session)
    | some range => do return (.range range, ← session.release range)
  | .describe => .ok (.space session.space, session)

end SpaceSession
end InstanceMemory
