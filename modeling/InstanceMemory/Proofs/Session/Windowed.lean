import InstanceMemory.Proofs.Machine.Tally
import InstanceMemory.Proofs.Session.Abiding

/-!
# Sessions without dedicated memory

A session on a device without dedicated memory stays `Windowed` in every run, whatever its controllers
do to the window of one another (`Session.windowed_after`).

What its moves do to the window depends on the words they are about. A move that reads or writes does
so to consecutive words of one object, and so does a request that zeroes its object; `accessed?` tells
which words these are. An access that does not lie within its object is about none.
-/

set_option autoImplicit false

namespace InstanceMemory

open Simulator (Config Device Move)

/-- The object that an outcome answers, if it does. -/
def Outcome.object? : Outcome Reply → Option InstanceObject
  | .reply (.object o) => some o
  | _ => none

namespace Session

/-- The words that a move is about. A request is about the words of its object if it zeroes them; it
makes the same object as one that does not. -/
def accessed? (session : Session Device) : Move → Option Access
  | .operation (.read32 target offset) | .operation (.write32 target offset _) =>
    (session.resolve? target).bind (·.access? offset 1)
  | .operation (.readWords target offset words) =>
    (session.resolve? target).bind (·.access? offset words)
  | .operation (.writeWords target offset values) =>
    (session.resolve? target).bind (·.access? offset values.length)
  | .operation (.fill target _) | .operation (.scan target) =>
    (session.resolve? target).map (·.wholly)
  | .operation (.allocate controller name size align true) =>
    (request controller name size align false session).1.object?.map (·.wholly)
  | _ => none

variable {session : Session Device} {size : Nat}

theorem windowed_abiding (size : Nat) : Abiding (Windowed size) where
  of_store _ _ hstore h := h.of_store hstore
  phaseless _ _ _ _ _ h := ⟨⟨h.quiet.silent, h.quiet.uninterrupted⟩, h.memory, h.size_eq⟩
  readWord o offset := Windowed.keeps (Quiet.keeps_readWord o offset) fun _ =>
    Action.books_readWord o offset
  writeWord o offset value := Windowed.keeps (Quiet.keeps_writeWord o offset value) fun _ =>
    Action.books_writeWord o offset value
  register := (Windowed.lasting 0 size).register
  add _ _ h := ⟨⟨h.quiet.silent, h.quiet.uninterrupted⟩, h.memory, h.size_eq⟩
  rearm := by
    rintro m _ ⟨pageBudget, refusesBuffers, f, refusesBars, rfl⟩ h
    exact ⟨⟨h.quiet.silent, h.quiet.uninterrupted⟩, h.memory, h.size_eq⟩

/-! ## Every run -/

/-- **Every move keeps a session windowed.** -/
theorem windowed_after (session : Session Device) (move : Move) (h : Windowed size session.machine) :
    Windowed size (Simulator.Session.after session move).machine :=
  (windowed_abiding size).after session move h

/-- A session on a device without dedicated memory starts windowed. -/
theorem windowed_start {config : Config} {journalOpen : Bool} {host : Simulator.Host}
    (h : Simulator.Session.start config journalOpen host = .ok session)
    (hmemory : config.hasVram = false) :
    Windowed config.systemMemorySize session.machine := by
  obtain ⟨device, shared, hstart, rfl⟩ := Simulator.Session.start_eq_ok h
  obtain ⟨memory, -, rfl, -⟩ := Device.start_eq_ok hstart
  exact ⟨⟨rfl, rfl⟩, hmemory, rfl⟩

end Session
end InstanceMemory
