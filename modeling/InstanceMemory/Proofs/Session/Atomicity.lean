import InstanceMemory.Proofs.Machine.Notes
import InstanceMemory.Proofs.Machine.Refusals
import InstanceMemory.Proofs.Session.Accounts

/-!
# Refused allocations leave no trace

A request for an object can be refused at any of its steps: for want of a page, of device addresses,
or of a mapping, with any number of pages taken and mapped before. Whatever the step was, the session
is afterwards what it was before, but for the budgets that were used up and what was noted
(`Session.request_atomic`). So once the device refuses nothing any more, the same request is answered
as if it had not been made before.
-/

set_option autoImplicit false

namespace InstanceMemory.Session

open Simulator (Budget Config Device Move)
open Simulator.Session (after run)

/-! ## Sessions that differ in little -/

/-- A session that has used up some of the budgets of its device since another, has noted something,
and is otherwise the same. -/
def Spent (session later : Session Device) : Prop :=
  ∃ machine, InstanceMemory.Spent session.machine machine ∧ later = { session with machine }

/-- The session with other lines in its journal. -/
def relined (session : Session Device) (lines : Array String) : Session Device :=
  { session with machine := session.machine.relined lines }

/-- Outcomes that answer the same and leave sessions that differ at most in the lines of the
journal. -/
def SameOutcome (first second : Outcome Reply × Session Device) : Prop :=
  first.1 = second.1 ∧ ∃ lines, first.2 = second.2.relined lines

/-- The session once its device refuses nothing any more. -/
def cleared (session : Session Device) : Session Device := after session (.faults .clearFaults rfl)

variable {session later : Session Device} {controller name : String} {size align : Nat}
  {zeroed : Bool}

theorem cleared_eq (session : Session Device) :
    session.cleared = { session with
      machine.hardware := { session.machine.hardware with
        memory.pageBudget := none
        memory.refusesBuffers := false
        translation := session.machine.hardware.translation.map ({ · with budget := none })
        refusesBars := false } } := rfl

/-- What was used up does not matter once nothing is refused any more. -/
theorem Spent.cleared (h : Spent session later) :
    ∃ lines, later.cleared = session.cleared.relined lines := by
  obtain ⟨_, ⟨pages, mappings, journal, rfl, -, -, hopen⟩, rfl⟩ := h
  obtain ⟨isOpen, lines⟩ := journal
  obtain rfl : isOpen = session.machine.journal.isOpen := hopen
  refine ⟨lines, ?_⟩
  rw [cleared_eq, cleared_eq]
  simp only [Machine.spending, relined, Machine.relined, Option.map_map, Function.comp_def]

/-! ## Requests -/

/-- **A request comes to the same whatever has been noted.** -/
theorem request_relined (session : Session Device) (lines : Array String) :
    SameOutcome (request controller name size align zeroed (session.relined lines))
      (request controller name size align zeroed session) := by
  have hcontrollers : (session.relined lines).controllers = session.controllers := rfl
  have hobjects : (session.relined lines).objects = session.objects := rfl
  have hmachine : (session.relined lines).machine = session.machine.relined lines := rfl
  rw [request, request, outcome_allocate, outcome_allocate, hcontrollers, hobjects, hmachine]
  cases session.controllers.get? controller with
  | none => exact ⟨rfl, lines, rfl⟩
  | some i =>
    have hsame := Action.relined_allocate i size align zeroed session.machine
      (session.machine.relined lines) ⟨(), lines, rfl⟩
    dsimp only
    by_cases hused : (session.objects.get? name).isSome = true
    · rw [if_pos hused, if_pos hused]
      exact ⟨rfl, lines, rfl⟩
    · rw [if_neg hused, if_neg hused]
      generalize Action.allocate i size align zeroed session.machine = r at hsame ⊢
      generalize Action.allocate i size align zeroed (session.machine.relined lines) = r' at hsame ⊢
      cases hsame with
      | ok answer hm =>
        obtain ⟨-, lines', rfl⟩ := hm
        cases answer <;> exact ⟨rfl, lines', rfl⟩
      | error f hm =>
        obtain ⟨-, lines', rfl⟩ := hm
        exact ⟨rfl, lines', rfl⟩

/-- A refused request has changed nothing but budgets and notes. -/
theorem Booked.request_refused (h : Booked session) {cause : Error}
    (hrefused : (request controller name size align zeroed session).1 = .error cause) :
    Spent session (request controller name size align zeroed session).2 := by
  rw [request, outcome_allocate] at hrefused ⊢
  cases hi : session.controllers.get? controller with
  | none =>
    rw [hi] at hrefused
    cases hrefused
  | some i =>
    rw [hi] at hrefused
    dsimp only at hrefused ⊢
    by_cases hused : (session.objects.get? name).isSome = true
    · rw [if_pos hused] at hrefused
      cases hrefused
    · rw [if_neg hused] at hrefused ⊢
      cases hact : Action.allocate i size align zeroed session.machine with
      | error f m =>
        rw [hact] at hrefused
        cases hrefused
      | ok answer m =>
        rw [hact] at hrefused
        cases answer with
        | ok object => cases hrefused
        | error cause => exact ⟨m, h.accounts.allocate_refused (h.index_lt hi) hact, rfl⟩

/-- **A refused allocation leaves no trace.** In every state of every run, a request that is refused,
at whatever step, has changed nothing but budgets and notes; and once nothing is refused any more, the
same request comes to what it would have come to without it. -/
theorem request_atomic {config : Config} {journalOpen : Bool} {host : Simulator.Host}
    (h : Simulator.Session.start config journalOpen host = .ok session) (moves : List Move)
    (controller name : String) (size align : Nat) (zeroed : Bool) {cause : Error}
    (hrefused : (request controller name size align zeroed (run moves session)).1 = .error cause) :
    let after := (request controller name size align zeroed (run moves session)).2
    Spent (run moves session) after ∧
      SameOutcome (request controller name size align zeroed after.cleared)
        (request controller name size align zeroed (run moves session).cleared) := by
  have hspent := (Booked.run h moves).request_refused hrefused
  obtain ⟨lines, hcleared⟩ := hspent.cleared
  refine ⟨hspent, ?_⟩
  rw [hcleared]
  exact request_relined _ lines

/-- The second of two mappings is refused, after two pages and a range were taken. -/
theorem request_atomic_second_mapping : ∃ session : Session Device,
    Simulator.Session.start { Config.systemMemory 0xea with iommuSpace := some 0x10000 } false =
        .ok session ∧
      let before := run [.operation (.build "gpu"), .faults (.limitMappings 1) rfl] session
      let after := (request "gpu" "table" 0x2000 0 false before).2
      (request "gpu" "table" 0x2000 0 false before).1 =
          .error (.platformFailed (.refusedMapping 0x1000 (-12))) ∧
        Spent before after ∧
        SameOutcome (request "gpu" "table" 0x2000 0 false after.cleared)
          (request "gpu" "table" 0x2000 0 false before.cleared) := by
  have hstart : Simulator.Session.start
      { Config.systemMemory 0xea with iommuSpace := some 0x10000 } false = .ok _ := rfl
  refine ⟨_, hstart, ?refused, request_atomic hstart _ _ _ _ _ _ ?refused⟩
  decide +kernel

end InstanceMemory.Session
