import InstanceMemory.Proofs.Machine.Counters
import InstanceMemory.Proofs.Machine.Faultless
import InstanceMemory.Proofs.Session.Abiding
import InstanceMemory.Proofs.Session.Shelf

/-!
# Runs that do not fault

A session on the simulated device is always in balance with its live objects, and nothing interrupts
its accesses. So **whatever was done before, no operation faults** but an access beyond an object or
beside a word (`Session.run_faultless`): no sum or difference of addresses leaves the 64 bits, nothing
is divided by zero, and no object lies elsewhere than it must. The same holds for the end of the
session, and on a device whose counters of pages and buffers fault where they would go below zero.
-/

set_option autoImplicit false

namespace InstanceMemory

open Simulator (Config Device Move Probe)
open Simulator.Device (strict)

variable {α : Type}

/-- Whether a command faulted. -/
def Outcome.isFaulted : Outcome α → Bool
  | .faulted _ => true
  | .reply _ | .error _ | .refused _ => false

/-- An access is one to words of the objects that it goes to. Everything else is no access to words. -/
def Operation.InBounds (session : Session Device) : Operation → Prop
  | .read32 target offset | .write32 target offset _ =>
    ∀ o ∈ session.resolve? target, o.Fits offset 1
  | .readWords target offset words => ∀ o ∈ session.resolve? target, o.Fits offset words
  | .writeWords target offset values => ∀ o ∈ session.resolve? target, o.Fits offset values.length
  | _ => True

instance (session : Session Device) : (operation : Operation) →
    Decidable (operation.InBounds session)
  | .read32 target offset | .write32 target offset _ =>
    inferInstanceAs (Decidable (∀ o ∈ session.resolve? target, o.Fits offset 1))
  | .readWords target offset words =>
    inferInstanceAs (Decidable (∀ o ∈ session.resolve? target, o.Fits offset words))
  | .writeWords target offset values =>
    inferInstanceAs (Decidable (∀ o ∈ session.resolve? target, o.Fits offset values.length))
  | .build _ | .destroy _ | .init _ | .suspend _ | .resume _ | .allocate .. | .free _ | .fill .. |
    .scan _ => isTrue trivial

namespace Action

/-! ## Accesses on the strict device -/

theorem readFrom_strict (o : InstanceObject) (words offset : Nat) (before : List UInt32) :
    @readFrom Device strict o words offset before = readFrom o words offset before := by
  induction words generalizing offset before with
  | zero => rfl
  | succ words ih =>
    unfold readFrom
    simp only [ih]
    rfl

theorem writeFrom_strict (o : InstanceObject) (values : List UInt32) (offset : Nat) :
    @writeFrom Device strict o values offset = writeFrom o values offset := by
  induction values generalizing offset with
  | nil => rfl
  | cons value rest ih =>
    unfold writeFrom
    simp only [ih]
    rfl

variable {m : Machine Device}

theorem readWords_strict (o : InstanceObject) (offset words : Nat) :
    @readWords Device strict o offset words m = readWords o offset words m :=
  run_bind_congr rfl fun _ _ _ => congrFun (readFrom_strict o words offset []) _

theorem writeWords_strict (o : InstanceObject) (offset : Nat) (values : List UInt32) :
    @writeWords Device strict o offset values m = writeWords o offset values m :=
  run_bind_congr rfl fun _ _ _ => congrFun (writeFrom_strict o values offset) _

end Action

namespace Session

variable {session : Session Device} {name : String} {target : Target}

theorem onMachine_congr {act act' : Action Device α} (h : act' session.machine = act session.machine) :
    onMachine act' session = onMachine act session := by
  simp only [onMachine, h]

theorem withController_congr {next next' : Nat → Step Device (Outcome Reply)}
    (h : ∀ i, session.controllers.get? name = some i → next' i session = next i session) :
    withController name next' session = withController name next session := by
  cases hi : session.controllers.get? name with
  | none => rw [run_withController_of_none hi, run_withController_of_none hi]
  | some i => rw [run_withController_of_some hi, run_withController_of_some hi, h i hi]

theorem withObject_congr {next next' : InstanceObject → Step Device (Outcome Reply)}
    (h : ∀ o, session.resolve? target = some o → next' o session = next o session) :
    withObject target next' session = withObject target next session := by
  cases ho : session.resolve? target with
  | none => rw [run_withObject_of_none ho, run_withObject_of_none ho]
  | some o => rw [run_withObject_of_some ho, run_withObject_of_some ho, h o ho]

/-- **Every operation comes to the same on the strict device.** -/
theorem operate_strict (h : Booked session) (operation : Operation) :
    @operate Device strict operation session = operate operation session := by
  obtain ⟨count, hmachine, -⟩ := h.machine
  cases operation with
  | build name =>
    unfold operate
    dsimp only
    rw [run_get_bind, run_get_bind]
    split
    · rfl
    · exact run_bind_congr (onMachine_congr hmachine.build_strict) fun _ _ _ => rfl
  | destroy name =>
    refine withController_congr fun i _ => ?_
    rw [run_modify_bind, run_modify_bind]
    exact run_bind_congr (onMachine_congr (hmachine.teardown_strict i)) fun _ _ _ => rfl
  | init name => rfl
  | suspend name => rfl
  | resume name => rfl
  | allocate controller name size align zeroed =>
    refine withController_congr fun i hi => ?_
    rw [run_get_bind, run_get_bind]
    split
    · rfl
    · exact run_bind_congr (onMachine_congr
        (h.accounts.allocate_strict (h.index_lt hi) size align zeroed)) fun _ _ _ => rfl
  | free name =>
    refine withObject_congr fun object ho => ?_
    obtain ⟨_, hfirst, -⟩ := h.exists_first ho
    rw [run_modify_bind, run_modify_bind]
    exact run_bind_congr (onMachine_congr hfirst.free_strict) fun _ _ _ => rfl
  | read32 target offset => rfl
  | write32 target offset value => rfl
  | readWords target offset words =>
    exact withObject_congr fun o _ =>
      run_bind_congr (onMachine_congr (Action.readWords_strict o offset words)) fun _ _ _ => rfl
  | writeWords target offset values =>
    exact withObject_congr fun o _ =>
      run_bind_congr (onMachine_congr (Action.writeWords_strict o offset values)) fun _ _ _ => rfl
  | fill target value =>
    exact withObject_congr fun o _ =>
      run_bind_congr (onMachine_congr (congrFun (Action.fill_strict o value) _)) fun _ _ _ => rfl
  | scan target =>
    exact withObject_congr fun o _ =>
      run_bind_congr (onMachine_congr (Action.readWords_strict o 0 o.words)) fun _ _ _ => rfl

/-! ## Operations that are answered -/

theorem isFaulted_withController {next : Nat → Step Device (Outcome Reply)}
    (h : ∀ i, session.controllers.get? name = some i →
      (outcome (next i) session).1.isFaulted = false) :
    (outcome (withController name next) session).1.isFaulted = false := by
  unfold outcome
  cases hi : session.controllers.get? name with
  | none =>
    rw [run_withController_of_none hi]
    rfl
  | some i =>
    rw [run_withController_of_some hi]
    exact h i hi

theorem isFaulted_withObject {next : InstanceObject → Step Device (Outcome Reply)}
    (h : ∀ o, session.resolve? target = some o → (outcome (next o) session).1.isFaulted = false) :
    (outcome (withObject target next) session).1.isFaulted = false := by
  unfold outcome
  cases ho : session.resolve? target with
  | none =>
    rw [run_withObject_of_none ho]
    rfl
  | some o =>
    rw [run_withObject_of_some ho]
    exact h o ho

/-- What the machine answers is answered. -/
theorem isFaulted_onMachine {act : Action Device α} {reply : α → Outcome Reply}
    {Q : α → Machine Device → Prop} (hreply : ∀ a, (reply a).isFaulted = false)
    (hact : ∃ a m', act session.machine = .ok a m' ∧ Q a m') :
    (outcome (onMachine act >>= fun a => pure (reply a)) session).1.isFaulted = false := by
  obtain ⟨a, m', hrun, -⟩ := hact
  rw [outcome, run_bind_of_ok (onMachine_of_ok hrun)]
  exact hreply a

theorem isFaulted_outcomeOf (reply : α → Reply) (answer : Except Error α) :
    (outcomeOf reply answer).isFaulted = false := by
  cases answer <;> rfl

/-- **No operation faults** but an access that goes beyond its object or beside a word. -/
theorem isFaulted_operate (h : Booked session) (hquiet : Quiet session.machine)
    {operation : Operation} (hbounds : operation.InBounds session) :
    (outcome (operate operation) session).1.isFaulted = false := by
  have horderly : Orderly session.machine.roster session.live session.machine := ⟨h.accounts, hquiet⟩
  have hnothing : ∀ a : Unit, Outcome.isFaulted (.reply Reply.nothing) = false := fun _ => rfl
  cases operation with
  | build name =>
    obtain ⟨answer, m', hbuild⟩ := Action.build_answers session.machine
    unfold outcome operate
    dsimp only
    rw [run_get_bind]
    by_cases hused : (session.controllers.get? name).isSome = true
    · rw [if_pos hused]
      rfl
    · rw [if_neg hused, run_bind_of_ok (onMachine_of_ok hbuild)]
      cases answer <;> rfl
  | destroy name =>
    obtain ⟨⟨count, hmachine, -⟩, -⟩ := h
    refine isFaulted_withController fun i _ => ?_
    obtain ⟨m', hteardown, -⟩ := hmachine.teardown i
    rw [outcome, run_modify_bind]
    exact isFaulted_onMachine (Q := fun _ _ => True) hnothing ⟨(), m', hteardown, trivial⟩
  | init name =>
    exact isFaulted_withController fun i _ => isFaulted_onMachine (isFaulted_outcomeOf _)
      (faultless_init i _ horderly)
  | suspend name =>
    exact isFaulted_withController fun i _ => isFaulted_onMachine (isFaulted_outcomeOf _)
      (faultless_suspend i _ horderly)
  | resume name =>
    exact isFaulted_withController fun i _ => isFaulted_onMachine (isFaulted_outcomeOf _)
      (faultless_resume i _ horderly)
  | allocate controller name size align zeroed =>
    rw [outcome_allocate]
    cases hi : session.controllers.get? controller with
    | none => rfl
    | some i =>
      obtain ⟨answer, m', hallocate⟩ := horderly.allocate (h.index_lt hi) size align zeroed
      dsimp only
      split
      · rfl
      · rw [hallocate]
        cases answer <;> rfl
  | free name =>
    refine isFaulted_withObject fun object ho => ?_
    obtain ⟨_, hfirst, -⟩ := h.exists_first ho
    obtain ⟨m', hfree, -⟩ := hfirst.free
    rw [outcome, run_modify_bind]
    exact isFaulted_onMachine (Q := fun _ _ => True) hnothing ⟨(), m', hfree, trivial⟩
  | read32 target offset =>
    exact isFaulted_withObject fun o ho => isFaulted_onMachine (fun _ => rfl)
      (horderly.read32 (live_of_resolve? ho) (hbounds o ho))
  | write32 target offset value =>
    exact isFaulted_withObject fun o ho => isFaulted_onMachine hnothing
      (horderly.write32 (live_of_resolve? ho) (hbounds o ho) value)
  | readWords target offset words =>
    exact isFaulted_withObject fun o ho => isFaulted_onMachine (fun _ => rfl)
      (horderly.readWords (live_of_resolve? ho) (hbounds o ho))
  | writeWords target offset values =>
    exact isFaulted_withObject fun o ho => isFaulted_onMachine hnothing
      (horderly.writeWords (live_of_resolve? ho) (hbounds o ho))
  | fill target value =>
    exact isFaulted_withObject fun o ho => isFaulted_onMachine hnothing
      (horderly.fill (live_of_resolve? ho) value)
  | scan target =>
    exact isFaulted_withObject fun o ho => isFaulted_onMachine (fun _ => rfl)
      (horderly.readWords (live_of_resolve? ho) o.fits_all)

/-- Telling the device what to refuse does not fault. -/
theorem isFaulted_probe {probe : Probe} (h : probe.setsFaults = true) :
    (outcome (Simulator.Session.probe probe) session).1.isFaulted = false := by
  cases probe <;> first | rfl | cases h

/-! ## The end of a session -/

variable {count : Nat} {objects : List InstanceObject} {m : Machine Device}

/-- Objects are freed in turn, and the same on the strict device. -/
theorem freeAll_answers (h : InstanceMemory.Booked count objects m) :
    ∃ m', freeAll objects m = .ok () m' ∧ @freeAll Device strict objects m = .ok () m' ∧
      InstanceMemory.Booked count [] m' := by
  induction objects generalizing m with
  | nil => exact ⟨m, rfl, rfl, h⟩
  | cons object rest ih =>
    obtain ⟨m₁, hfree, h₁⟩ := h.free
    obtain ⟨m', hrest, hrest', h'⟩ := ih h₁
    refine ⟨m', ?_, ?_, h'⟩
    · exact (run_bind_of_ok hfree _).trans hrest
    · exact (run_bind_of_ok (h.free_strict.trans hfree) _).trans hrest'

/-- Controllers are destroyed in turn, and the same on the strict device. -/
theorem teardownAll_answers (h : InstanceMemory.Booked count objects m) (numbers : List Nat) :
    ∃ m', teardownAll numbers m = .ok () m' ∧ @teardownAll Device strict numbers m = .ok () m' := by
  induction numbers generalizing m with
  | nil => exact ⟨m, rfl, rfl⟩
  | cons i rest ih =>
    obtain ⟨m₁, hteardown, h₁, -⟩ := h.teardown i
    obtain ⟨m', hrest, hrest'⟩ := ih h₁
    refine ⟨m', ?_, ?_⟩
    · exact (run_bind_of_ok hteardown _).trans hrest
    · exact (run_bind_of_ok ((h.teardown_strict i).trans hteardown) _).trans hrest'

/-- A session ends with the last of its controllers destroyed. -/
theorem finish_of_ok {π : Type} [Platform π] {session : Session π} {m₁ m₂ : Machine π}
    (hfree : freeAll session.objects.values session.machine = .ok () m₁)
    (hteardown : teardownAll session.controllers.values m₁ = .ok () m₂) :
    finish session = .ok (.reply .nothing) ⟨m₂, [], []⟩ := by
  have hobjects : onMachine (freeAll session.objects.values)
      ⟨session.machine, session.controllers, []⟩ = .ok () ⟨m₁, session.controllers, []⟩ :=
    onMachine_of_ok hfree
  have hcontrollers : onMachine (teardownAll session.controllers.values) ⟨m₁, [], []⟩ =
      .ok () ⟨m₂, [], []⟩ := onMachine_of_ok hteardown
  unfold finish
  rw [run_get_bind, run_modify_bind]
  refine (run_bind_of_ok hobjects _).trans ?_
  rw [run_get_bind, run_modify_bind]
  exact run_bind_of_ok hcontrollers _

/-- **A session can be ended**, and it ends the same on the strict device. -/
theorem finish_answers (h : Booked session) : ∃ later,
    finish session = .ok (.reply .nothing) later ∧
      @finish Device strict session = .ok (.reply .nothing) later := by
  obtain ⟨⟨count, hmachine, -⟩, -⟩ := h
  obtain ⟨m₁, hfree, hfree', h₁⟩ := freeAll_answers hmachine
  obtain ⟨m₂, hteardown, hteardown'⟩ := teardownAll_answers h₁ session.controllers.values
  refine ⟨⟨m₂, [], []⟩, finish_of_ok hfree hteardown, ?_⟩
  exact @finish_of_ok Device strict session m₁ m₂ hfree' hteardown'

/-! ## Every run -/

/-- **After every run of a session no command faults** but an access beyond an object or beside a word:
no operation of any number of controllers, in whatever order and with whatever sizes and alignments, no
refusal that the device is told of, and not the end of the session, with the journal open or closed. It
is all the same on a device whose counters of live pages and buffers fault where they would go below
zero. -/
theorem run_faultless {config : Config} {journalOpen : Bool} {host : Simulator.Host}
    (hstart : Simulator.Session.start config journalOpen host = .ok session) (moves : List Move) :
    let reached := Simulator.Session.run moves session
    (∀ operation : Operation, operation.InBounds reached →
      (outcome (operate operation) reached).1.isFaulted = false) ∧
    (∀ probe : Probe, probe.setsFaults = true →
      (outcome (Simulator.Session.probe probe) reached).1.isFaulted = false) ∧
    (outcome finish reached).1.isFaulted = false ∧
    (∀ operation : Operation,
      outcome (@operate Device strict operation) reached = outcome (operate operation) reached) ∧
    outcome (@finish Device strict) reached = outcome finish reached := by
  have hbooked : Booked (Simulator.Session.run moves session) := Booked.run hstart moves
  have hquiet : Quiet (Simulator.Session.run moves session).machine := by
    refine Quiet.abiding.run moves ?_
    obtain ⟨device, shared, -, rfl⟩ := Simulator.Session.start_eq_ok hstart
    exact ⟨rfl, rfl⟩
  obtain ⟨later, hfinish, hfinish'⟩ := finish_answers hbooked
  refine ⟨fun operation hbounds => isFaulted_operate hbooked hquiet hbounds,
    fun probe hprobe => isFaulted_probe hprobe, ?_, ?_, ?_⟩
  · rw [outcome, hfinish]
    rfl
  · intro operation
    rw [outcome, operate_strict hbooked operation]
    rfl
  · rw [outcome, outcome, hfinish, hfinish']

/-- A run behind the IOMMU in which a mapping is refused half way, and the last word of an object that
outlives its controller. -/
theorem run_faultless_outliving : ∃ session : Session Device,
    Simulator.Session.start { Config.systemMemory 0xea with iommuSpace := some 0x10000 } true =
        .ok session ∧
      let reached := Simulator.Session.run [.operation (.build "gpu"),
        .operation (.allocate "gpu" "table" 0x1001 0 false), .faults (.limitMappings 1) rfl,
        .operation (.allocate "gpu" "refused" 0x2000 0 false), .faults .clearFaults rfl,
        .operation (.destroy "gpu")] session
      (Operation.read32 (.object "table") 0x1ffc).InBounds reached ∧
        (outcome (operate (.read32 (.object "table") 0x1ffc)) reached).1.isFaulted = false ∧
        (outcome finish reached).1.isFaulted = false ∧
        outcome (@finish Device strict) reached = outcome finish reached := by
  have hstart : Simulator.Session.start
      { Config.systemMemory 0xea with iommuSpace := some 0x10000 } true = .ok _ := rfl
  obtain ⟨hoperate, -, hfinish, -, hstrict⟩ := run_faultless hstart [.operation (.build "gpu"),
    .operation (.allocate "gpu" "table" 0x1001 0 false), .faults (.limitMappings 1) rfl,
    .operation (.allocate "gpu" "refused" 0x2000 0 false), .faults .clearFaults rfl,
    .operation (.destroy "gpu")]
  refine ⟨_, hstart, ?_, hoperate _ ?_, hfinish, hstrict⟩
  · decide +kernel
  · decide +kernel

end Session
end InstanceMemory
