import InstanceMemory.Proofs.Actions
import InstanceMemory.Proofs.Directory
import InstanceMemory.Simulator.Session

/-!
# Runs of a session on the simulated device

What users do with a device: they carry out operations of controllers and objects, and tell the
device what to refuse. A run takes any moves in any order, and every move has its effect whether it is
answered, refused or faults.

Steps of a session are run like actions: a step on the machine answers or faults as the action does,
and a command on a name goes on with what has the name, or is refused.
-/

set_option autoImplicit false

namespace InstanceMemory.Simulator

/-- The probe tells the device what to refuse, or to refuse nothing any more. -/
def Probe.setsFaults : Probe → Bool
  | .limitPages _ | .limitMappings _ | .refuseBuffers _ | .refuseBars _ | .clearFaults => true
  | _ => false

/-- One move of a run. -/
inductive Move
  | operation (operation : Operation)
  | faults (probe : Probe) (h : probe.setsFaults = true)

/-- The move tells the device what to refuse. -/
def Move.setsFaults : Move → Bool
  | .faults .. => true
  | .operation _ => false

/-- The move neither builds nor destroys a controller. -/
def Move.keepsControllers : Move → Bool
  | .operation (.build _) | .operation (.destroy _) => false
  | _ => true

namespace Session

open InstanceMemory.Session (Step operate outcome)

/-- The session after a move. -/
def after (session : InstanceMemory.Session Device) : Move → InstanceMemory.Session Device
  | .operation operation => (outcome (operate operation) session).2
  | .faults p _ => (outcome (probe p) session).2

/-- The session after a run. -/
def run (moves : List Move) (session : InstanceMemory.Session Device) :
    InstanceMemory.Session Device :=
  moves.foldl after session

/-- The session after a step is what the step leaves. -/
theorem outcome_snd {π α : Type} (step : Step π (Outcome α))
    (session : InstanceMemory.Session π) : (outcome step session).2 = leaves step session := by
  unfold outcome leaves
  cases step session <;> rfl

/-- A session starts on the device of its configuration, with nothing built on it. -/
theorem start_eq_ok {config : Config} {journalOpen : Bool} {host : Host}
    {session : InstanceMemory.Session Device} (h : start config journalOpen host = .ok session) :
    ∃ device shared, Device.start config host = .ok (device, shared) ∧
      session = .start (.start device shared journalOpen false) := by
  unfold start at h
  cases hstart : Device.start config host with
  | error cause =>
    rw [hstart] at h
    cases h
  | ok started =>
    rw [hstart] at h
    exact ⟨started.1, started.2, rfl, (Except.ok.inj h).symm⟩

/-- **What every move keeps, every run keeps.** -/
theorem run_induction {P : InstanceMemory.Session Device → Prop}
    (hmove : ∀ session move, P session → P (after session move)) (moves : List Move)
    {session : InstanceMemory.Session Device} (h : P session) : P (run moves session) := by
  induction moves generalizing session with
  | nil => exact h
  | cons move rest ih => exact ih (hmove session move h)

/-! ## Telling the device what to refuse -/

/-- A device that refuses other things, and is otherwise the same. -/
def Rearmed (d d' : Device) : Prop :=
  ∃ (pageBudget : Budget) (refusesBuffers : Bool) (f : Budget → Budget) (refusesBars : Bool),
    d' = { d with
      memory := { d.memory with pageBudget, refusesBuffers }
      translation := d.translation.map fun t => { t with budget := f t.budget }
      refusesBars }

/-- Telling the device what to refuse is all that such a probe does. -/
theorem probe_setsFaults {p : Probe} (h : p.setsFaults = true)
    (session : InstanceMemory.Session Device) :
    ∃ d, Rearmed session.machine.hardware d ∧
      leaves (probe p) session = { session with machine.hardware := d } := by
  have hsame : ∀ translation : Option Translation,
      (translation.map fun t => { t with budget := t.budget }) = translation :=
    fun _ => Option.map_id'
  cases p <;> simp only [Probe.setsFaults, Bool.false_eq_true] at h
  case limitPages count =>
    refine ⟨_, ⟨some count, session.machine.hardware.memory.refusesBuffers, id,
      session.machine.hardware.refusesBars, rfl⟩, ?_⟩
    simp only [id, hsame]
    rfl
  case limitMappings count =>
    exact ⟨_, ⟨session.machine.hardware.memory.pageBudget,
      session.machine.hardware.memory.refusesBuffers, fun _ => some count,
      session.machine.hardware.refusesBars, rfl⟩, rfl⟩
  case refuseBuffers refuse =>
    refine ⟨_, ⟨session.machine.hardware.memory.pageBudget, refuse, id,
      session.machine.hardware.refusesBars, rfl⟩, ?_⟩
    simp only [id, hsame]
    rfl
  case refuseBars refuse =>
    refine ⟨_, ⟨session.machine.hardware.memory.pageBudget,
      session.machine.hardware.memory.refusesBuffers, id, refuse, rfl⟩, ?_⟩
    simp only [id, hsame]
    rfl
  case clearFaults => exact ⟨_, ⟨none, false, fun _ => none, false, rfl⟩, rfl⟩

end Session
end InstanceMemory.Simulator

namespace InstanceMemory.Session

open Simulator (Device)

variable {π α : Type} {session : Session π} {controller name : String}
  {target : Target} {size align : Nat} {zeroed : Bool}

/-! ## Steps on the machine -/

theorem leaves_onMachine (act : Action π α) (session : Session π) :
    leaves (onMachine act) session = { session with machine := leaves act session.machine } := by
  obtain ⟨machine, controllers, objects⟩ := session
  unfold leaves onMachine
  cases hact : act machine <;> simp only [hact]

/-- What is answered after a step on the machine changes nothing. -/
theorem leaves_onMachine_bind_pure {β : Type} (act : Action π α) (reply : α → β)
    (session : Session π) :
    leaves (onMachine act >>= fun a => pure (reply a)) session =
      { session with machine := leaves act session.machine } := by
  rw [← leaves_onMachine]
  unfold leaves
  cases hact : onMachine act session with
  | ok a later => rw [run_bind_of_ok hact, run_pure]
  | error f later => rw [run_bind_of_error hact]

theorem onMachine_of_ok {act : Action π α} {a : α} {m' : Machine π}
    (h : act session.machine = .ok a m') :
    onMachine act session = .ok a { session with machine := m' } := by
  simp only [onMachine, h]

theorem onMachine_of_error {act : Action π α} {f : Fault} {m' : Machine π}
    (h : act session.machine = .error f m') :
    onMachine act session = .error f { session with machine := m' } := by
  simp only [onMachine, h]

/-! ## Commands on names -/

theorem run_withController_of_some {i : Nat} (h : session.controllers.get? name = some i)
    (next : Nat → Step π (Outcome Reply)) :
    withController name next session = next i session := by
  rw [withController, run_get_bind, h]

theorem run_withController_of_none (h : session.controllers.get? name = none)
    (next : Nat → Step π (Outcome Reply)) :
    withController name next session = .ok (.refused .noController) session := by
  rw [withController, run_get_bind, h]
  rfl

theorem run_withObject_of_some {object : InstanceObject} (h : session.resolve? target = some object)
    (next : InstanceObject → Step π (Outcome Reply)) :
    withObject target next session = next object session := by
  rw [withObject, run_get_bind, h]

theorem run_withObject_of_none (h : session.resolve? target = none)
    (next : InstanceObject → Step π (Outcome Reply)) :
    withObject target next session = .ok (.refused .noObject) session := by
  rw [withObject, run_get_bind, h]
  rfl

/-- What a controller does to the machine is all that is left of it. -/
theorem leaves_withController {i : Nat} (hi : session.controllers.get? name = some i)
    (act : Nat → Action π α) (reply : α → Outcome Reply) :
    leaves (withController name fun i => onMachine (act i) >>= fun a => pure (reply a)) session =
      { session with machine := leaves (act i) session.machine } := by
  rw [leaves, run_withController_of_some hi, ← leaves, leaves_onMachine_bind_pure]

/-- What an access does to the machine is all that is left of it. -/
theorem leaves_withObject {object : InstanceObject} (ho : session.resolve? target = some object)
    (act : InstanceObject → Action π α) (reply : α → Outcome Reply) :
    leaves (withObject target fun o => onMachine (act o) >>= fun a => pure (reply a)) session =
      { session with machine := leaves (act object) session.machine } := by
  rw [leaves, run_withObject_of_some ho, ← leaves, leaves_onMachine_bind_pure]

/-- What goes well with a controller is answered. -/
theorem outcome_withController {i : Nat} (hi : session.controllers.get? name = some i)
    {act : Nat → Action π α} {a : α} {m' : Machine π}
    (hact : act i session.machine = .ok a m') (reply : α → Outcome Reply) :
    outcome (withController name fun i => onMachine (act i) >>= fun a => pure (reply a)) session =
      (reply a, { session with machine := m' }) := by
  rw [outcome, run_withController_of_some hi, run_bind_of_ok (onMachine_of_ok hact)]
  rfl

/-- An access that goes well is answered. -/
theorem outcome_withObject {object : InstanceObject} (ho : session.resolve? target = some object)
    {act : InstanceObject → Action π α} {a : α} {m' : Machine π}
    (hact : act object session.machine = .ok a m') (reply : α → Outcome Reply) :
    outcome (withObject target fun o => onMachine (act o) >>= fun a => pure (reply a)) session =
      (reply a, { session with machine := m' }) := by
  rw [outcome, run_withObject_of_some ho, run_bind_of_ok (onMachine_of_ok hact)]
  rfl

theorem keeps_withController {P : Session π → Prop}
    {next : Nat → Step π (Outcome Reply)}
    (h : ∀ session i, P session → (name, i) ∈ session.controllers → P (leaves (next i) session)) :
    Keeps P (withController name next) := by
  apply keeps_get_bind
  intro session hsession
  cases hi : session.controllers.get? name with
  | none => exact hsession
  | some i => exact h session i hsession (Directory.mem_of_get? hi)

theorem keeps_withObject {P : Session π → Prop}
    {next : InstanceObject → Step π (Outcome Reply)}
    (h : ∀ session object, P session → session.resolve? target = some object →
      P (leaves (next object) session)) :
    Keeps P (withObject target next) := by
  apply keeps_get_bind
  intro session hsession
  cases hobject : session.resolve? target with
  | none => exact hsession
  | some object => exact h session object hsession hobject

/-! ## Requests -/

/-- What comes of a request for an object, and the session after it. -/
def request (controller name : String) (size align : Nat) (zeroed : Bool)
    (session : Session Device) : Outcome Reply × Session Device :=
  outcome (operate (.allocate controller name size align zeroed)) session

/-- A request comes to the allocation if the controller is there and the name is not taken. -/
theorem outcome_allocate [Platform π] (session : Session π) :
    outcome (operate (.allocate controller name size align zeroed)) session =
      match session.controllers.get? controller with
      | none => (.refused .noController, session)
      | some i =>
        if (session.objects.get? name).isSome then (.refused .nameInUse, session)
        else
          match Action.allocate i size align zeroed session.machine with
          | .error f m => (.faulted f, { session with machine := m })
          | .ok (.error cause) m => (.error cause, { session with machine := m })
          | .ok (.ok object) m => (.reply (.object object),
              { session with machine := m, objects := session.objects.insert name object }) := by
  unfold outcome
  rw [operate, withController, run_get_bind]
  cases session.controllers.get? controller with
  | none => rfl
  | some i =>
    dsimp only
    rw [run_get_bind]
    by_cases hused : (session.objects.get? name).isSome = true
    · rw [if_pos hused, if_pos hused]
      rfl
    · rw [if_neg hused, if_neg hused]
      cases hact : Action.allocate i size align zeroed session.machine with
      | error f m => rw [run_bind_of_error (onMachine_of_error hact)]
      | ok answer m =>
        rw [run_bind_of_ok (onMachine_of_ok hact)]
        cases answer <;> rfl

/-- A request that is answered with an object comes to the allocation that makes it. -/
theorem exists_of_made [Platform π] {made : InstanceObject}
    (h : (outcome (operate (.allocate controller name size align zeroed)) session).1 =
      .reply (.object made)) :
    ∃ i m', session.controllers.get? controller = some i ∧ session.objects.get? name = none ∧
      Action.allocate i size align zeroed session.machine = .ok (.ok made) m' ∧
      (outcome (operate (.allocate controller name size align zeroed)) session).2 =
        { session with machine := m', objects := session.objects.insert name made } := by
  rw [outcome_allocate] at h ⊢
  cases hi : session.controllers.get? controller with
  | none =>
    rw [hi] at h
    cases h
  | some i =>
    rw [hi] at h
    dsimp only at h ⊢
    by_cases hused : (session.objects.get? name).isSome = true
    · rw [if_pos hused] at h
      cases h
    · rw [if_neg hused] at h ⊢
      cases hact : Action.allocate i size align zeroed session.machine with
      | error f m' =>
        rw [hact] at h
        cases h
      | ok answer m' =>
        rw [hact] at h
        cases answer with
        | error cause => cases h
        | ok object =>
          obtain rfl : object = made := Reply.object.inj (Outcome.reply.inj h)
          exact ⟨i, m', rfl, Option.not_isSome_iff_eq_none.mp hused, hact, rfl⟩

section

variable {session : Session Device}

/-- A request of a controller that is there for a name that is free comes to the allocation. -/
theorem request_of_unused {i : Nat} (hi : session.controllers.get? controller = some i)
    (hunused : session.objects.get? name = none) :
    request controller name size align zeroed session =
      match Action.allocate i size align zeroed session.machine with
      | .error f m => (.faulted f, { session with machine := m })
      | .ok (.error cause) m => (.error cause, { session with machine := m })
      | .ok (.ok object) m => (.reply (.object object),
          { session with machine := m, objects := session.objects.insert name object }) := by
  rw [request, outcome_allocate, hi]
  dsimp only
  rw [hunused]
  cases (Action.allocate i size align zeroed : Action Device _) session.machine with
  | error f m => rfl
  | ok answer m => cases answer <;> rfl

theorem machine_request {i : Nat} (hi : session.controllers.get? controller = some i)
    (hunused : session.objects.get? name = none) :
    (request controller name size align zeroed session).2.machine =
      leaves (Action.allocate i size align zeroed) session.machine := by
  rw [request_of_unused hi hunused, leaves]
  cases (Action.allocate i size align zeroed : Action Device _) session.machine with
  | error f m => rfl
  | ok answer m => cases answer <;> rfl

/-- Any other request changes nothing. -/
theorem request_of_refused (h : ¬ ∃ i, session.controllers.get? controller = some i ∧
    session.objects.get? name = none) : (request controller name size align zeroed session).2 = session := by
  rw [request, outcome_allocate]
  cases hi : session.controllers.get? controller with
  | none => rfl
  | some i =>
    have hused : (session.objects.get? name).isSome = true := by
      rw [Option.isSome_iff_ne_none]
      exact fun hunused => h ⟨i, hi, hunused⟩
    exact congrArg Prod.snd (if_pos hused)

end

end InstanceMemory.Session
