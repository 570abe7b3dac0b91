import InstanceMemory.Proofs.Machine.Forgetting
import InstanceMemory.Proofs.Session.FlatAccess
import InstanceMemory.Proofs.Session.Shelf

/-!
# Suspend and resume are transparent

Take a session with one controller, and let it be suspended and resumed at once, anywhere in a run
where the controller is ready. Both succeed, and nothing that is done afterwards tells the run from the
one without them (`Session.run_transparent`): every answer, refusal and fault is the same, and so is
what the run leaves, down to the budgets of the device, but for what the controller remembers of the
window and what has been noted. The window register is written once more at most.

A run is here all that users do: operations of the controller and its objects, looks at them, commands
on the window, at any addresses, and what the device is told to refuse. What carries the induction is
that the one session `Trails` the other, which every turn keeps (`Session.Trails.turn`).
-/

set_option autoImplicit false

namespace InstanceMemory

open Simulator (Config Device Move)
open Simulator.Session (after run)

/-- The machine without what controllers remember of the window, how often it was moved, and what was
noted. -/
def Machine.unwindowed (m : Machine Device) : Machine Device :=
  { m with
    hardware.windowWrites := 0
    controllers := m.controllers.map fun c => { c with window.cached := none }
    journal.lines := #[] }

namespace Session

/-- What users do with a session. -/
inductive Turn
  | move (move : Move)
  | inspection (inspection : Inspection)
  | window (command : WindowCommand)

namespace Turn

/-- The turn builds a controller. -/
def builds : Turn → Bool
  | .move (.operation (.build _)) => true
  | _ => false

/-- What shows of an answer, apart from what the controller remembers of the window. -/
def shows : Turn → Outcome Reply → Outcome Reply
  | .inspection (.windowText _), .reply (.text _) => .reply .nothing
  | .inspection (.report _), .reply (.report r) =>
    .reply (.report { r with controller := { r.controller with window.cached := none } })
  | _, answer => answer

end Turn

/-- What a turn answers, and the session after it. -/
def turn : Turn → Session Device → Outcome Reply × Session Device
  | .move (.operation operation), session => outcome (operate operation) session
  | .move (.faults probe h), session => (.reply .nothing, after session (.faults probe h))
  | .inspection inspection, session => outcome (inspect inspection) session
  | .window command, session => outcome (operateWindow command) session

/-- What shows of turns taken one after the other, and the session after them. -/
def turns : List Turn → Session Device → List (Outcome Reply) × Session Device :=
  transcript fun t session => (t.shows (turn t session).1, (turn t session).2)

/-- The phase of the controller of a name. -/
def phase? (session : Session Device) (gpu : String) : Option Phase :=
  (session.controllers.get? gpu).map fun i => (session.machine.controller i).phase

/-- No turns tell a session from another, and what they leave is the same but for the window. -/
structure Indistinct (rest : List Turn) (session later : Session Device) : Prop where
  answers : (turns rest later).1 = (turns rest session).1
  controllers : (turns rest later).2.controllers = (turns rest session).2.controllers
  objects : (turns rest later).2.objects = (turns rest session).2.objects
  machine : (turns rest later).2.machine.unwindowed = (turns rest session).2.machine.unwindowed
  windowWrites : (turns rest later).2.machine.hardware.windowWrites =
        (turns rest session).2.machine.hardware.windowWrites ∨
      (turns rest later).2.machine.hardware.windowWrites =
        (turns rest session).2.machine.hardware.windowWrites + 1

variable {session later : Session Device} {gpu name : String} {target : Target} {α : Type}

/-! ## Sessions that trail others -/

/-- The machine of a session trails that of another, and the names are the same. -/
structure Tracks (session later : Session Device) : Prop where
  machine : InstanceMemory.Trails session.machine later.machine
  controllers : later.controllers = session.controllers
  objects : later.objects = session.objects

/-- A session trails another, which has kept its accounts. -/
structure Trails (session later : Session Device) : Prop extends Tracks session later where
  booked : Booked session

/-- What the machines do in the same way, the sessions do in the same way. -/
theorem blind_onMachine {act : Action Device α} (h : Blind InstanceMemory.Trails act) :
    Blind Tracks (onMachine act) := by
  intro session later hs
  have hact := h _ _ hs.machine
  unfold onMachine
  dsimp only
  generalize act session.machine = r at hact ⊢
  generalize act later.machine = r' at hact ⊢
  cases hact with
  | ok a hm => exact .ok a ⟨hm, hs.controllers, hs.objects⟩
  | error f hm => exact .error f ⟨hm, hs.controllers, hs.objects⟩

/-- What is the same of two steps is the same of their outcomes. -/
theorem outcome_of_alike {S : Session Device → Session Device → Prop}
    {step : Step Device (Outcome Reply)} (h : Alike S (step session) (step later)) :
    (outcome step later).1 = (outcome step session).1 ∧
      S (outcome step session).2 (outcome step later).2 := by
  unfold outcome
  generalize step session = r at h ⊢
  generalize step later = r' at h ⊢
  cases h with
  | ok a h => exact ⟨rfl, h⟩
  | error f h => exact ⟨rfl, h⟩

theorem blind_setControllers (f : Directory Nat → Directory Nat) :
    Blind Tracks (modify fun s => { s with controllers := f s.controllers } : Step Device PUnit) :=
  blind_modify fun _ _ h => ⟨h.machine, congrArg f h.controllers, h.objects⟩

theorem blind_setObjects (f : Directory InstanceObject → Directory InstanceObject) :
    Blind Tracks (modify fun s => { s with objects := f s.objects } : Step Device PUnit) :=
  blind_modify fun _ _ h => ⟨h.machine, h.controllers, congrArg f h.objects⟩

namespace Trails

/-- A name stands for the one controller. -/
theorem index (h : Trails session later) {i : Nat} (hi : session.controllers.get? name = some i) :
    i = 0 := by
  have hlt := h.booked.index_lt hi
  obtain ⟨c, hc, -⟩ := h.machine.poised.alone
  rw [Machine.length_roster, hc] at hlt
  exact Nat.lt_one_iff.mp hlt

/-- The objects are those of the one controller. -/
theorem owner (h : Trails session later) {o : InstanceObject} (ho : session.resolve? target = some o) :
    o.owner = 0 := by
  obtain ⟨-, howner, -⟩ := h.booked.accounts.made o (live_of_resolve? ho)
  obtain ⟨c, hc, -⟩ := h.machine.poised.alone
  rw [Machine.length_roster, hc] at howner
  exact Nat.lt_one_iff.mp howner

/-- A target stands for the same object. -/
theorem resolve?_eq (h : Trails session later) (target : Target) :
    later.resolve? target = session.resolve? target := by
  refine resolve?_congr h.controllers h.objects ?_ target
  obtain ⟨c, last, hdiffer⟩ := h.machine.exists_differ
  rw [Machine.roster, Machine.roster, hdiffer.first, hdiffer.second]
  rfl

/-- What the one controller does in the same way, what has its name does. -/
theorem withController (h : Trails session later) {next : Nat → Step Device (Outcome Reply)}
    (hnext : Blind Tracks (next 0)) :
    Alike Tracks (withController name next session) (withController name next later) := by
  cases hi : session.controllers.get? name with
  | none =>
    rw [run_withController_of_none hi, run_withController_of_none (h.controllers ▸ hi)]
    exact .ok _ h.toTracks
  | some i =>
    rw [run_withController_of_some hi, run_withController_of_some (h.controllers ▸ hi), h.index hi]
    exact hnext _ _ h.toTracks

theorem withObject (h : Trails session later)
    {next : InstanceObject → Step Device (Outcome Reply)}
    (hnext : ∀ o : InstanceObject, o.owner = 0 → Blind Tracks (next o)) :
    Alike Tracks (withObject target next session) (withObject target next later) := by
  have hresolve := h.resolve?_eq target
  cases ho : session.resolve? target with
  | none =>
    rw [run_withObject_of_none ho, run_withObject_of_none (hresolve.trans ho)]
    exact .ok _ h.toTracks
  | some o =>
    rw [run_withObject_of_some ho, run_withObject_of_some (hresolve.trans ho)]
    exact hnext o (h.owner ho) _ _ h.toTracks

/-- What the one controller does to the machine is all that is done. -/
theorem ofController (h : Trails session later) {act : Nat → Action Device α}
    (hact : Blind InstanceMemory.Trails (act 0)) (reply : α → Outcome Reply) :
    Alike Tracks
      (Session.withController name (fun i => onMachine (act i) >>= fun a => pure (reply a)) session)
      (Session.withController name (fun i => onMachine (act i) >>= fun a => pure (reply a)) later) :=
  h.withController ((blind_onMachine hact).bind fun _ => blind_pure _)

theorem ofObject (h : Trails session later) {act : InstanceObject → Action Device α}
    (hact : ∀ o : InstanceObject, o.owner = 0 → Blind InstanceMemory.Trails (act o))
    (reply : α → Outcome Reply) :
    Alike Tracks
      (Session.withObject target (fun o => onMachine (act o) >>= fun a => pure (reply a)) session)
      (Session.withObject target (fun o => onMachine (act o) >>= fun a => pure (reply a)) later) :=
  h.withObject fun o ho => (blind_onMachine (hact o ho)).bind fun _ => blind_pure _

/-! ## Every turn -/

/-- **Every operation but to build a controller comes to the same.** -/
theorem operate (h : Trails session later) {operation : Operation}
    (hbuilds : (Turn.move (.operation operation)).builds = false) :
    Alike Tracks (operate operation session) (operate operation later) := by
  cases operation with
  | build name => cases hbuilds
  | destroy name =>
    refine h.withController ((blind_setControllers (·.erase name)).bind fun _ => ?_)
    exact (blind_onMachine (InstanceMemory.Trails.blind_teardown 0)).bind fun _ => blind_pure _
  | init name => exact h.ofController InstanceMemory.Trails.blind_init _
  | suspend name => exact h.ofController InstanceMemory.Trails.blind_suspend _
  | resume name => exact h.ofController InstanceMemory.Trails.blind_resume _
  | allocate controller name size align zeroed =>
    apply h.withController
    apply blind_get_bind
    intro session later h
    rw [h.objects]
    split
    · exact .ok _ h
    · refine (blind_onMachine (InstanceMemory.Trails.blind_allocate size align zeroed)).bind ?_ _ _ h
      intro answer
      cases answer with
      | error cause => exact blind_pure _
      | ok o => exact (blind_setObjects (·.insert name o)).bind fun _ => blind_pure _
  | free name =>
    refine h.withObject fun o _ => (blind_setObjects (·.erase name)).bind fun _ => ?_
    exact (blind_onMachine (InstanceMemory.Trails.blind_free o)).bind fun _ => blind_pure _
  | read32 target offset =>
    exact h.ofObject (fun o ho => (blind_lift _).bind fun _ =>
      InstanceMemory.Trails.blind_readWord ho offset) _
  | write32 target offset value =>
    exact h.ofObject (fun o ho => (blind_lift _).bind fun _ =>
      InstanceMemory.Trails.blind_writeWord ho offset value) _
  | readWords target offset words =>
    exact h.ofObject (fun o ho => Action.blind_readWords
      (InstanceMemory.Trails.blind_readWord ho) offset words) _
  | writeWords target offset values =>
    exact h.ofObject (fun o ho => Action.blind_writeWords
      (InstanceMemory.Trails.blind_writeWord ho) offset values) _
  | fill target value =>
    exact h.ofObject (fun o ho => Action.blind_fill fun offset =>
      InstanceMemory.Trails.blind_writeWord ho offset value) _
  | scan target =>
    exact h.ofObject (fun o ho => Action.blind_readWords
      (InstanceMemory.Trails.blind_readWord ho) 0 o.words) _

/-- **Every command on the window comes to the same.** -/
theorem operateWindow (h : Trails session later) (command : WindowCommand) :
    Alike Tracks (operateWindow command session) (operateWindow command later) := by
  cases command with
  | invalidate name => exact h.ofController InstanceMemory.Trails.blind_invalidate _
  | tryInvalidate name => exact h.ofController InstanceMemory.Trails.blind_tryInvalidate _
  | read name address => exact h.ofController (InstanceMemory.Trails.blind_readWindowed address) _
  | write name address value =>
    exact h.ofController (InstanceMemory.Trails.blind_writeWindowed address value) _

/-- The status of the controller is the same, but for what it remembers of the window. -/
theorem exists_statusOf (h : Trails session later) : ∃ status last,
    statusOf session.machine 0 = status ∧
      statusOf later.machine 0 =
        { status with controller := { status.controller with window.cached := last } } := by
  obtain ⟨c, last, hdiffer⟩ := h.machine.exists_differ
  obtain ⟨-, t, lines, -, hveiled⟩ := h.machine
  have hspace : ∀ id, later.machine.space? id = session.machine.space? id :=
    veil_retallied.space?_eq ⟨t, lines, hveiled⟩
  refine ⟨_, last, rfl, ?_⟩
  have hspaceOf : later.machine.spaceOf 0 = session.machine.spaceOf 0 := by
    simp only [Machine.spaceOf, hdiffer.controller_first, hdiffer.controller_second]
    rfl
  simp only [statusOf, hdiffer.controller_first, hdiffer.controller_second, hspaceOf]
  congr 2
  exact funext hspace

/-- **No look tells one session from the other**, but for what the controller remembers. -/
theorem inspect (h : Trails session later) (inspection : Inspection) :
    (Turn.inspection inspection).shows (outcome (inspect inspection) later).1 =
      (Turn.inspection inspection).shows (outcome (inspect inspection) session).1 := by
  cases inspection with
  | object target =>
    exact congrArg _ (outcome_of_alike (h.withObject fun _ _ => blind_pure _)).1
  | objectText target =>
    exact congrArg _ (outcome_of_alike (h.withObject fun _ _ => blind_pure _)).1
  | controllerText name =>
    refine congrArg _ (outcome_of_alike (h.withController ?_)).1
    apply blind_get_bind
    intro session later h
    obtain ⟨c, last, hdiffer⟩ := h.machine.exists_differ
    rw [hdiffer.controller_first, hdiffer.controller_second]
    exact .ok _ h
  | windowText name =>
    rw [outcome, outcome, Session.inspect]
    cases hi : session.controllers.get? name with
    | none => rw [run_withController_of_none hi, run_withController_of_none (h.controllers ▸ hi)]
    | some i =>
      rw [run_withController_of_some hi, run_withController_of_some (h.controllers ▸ hi)]
      rfl
  | report name =>
    rw [outcome, outcome, Session.inspect]
    cases hi : session.controllers.get? name with
    | none => rw [run_withController_of_none hi, run_withController_of_none (h.controllers ▸ hi)]
    | some i =>
      obtain ⟨status, last, hstatus, hstatus'⟩ := h.exists_statusOf
      rw [run_withController_of_some hi, run_withController_of_some (h.controllers ▸ hi), h.index hi,
        run_get_bind, run_get_bind, reportOf, reportOf, hstatus, hstatus']
      dsimp only
      cases status.controller.layout.mapM (·.dynamicBytes) <;> rfl

end Trails

/-- **A command on the window keeps the accounts.** -/
theorem Booked.operateWindow (command : WindowCommand) : Keeps Booked (operateWindow command) := by
  have hinvalidate : ∀ i books, Keeps (Machine.books · = books) (Action.invalidate i : Action Device _) :=
    fun i _ => Action.books_onController fun _ => rfl
  cases command with
  | invalidate name => exact keeps_withController_of_books Booked.setMachine hinvalidate _
  | tryInvalidate name =>
    exact keeps_withController_of_books Booked.setMachine (fun i _ => Action.books_tryInvalidate i) _
  | read name address =>
    exact keeps_withController_of_books Booked.setMachine
      (fun i _ => Action.books_throughWindow i address Action.books_readRegister) _
  | write name address value =>
    exact keeps_withController_of_books Booked.setMachine
      (fun i _ => Action.books_throughWindow i address (Action.books_writeRegister · value)) _

/-- A look changes nothing. -/
theorem leaves_inspect (inspection : Inspection) (session : Session Device) :
    leaves (inspect inspection) session = session := by
  have hkeeps : Keeps (· = session) (inspect inspection) := by
    cases inspection with
    | object target => exact keeps_withObject fun _ _ h _ => h
    | objectText target => exact keeps_withObject fun _ _ h _ => h
    | controllerText name => exact keeps_withController fun _ _ h _ => h
    | windowText name => exact keeps_withController fun _ _ h _ => h
    | report name =>
      refine keeps_withController fun later i h _ => ?_
      rw [leaves, run_get_bind, ← leaves]
      exact Keeps.bind (P := (· = session)) (keeps_lift _) (fun _ => keeps_pure _) later h
  exact hkeeps session rfl

/-- What the device is told to refuse has nothing to do with the window. -/
theorem exists_change {probe : Simulator.Probe} (h : probe.setsFaults = true) :
    ∃ f : Device → Device,
      (∀ session, after session (.faults probe h) =
        { session with machine.hardware := f session.machine.hardware }) ∧
      (∀ d windowWrites, f { d with windowWrites } = { f d with windowWrites }) ∧
      ∀ d, (f d).window = d.window := by
  cases probe <;> simp only [Simulator.Probe.setsFaults, Bool.false_eq_true] at h
  case limitPages count h =>
    exact ⟨fun d => { d with memory := { d.memory with pageBudget := some count } },
      fun _ => rfl, fun _ _ => rfl, fun _ => rfl⟩
  case limitMappings count h =>
    exact ⟨fun d => { d with translation := d.translation.map ({ · with budget := some count }) },
      fun _ => rfl, fun _ _ => rfl, fun _ => rfl⟩
  case refuseBuffers refuse h =>
    exact ⟨fun d => { d with memory := { d.memory with refusesBuffers := refuse } },
      fun _ => rfl, fun _ _ => rfl, fun _ => rfl⟩
  case refuseBars refuse h =>
    exact ⟨fun d => { d with refusesBars := refuse }, fun _ => rfl, fun _ _ => rfl, fun _ => rfl⟩
  case clearFaults =>
    exact ⟨fun d => { d with
        memory := { d.memory with pageBudget := none, refusesBuffers := false }
        translation := d.translation.map ({ · with budget := none })
        refusesBars := false }, fun _ => rfl, fun _ _ => rfl, fun _ => rfl⟩

namespace Trails

/-- **Every turn but to build a controller shows the same**, and leaves sessions one of which trails
the other. -/
theorem turn (h : Trails session later) {t : Turn} (ht : t.builds = false) :
    t.shows (turn t later).1 = t.shows (turn t session).1 ∧
      Trails (turn t session).2 (turn t later).2 := by
  cases t with
  | move move =>
    have hbooked := Booked.after session move h.booked
    cases move with
    | operation operation =>
      obtain ⟨hanswer, htracks⟩ := outcome_of_alike (h.operate ht)
      exact ⟨congrArg _ hanswer, htracks, hbooked⟩
    | faults probe hfaults =>
      obtain ⟨f, hafter, hwrites, hwindow⟩ := exists_change hfaults
      refine ⟨rfl, ?_, hbooked⟩
      simp only [Session.turn, hafter]
      exact ⟨h.machine.setHardware hwrites hwindow, h.controllers, h.objects⟩
  | inspection inspection =>
    refine ⟨h.inspect inspection, ?_⟩
    simp only [Session.turn, Simulator.Session.outcome_snd, leaves_inspect]
    exact h
  | window command =>
    obtain ⟨hanswer, htracks⟩ := outcome_of_alike (h.operateWindow command)
    have hbooked := Booked.operateWindow command session h.booked
    rw [← Simulator.Session.outcome_snd] at hbooked
    exact ⟨congrArg _ hanswer, htracks, hbooked⟩

/-- **So does every run.** -/
theorem turns (h : Trails session later) {rest : List Turn} (hrest : ∀ t ∈ rest, t.builds = false) :
    (turns rest later).1 = (turns rest session).1 ∧
      Trails (turns rest session).2 (turns rest later).2 := by
  induction rest generalizing session later with
  | nil => exact ⟨rfl, h⟩
  | cons t rest ih =>
    obtain ⟨ht, hrest⟩ := List.forall_mem_cons.mp hrest
    obtain ⟨hanswer, hnext⟩ := h.turn ht
    obtain ⟨hanswers, hlast⟩ := ih hnext hrest
    exact ⟨congrArg₂ List.cons hanswer hanswers, hlast⟩

/-- What shows of sessions one of which trails the other. -/
theorem indistinct (h : Trails session later) {rest : List Turn}
    (hrest : ∀ t ∈ rest, t.builds = false) : Indistinct rest session later := by
  obtain ⟨hanswers, ⟨hmachine, hcontrollers, hobjects⟩, -⟩ := h.turns hrest
  refine ⟨hanswers, hcontrollers, hobjects, ?_, ?_⟩
  · obtain ⟨-, t, lines, -, hlapsed⟩ := hmachine
    rw [hlapsed]
    simp only [Machine.unwindowed, Machine.relined, Machine.retallied, List.map_map]
    rfl
  · obtain ⟨-, t, lines, hlapses, hlapsed⟩ := hmachine
    rw [hlapsed]
    exact hlapses.writes

end Trails

/-! ## The beginning -/

/-- A session on which nothing has been built. -/
structure Unbuilt (session : Session Device) : Prop where
  booked : Booked session
  idle : Idle session.machine

namespace Unbuilt

theorem start {config : Config} {journalOpen : Bool} {host : Simulator.Host}
    (h : Simulator.Session.start config journalOpen host = .ok session) : Unbuilt session := by
  have hbooked := Booked.start h
  obtain ⟨device, shared, -, rfl⟩ := Simulator.Session.start_eq_ok h
  exact ⟨hbooked, ⟨rfl, rfl⟩, rfl⟩

theorem run_arming (h : Unbuilt session) {arming : List Move}
    (harming : ∀ move ∈ arming, move.setsFaults = true) : Unbuilt (run arming session) := by
  induction arming generalizing session with
  | nil => exact h
  | cons move rest ih =>
    obtain ⟨hmove, hrest⟩ := List.forall_mem_cons.mp harming
    cases move with
    | operation operation => cases hmove
    | faults probe hfaults =>
      refine ih ⟨Booked.after session (.faults probe hfaults) h.booked, ?_⟩ hrest
      obtain ⟨f, hafter, -, -⟩ := exists_change hfaults
      rw [hafter]
      exact ⟨⟨h.idle.quiet.silent, h.idle.quiet.uninterrupted⟩, h.idle.controllers⟩

/-- **Once a controller is built, the session trails itself.** -/
theorem build (h : Unbuilt session)
    (hbuilt : (outcome (operate (.build gpu)) session).1 = .reply .nothing) :
    Trails (after session (.operation (.build gpu))) (after session (.operation (.build gpu))) := by
  have hbooked := Booked.after session (.operation (.build gpu)) h.booked
  obtain ⟨⟨count, hmachine, -⟩, -⟩ := h.booked
  have hidle := h.idle.build
  suffices hpoised : Poised (after session (.operation (.build gpu))).machine from
    ⟨⟨.refl hpoised, rfl, rfl⟩, hbooked⟩
  rw [Simulator.Session.after]
  unfold outcome at hbuilt ⊢
  rw [operate, run_get_bind] at hbuilt ⊢
  by_cases hused : (session.controllers.get? gpu).isSome = true
  · rw [if_pos hused] at hbuilt
    cases hbuilt
  · rw [if_neg hused] at hbuilt ⊢
    cases hact : (Action.build : Action Device _) session.machine with
    | error f m' =>
      rw [run_bind_of_error (onMachine_of_error hact)] at hbuilt
      cases hbuilt
    | ok answer m' =>
      rw [run_bind_of_ok (onMachine_of_ok hact)] at hbuilt ⊢
      cases answer with
      | error cause => cases hbuilt
      | ok i =>
        rw [leaves_of_ok hact] at hidle
        refine hidle.resolve_left fun hnone => ?_
        -- the controller that was built is there
        obtain ⟨hbuilt, -⟩ := InstanceMemory.Booked.build.of_ok hmachine hact
        have hcount := hbuilt.count_le
        rw [Machine.length_roster, hnone.controllers] at hcount
        exact absurd hcount (Nat.not_succ_le_zero i)

end Unbuilt

/-- **A controller that is ready can be suspended and resumed**, and this leaves a session that trails
the one before. -/
theorem Trails.suspend_resume (h : Trails session session)
    (hready : session.phase? gpu = some .initialized) :
    let asleep := Session.turn (.move (.operation (.suspend gpu))) session
    let awake := Session.turn (.move (.operation (.resume gpu))) asleep.2
    asleep.1 = .reply .nothing ∧ awake.1 = .reply .nothing ∧ Trails session awake.2 := by
  rw [phase?, Option.map_eq_some_iff] at hready
  obtain ⟨i, hi, hphase⟩ := hready
  obtain rfl := h.index hi
  obtain ⟨m₁, m₂, hsuspend, hresume, hmachine⟩ :=
    InstanceMemory.Trails.of_suspend_resume h.machine.poised hphase
  have hasleep : Session.turn (.move (.operation (.suspend gpu))) session =
      (.reply .nothing, { session with machine := m₁ }) :=
    outcome_withController hi hsuspend _
  have hawake : Session.turn (.move (.operation (.resume gpu))) { session with machine := m₁ } =
      (.reply .nothing, { session with machine := m₂ }) :=
    @outcome_withController _ _ { session with machine := m₁ } gpu 0 hi _ _ _ hresume _
  dsimp only
  rw [hasleep]
  dsimp only
  rw [hawake]
  exact ⟨rfl, rfl, ⟨hmachine, rfl, rfl⟩, h.booked⟩

/-- **Suspend and resume are transparent.** On every device, for its one controller and wherever it is
ready in a run, both succeed, and no run from there on tells that they took place. -/
theorem run_transparent {config : Config} {journalOpen : Bool} {host : Simulator.Host}
    (h : Simulator.Session.start config journalOpen host = .ok session) {arming : List Move}
    (harming : ∀ move ∈ arming, move.setsFaults = true)
    (hbuilt : (outcome (operate (.build gpu)) (run arming session)).1 = .reply .nothing)
    {before rest : List Turn} (hbefore : ∀ t ∈ before, t.builds = false)
    (hrest : ∀ t ∈ rest, t.builds = false) :
    let ready := (turns before (after (run arming session) (.operation (.build gpu)))).2
    let asleep := turn (.move (.operation (.suspend gpu))) ready
    let awake := turn (.move (.operation (.resume gpu))) asleep.2
    ready.phase? gpu = some .initialized →
      asleep.1 = .reply .nothing ∧ awake.1 = .reply .nothing ∧ Indistinct rest ready awake.2 := by
  intro ready asleep awake hready
  obtain ⟨-, hlone⟩ := (((Unbuilt.start h).run_arming harming).build hbuilt).turns hbefore
  obtain ⟨hasleep, hawake, htrails⟩ := hlone.suspend_resume hready
  exact ⟨hasleep, hawake, htrails.indistinct hrest⟩

/-- A window is selected before the suspension. After it a word of the same window is read, a request
is refused for want of pages, and the controller is suspended again. -/
theorem run_transparent_selected : ∃ session : Session Device,
    Simulator.Session.start { Config.systemMemory 0xea with iommuSpace := some 0x10000 } false =
        .ok session ∧
      let before : List Turn := [.move (.operation (.init "gpu")),
        .move (.operation (.allocate "gpu" "table" 0x2000 0 false)),
        .move (.operation (.write32 (.object "table") 0 1))]
      let rest : List Turn := [.move (.operation (.read32 (.object "table") 0)),
        .inspection (.report "gpu"), .move (.operation (.allocate "gpu" "heap" 0x9000 0 true)),
        .window (.read "gpu" 0), .move (.operation (.suspend "gpu"))]
      let built := after (run [.faults (.limitPages 8) rfl] session) (.operation (.build "gpu"))
      let ready := (turns before built).2
      let asleep := turn (.move (.operation (.suspend "gpu"))) ready
      let awake := turn (.move (.operation (.resume "gpu"))) asleep.2
      (outcome (operate (.build "gpu")) (run [.faults (.limitPages 8) rfl] session)).1 =
          .reply .nothing ∧
        ready.phase? "gpu" = some .initialized ∧
        asleep.1 = .reply .nothing ∧ awake.1 = .reply .nothing ∧ Indistinct rest ready awake.2 := by
  have hstart : Simulator.Session.start
      { Config.systemMemory 0xea with iommuSpace := some 0x10000 } false = .ok _ := rfl
  refine ⟨_, hstart, ?built, ?ready,
    run_transparent hstart (by decide) ?built (by decide) (by decide) ?ready⟩
  · decide +kernel
  · decide +kernel

end Session
end InstanceMemory
