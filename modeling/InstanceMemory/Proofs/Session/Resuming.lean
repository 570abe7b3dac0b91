import InstanceMemory.Proofs.Session.Shelf
import InstanceMemory.Proofs.Session.Windowed

/-!
# After a resume

A controller that is suspended forgets its window, as the device does not preserve it. A resume
forgets nothing more. Objects can be accessed while their controller is suspended, and what such an
access selects is remembered when the controller is resumed. So the first word that is accessed after
a resume selects its window, unless the last word that was accessed during the suspension was seen
through the same one (`Session.run_resumed`); without accesses during the suspension it always does.

`run_resumed_unselected` is a run in which the first word after a resume selects nothing.
-/

set_option autoImplicit false

namespace InstanceMemory

open Simulator (Config Device Move)
open Simulator.Session (after run)
open Session (outcome operate)

namespace Session

/-- The windows that the words of a move are seen through, one for each word. -/
def seenBy (session : Session Device) (move : Move) : List Nat := windowsOf (session.accessed? move)

/-- The windows that the words of a run are seen through. -/
def seen : List Move → Session Device → List Nat
  | [], _ => []
  | move :: rest, session => session.seenBy move ++ seen rest (after session move)

/-- The move suspends a controller. -/
def suspends (session : Session Device) : Move → Bool
  | .operation (.suspend name) => (outcome (operate (.suspend name)) session).1 = .reply .nothing
  | _ => false

/-- The tally of the first controller. -/
def tally (session : Session Device) : Tally := session.machine.tally 0

/-- The phase of the first controller. -/
def phase (session : Session Device) : Phase := (session.machine.controller 0).phase

end Session

namespace Tally

/-- What becomes of the tally of the only controller in a move. -/
def after (t : Tally) (session : Session Device) (move : Move) : Tally :=
  if session.suspends move then t.forget else t.sees (session.seenBy move)

/-- What becomes of it in a run. -/
def run : List Move → Session Device → Tally → Tally
  | [], _, t => t
  | move :: rest, session, t => run rest (Simulator.Session.after session move) (t.after session move)

end Tally

namespace Session

variable {session later : Session Device} {size : Nat} {target : Target} {o : InstanceObject}
  {name : String} {move : Move} {moves : List Move} {α : Type}

theorem seen_append (moves others : List Move) (session : Session Device) :
    seen (moves ++ others) session = seen moves session ++ seen others (run moves session) := by
  induction moves generalizing session with
  | nil => rfl
  | cons move rest ih =>
    rw [List.cons_append, seen, seen, ih, List.append_assoc]
    rfl

/-- A session on a device without dedicated memory with one controller at most. -/
structure Lone (size : Nat) (session : Session Device) : Prop where
  booked : Booked session
  windowed : Windowed size session.machine
  length : session.machine.controllers.length ≤ 1

/-- What a move does to the controller: the tally changes as it should, and only a suspension suspends
it. -/
structure Steps (session : Session Device) (move : Move) (later : Session Device) : Prop where
  length : later.machine.controllers.length = session.machine.controllers.length
  tally : later.tally = session.tally.after session move
  phase : later.phase = .suspended → session.suspends move = true ∨ session.phase = .suspended

/-- What only sees words is no suspension. -/
theorem Steps.of_sees (hsuspends : session.suspends move = false)
    (h : Sees 0 (session.seenBy move) session.machine later.machine) : Steps session move later := by
  refine ⟨h.length, ?_, fun hsuspended => .inr (h.phase.symm.trans hsuspended)⟩
  rw [Tally.after, hsuspends]
  exact h.tally

namespace Lone

/-- What has a name is the only controller. -/
theorem index (h : Lone size session) {i : Nat} (hi : session.controllers.get? name = some i) :
    i = 0 ∧ 0 < session.machine.controllers.length := by
  have hlt := h.booked.index_lt hi
  have hlength := h.length
  rw [Machine.length_roster] at hlt
  omega

/-- What a target stands for is visible, and an object of the only controller. -/
theorem visible (h : Lone size session) (ho : session.resolve? target = some o) :
    Visible o session.machine ∧ o.owner = 0 := by
  have hvisible := h.booked.accounts.visible h.windowed.quiet h.windowed.strategy_ne_heap
    (live_of_resolve? ho)
  have howner := hvisible.owner
  have hlength := h.length
  exact ⟨hvisible, by omega⟩

/-! ## Accesses and requests -/

theorem withObject (h : Lone size session) {act : InstanceObject → Action Device α}
    (reply : α → Outcome Reply) {access? : InstanceObject → Option Access}
    (hact : ∀ o, Visible o session.machine →
      Sees o.owner (windowsOf (access? o)) session.machine (leaves (act o) session.machine)) :
    Sees 0 (windowsOf ((session.resolve? target).bind access?)) session.machine (leaves
      (Session.withObject target fun o => onMachine (act o) >>= fun a => pure (reply a))
        session).machine := by
  cases ho : session.resolve? target with
  | none =>
    rw [leaves_of_ok (run_withObject_of_none ho _)]
    exact .of_store rfl
  | some o =>
    obtain ⟨hvisible, howner⟩ := h.visible ho
    rw [leaves_withObject ho, ← howner]
    exact hact o hvisible

/-- A request sees the words of its object if it zeroes them. -/
theorem allocate (h : Lone size session) (controller name : String) (bytes align : Nat)
    (zeroed : Bool) :
    Sees 0 (session.seenBy (.operation (.allocate controller name bytes align zeroed)))
      session.machine (request controller name bytes align zeroed session).2.machine := by
  have haccess : session.accessed? (.operation (.allocate controller name bytes align zeroed)) =
      if zeroed then
        (request controller name bytes align false session).1.object?.map (·.wholly)
      else none := by
    cases zeroed <;> rfl
  rw [seenBy, haccess, request, request, outcome_allocate, outcome_allocate]
  cases hi : session.controllers.get? controller with
  | none => cases zeroed <;> exact .of_store rfl
  | some i =>
    obtain ⟨rfl, hpos⟩ := h.index hi
    dsimp only
    by_cases hused : (session.objects.get? name).isSome = true
    · rw [if_pos hused, if_pos hused]
      cases zeroed <;> exact .of_store rfl
    · rw [if_neg hused, if_neg hused]
      have hroster : 0 < session.machine.roster.length := by
        rwa [Machine.length_roster]
      -- what is zeroed is told by the request that zeroes nothing
      obtain ⟨answer, hanswer⟩ := h.booked.accounts.allocate_sees h.windowed.quiet
        h.windowed.strategy_ne_heap hroster bytes align
      obtain ⟨m₁, hplain, -⟩ := hanswer false
      obtain ⟨m', hact, hsees⟩ := hanswer zeroed
      rw [hplain, hact]
      cases answer <;> exact hsees

/-! ## Phases -/

/-- A request for another phase that is refused, or leaves the controller ready, changes neither the
tally nor the books. -/
theorem wake (h : Lone size session) {act : Nat → Action Device α} (reply : α → Outcome Reply)
    (hsuspends : session.suspends move = false) (hseen : session.accessed? move = none)
    (hact : ∀ i, leaves (act i) session.machine = session.machine ∨
      ∃ journal, leaves (act i) session.machine =
        { session.machine.mapController i fun _ =>
            { session.machine.controller i with phase := .initialized } with
          journal }) :
    Steps session move (leaves
      (withController name fun i => onMachine (act i) >>= fun a => pure (reply a)) session) := by
  have hsame : Steps session move session := by
    refine .of_sees hsuspends ?_
    rw [seenBy, hseen]
    exact .of_store rfl
  cases hi : session.controllers.get? name with
  | none =>
    rw [leaves_of_ok (run_withController_of_none hi _)]
    exact hsame
  | some i =>
    obtain ⟨rfl, hpos⟩ := h.index hi
    rw [leaves_withController hi]
    rcases hact 0 with hleaves | ⟨journal, hleaves⟩ <;> rw [hleaves]
    · exact hsame
    · have hcontroller := (Machine.controller_mapController hpos 0 fun _ =>
        { session.machine.controller 0 with phase := .initialized }).trans (if_pos rfl)
      have htally := congrArg (fun c : Controller =>
        Tally.mk c.window.cached session.machine.hardware.windowWrites) hcontroller
      refine ⟨List.length_modify _ _ _, ?_, ?_⟩
      · rw [Tally.after, hsuspends, seenBy, hseen]
        exact htally
      · intro hsuspended
        cases (congrArg (·.phase) hcontroller).symm.trans hsuspended

theorem suspend (h : Lone size session) (name : String) :
    Steps session (.operation (.suspend name)) (leaves (operate (.suspend name)) session) := by
  have hrefused : (outcome (operate (.suspend name)) session).1 ≠ .reply .nothing →
      leaves (operate (.suspend name)) session = session →
      Steps session (.operation (.suspend name)) (leaves (operate (.suspend name)) session) := by
    intro hrefused hleaves
    rw [hleaves]
    exact .of_sees (decide_eq_false hrefused) (.of_store rfl)
  cases hi : session.controllers.get? name with
  | none =>
    have hrun : operate (.suspend name) session = _ := run_withController_of_none hi _
    refine hrefused ?_ (leaves_of_ok hrun)
    rw [outcome, hrun]
    intro hreply
    cases hreply
  | some i =>
    obtain ⟨rfl, hpos⟩ := h.index hi
    have hrun : operate (.suspend name) session = _ := run_withController_of_some hi _
    rcases Action.suspend_cases 0 session.machine with ⟨cause, hact⟩ | ⟨-, journal, hact⟩
    · rw [run_bind_of_ok (onMachine_of_ok hact)] at hrun
      refine hrefused ?_ (leaves_of_ok hrun)
      rw [outcome, hrun]
      intro hreply
      cases hreply
    · rw [run_bind_of_ok (onMachine_of_ok hact)] at hrun
      have hsuspends : session.suspends (.operation (.suspend name)) = true := by
        apply decide_eq_true
        rw [outcome, hrun]
        rfl
      have hcontroller := (Machine.controller_mapController hpos 0 fun _ =>
        { session.machine.controller 0 with phase := .suspended, window.cached := none }).trans
          (if_pos rfl)
      have htally := congrArg (fun c : Controller =>
        Tally.mk c.window.cached session.machine.hardware.windowWrites) hcontroller
      rw [leaves_of_ok hrun]
      refine ⟨List.length_modify _ _ _, ?_, fun _ => .inl hsuspends⟩
      rw [Tally.after, hsuspends]
      exact htally

/-- Only a suspended controller is resumed. -/
theorem phase_of_resume (h : Lone size session)
    (hresume : (outcome (operate (.resume name)) session).1 = .reply .nothing) :
    session.phase = .suspended := by
  cases hi : session.controllers.get? name with
  | none =>
    have hrun : operate (.resume name) session = _ := run_withController_of_none hi _
    rw [outcome, hrun] at hresume
    cases hresume
  | some i =>
    obtain ⟨rfl, -⟩ := h.index hi
    have hrun : operate (.resume name) session = _ := run_withController_of_some hi _
    rcases Action.resume_cases 0 session.machine with ⟨-, cause, hact⟩ | ⟨hphase, -⟩
    · rw [run_bind_of_ok (onMachine_of_ok hact)] at hrun
      rw [outcome, hrun] at hresume
      cases hresume
    · exact hphase

/-! ## Every move -/

/-- **Every move does to the tally what it should**, and only a suspension suspends the controller. -/
theorem steps (h : Lone size session) (hmove : move.keepsControllers = true) :
    Steps session move (after session move) := by
  cases move with
  | faults probe hfaults =>
    obtain ⟨d, ⟨pageBudget, refusesBuffers, f, refusesBars, rfl⟩, hleaves⟩ :=
      Simulator.Session.probe_setsFaults hfaults session
    rw [Simulator.Session.after, Simulator.Session.outcome_snd, hleaves]
    exact .of_sees rfl ⟨rfl, rfl, rfl⟩
  | operation operation =>
    rw [Simulator.Session.after, Simulator.Session.outcome_snd]
    cases operation with
    | build name => cases hmove
    | destroy name => cases hmove
    | init name =>
      refine h.wake _ rfl rfl fun i => ?_
      rcases Action.init_cases i session.machine with ⟨-, cause, hact⟩ | ⟨-, journal, hact⟩
      · exact .inl (leaves_of_ok hact)
      · exact .inr ⟨journal, leaves_of_ok hact⟩
    | suspend name => exact h.suspend name
    | resume name =>
      refine h.wake _ rfl rfl fun i => ?_
      rcases Action.resume_cases i session.machine with ⟨-, cause, hact⟩ | ⟨-, journal, hact⟩
      · exact .inl (leaves_of_ok hact)
      · exact .inr ⟨journal, leaves_of_ok hact⟩
    | allocate controller name bytes align zeroed =>
      rw [← Simulator.Session.outcome_snd]
      exact .of_sees rfl (h.allocate controller name bytes align zeroed)
    | free name =>
      obtain ⟨m', hleaves, hstore, -⟩ := exists_leaves_free h.booked name
      rw [hleaves]
      exact .of_sees rfl (.of_store hstore)
    | read32 target offset =>
      exact .of_sees rfl (h.withObject _ fun o ho => ho.leaves_read32 offset)
    | write32 target offset value =>
      exact .of_sees rfl (h.withObject _ fun o ho => ho.leaves_write32 offset value)
    | readWords target offset words =>
      exact .of_sees rfl (h.withObject _ fun o ho => ho.leaves_readWords offset words)
    | writeWords target offset values =>
      exact .of_sees rfl (h.withObject _ fun o ho => ho.leaves_writeWords offset values)
    | fill target value =>
      refine .of_sees rfl ?_
      rw [seenBy, accessed?, Option.map_eq_bind]
      exact h.withObject _ fun o ho => ho.leaves_fill value
    | scan target =>
      refine .of_sees rfl ?_
      rw [seenBy, accessed?, Option.map_eq_bind]
      exact h.withObject _ fun o ho => ho.leaves_scan

theorem after (h : Lone size session) (hmove : move.keepsControllers = true) :
    Lone size (Simulator.Session.after session move) :=
  ⟨h.booked.after session move, windowed_after session move h.windowed,
    (h.steps hmove).length ▸ h.length⟩

/-- **Every run does to the tally what its moves should.** -/
theorem run (h : Lone size session) (hmoves : ∀ move ∈ moves, move.keepsControllers = true) :
    Lone size (Simulator.Session.run moves session) ∧
      (Simulator.Session.run moves session).tally = Tally.run moves session session.tally := by
  induction moves generalizing session with
  | nil => exact ⟨h, rfl⟩
  | cons move rest ih =>
    obtain ⟨hmove, hrest⟩ := List.forall_mem_cons.mp hmoves
    rw [Tally.run, ← (h.steps hmove).tally]
    exact ih (h.after hmove) hrest

/-! ## The beginning -/

/-- A controller is built or not, and is not suspended. -/
theorem build (h : Lone size session) (hnone : session.machine.controllers = []) (gpu : String) :
    Lone size (Simulator.Session.after session (.operation (.build gpu))) ∧
      (Simulator.Session.after session (.operation (.build gpu))).phase ≠ .suspended := by
  have hbooked := h.booked.after session (.operation (.build gpu))
  have hwindowed := windowed_after session (.operation (.build gpu)) h.windowed
  have hphase : session.phase ≠ .suspended := by
    rw [phase, Machine.controller, hnone]
    exact Phase.noConfusion
  rw [Simulator.Session.after, Simulator.Session.outcome_snd, operate, leaves, run_get_bind,
    ← leaves] at hbooked hwindowed ⊢
  by_cases hused : (session.controllers.get? gpu).isSome = true
  · rw [if_pos hused]
    exact ⟨h, hphase⟩
  · rw [if_neg hused] at hbooked hwindowed ⊢
    rcases Action.build_cases (m := session.machine) h.windowed.memory with
      ⟨cause, hact⟩ | ⟨c, journal, hconstructed, -, -, hact⟩ <;>
      rw [leaves, run_bind_of_ok (onMachine_of_ok hact), ← leaves] at hbooked hwindowed ⊢
    · exact ⟨h, hphase⟩
    · rw [hnone] at hbooked hwindowed ⊢
      refine ⟨⟨hbooked, hwindowed, Nat.le_refl 1⟩, ?_⟩
      have hbuilt : c.phase ≠ .suspended := hconstructed.trans_ne Phase.noConfusion
      exact hbuilt

/-- A session starts without controllers. -/
theorem start {config : Config} {journalOpen : Bool} {host : Simulator.Host}
    (h : Simulator.Session.start config journalOpen host = .ok session)
    (hmemory : config.hasVram = false) :
    Lone config.systemMemorySize session ∧ session.machine.controllers = [] := by
  have hbooked := Booked.start h
  have hwindowed := windowed_start h hmemory
  obtain ⟨device, shared, -, rfl⟩ := Simulator.Session.start_eq_ok h
  exact ⟨⟨hbooked, hwindowed, Nat.zero_le 1⟩, rfl⟩

theorem run_arming {arming : List Move} (h : Lone size session)
    (hnone : session.machine.controllers = [])
    (harming : ∀ move ∈ arming, move.setsFaults = true) :
    Lone size (Simulator.Session.run arming session) ∧
      (Simulator.Session.run arming session).machine.controllers = [] := by
  induction arming generalizing session with
  | nil => exact ⟨h, hnone⟩
  | cons move rest ih =>
    obtain ⟨hmove, hrest⟩ := List.forall_mem_cons.mp harming
    cases move with
    | operation operation => cases hmove
    | faults probe hfaults =>
      have hlength : (Simulator.Session.after session (.faults probe hfaults)).machine.controllers =
          [] := by
        rw [← List.length_eq_zero_iff, (h.steps rfl).length, hnone]
        rfl
      exact ih (h.after rfl) hlength hrest

/-! ## The last suspension -/

end Lone

/-- A run comes to a suspension of the controller, which is suspended from then on. -/
structure Asleep (session : Session Device) (before : List Move) (suspension : Move)
    (asleep : List Move) : Prop where
  granted : (run before session).suspends suspension = true
  suspended : ∀ moves, moves <+: asleep →
    (run moves (after (run before session) suspension)).phase = .suspended

theorem run_concat (moves : List Move) (move : Move) (session : Session Device) :
    run (moves ++ [move]) session = after (run moves session) move := by
  rw [run, List.foldl_append]
  rfl

/-- **A suspended controller remembers the window of the word that was accessed last since it was
suspended**, and nothing if none was. -/
theorem exists_asleep (h : Lone size session) (hphase : session.phase ≠ .suspended)
    (hmoves : ∀ move ∈ moves, move.keepsControllers = true)
    (hsuspended : (run moves session).phase = .suspended) :
    ∃ before suspension asleep, moves = before ++ suspension :: asleep ∧
      Asleep session before suspension asleep ∧ (run moves session).tally.last =
        (seen asleep (after (run before session) suspension)).getLast? := by
  -- the last move is the suspension, or the controller was suspended before it already
  induction moves using List.reverseRecOn with
  | nil => exact absurd hsuspended hphase
  | append_singleton moves move ih =>
    obtain ⟨hbefore, hmove⟩ := List.forall_mem_append.mp hmoves
    obtain ⟨hlone, -⟩ := h.run hbefore
    have hsteps := hlone.steps (hmove move List.mem_cons_self)
    rw [run_concat] at hsuspended ⊢
    by_cases hsuspends : (run moves session).suspends move = true
    · refine ⟨moves, move, [], rfl, ⟨hsuspends, ?_⟩, ?_⟩
      · intro part hpart
        rw [List.prefix_nil.mp hpart]
        exact hsuspended
      · rw [hsteps.tally, Tally.after, if_pos hsuspends]
        rfl
    · obtain ⟨before, suspension, asleep, rfl, ⟨hgranted, hasleep⟩, hlast⟩ :=
        ih hbefore ((hsteps.phase hsuspended).resolve_left hsuspends)
      have hslept : run (before ++ suspension :: asleep) session =
          run asleep (after (run before session) suspension) := List.foldl_append
      refine ⟨before, suspension, asleep ++ [move], List.append_assoc _ _ _, ⟨hgranted, ?_⟩, ?_⟩
      · intro part hpart
        rcases List.prefix_concat_iff.mp hpart with rfl | hpart
        · rw [run_concat, ← hslept]
          exact hsuspended
        · exact hasleep part hpart
      · rw [hsteps.tally, Tally.after, if_neg hsuspends, Tally.last_sees, hlast, seen_append,
          ← hslept, List.getLast?_append, seen, seen, List.append_nil]

/-! ## What is remembered -/

/-- A controller goes on as if a window had been selected last, or none. -/
structure Remembers (last : Option Nat) (session : Session Device) : Prop where
  /-- Until the controller is suspended again, the first word that is accessed selects its window,
  unless it is the one remembered. -/
  first : ∀ idle move base rest, (∀ move ∈ idle, move.keepsControllers = true) →
    (∀ move ∈ idle, ∀ name, move ≠ .operation (.suspend name)) → seen idle session = [] →
    move.keepsControllers = true → (run idle session).seenBy move = base :: rest →
      (after (run idle session) move).tally = Tally.sees
        ⟨some base, session.machine.hardware.windowWrites + if last = some base then 0 else 1⟩ rest
  /-- Whatever is done from there on does to the tally what it does to that of a controller that has
  selected this window. -/
  run : ∀ moves, (∀ move ∈ moves, move.keepsControllers = true) →
    (run moves session).tally =
      Tally.run moves session ⟨last, session.machine.hardware.windowWrites⟩

/-- Moves that access nothing and suspend nothing leave the tally alone. -/
theorem tally_run_of_seen_eq_nil {idle : List Move} (hawake : ∀ move ∈ idle, ∀ name,
    move ≠ .operation (.suspend name)) (hseen : seen idle session = []) (t : Tally) :
    Tally.run idle session t = t := by
  induction idle generalizing session with
  | nil => rfl
  | cons move rest ih =>
    obtain ⟨hmove, hrest⟩ := List.forall_mem_cons.mp hawake
    obtain ⟨hnone, hnothing⟩ := List.append_eq_nil_iff.mp hseen
    have hsuspends : session.suspends move = false := by
      unfold suspends
      split
      · exact absurd rfl (hmove _)
      · rfl
    have hafter : t.after session move = t := by
      rw [Tally.after, hsuspends, hnone]
      rfl
    rw [Tally.run, hafter, ih hrest hnothing]

/-- A suspension accesses nothing. -/
theorem seenBy_of_suspends (h : session.suspends move = true) : session.seenBy move = [] := by
  unfold suspends at h
  split at h
  · rfl
  · cases h

namespace Lone

/-- **The tally tells what a controller remembers.** -/
theorem remembers (h : Lone size session) : Remembers session.tally.last session where
  run moves hmoves := (h.run hmoves).2
  first idle move base rest hidle hawake hseen hmove hbase := by
    obtain ⟨hlone, htally⟩ := h.run hidle
    rw [tally_run_of_seen_eq_nil hawake hseen] at htally
    have hsuspends : ¬ (Simulator.Session.run idle session).suspends move = true := by
      intro hsuspends
      rw [seenBy_of_suspends hsuspends] at hbase
      cases hbase
    have hsees : session.tally.sees (base :: rest) = (session.tally.see base).sees rest := rfl
    rw [(hlone.steps hmove).tally, htally, Tally.after, if_neg hsuspends, hbase, hsees, Tally.see_eq]
    rfl

end Lone

/-- **A resume forgets nothing.** On every device without dedicated memory, and in every run of its
one controller, a resume comes after a suspension, and the controller goes on as if the window of the
word that was accessed last between the two were still selected. If none was accessed there, the
first word after the resume selects its window. -/
theorem run_resumed {config : Config} {journalOpen : Bool} {host : Simulator.Host}
    (h : Simulator.Session.start config journalOpen host = .ok session) (hmemory : config.hasVram = false)
    {arming moves : List Move} (harming : ∀ move ∈ arming, move.setsFaults = true) (gpu : String)
    (hmoves : ∀ move ∈ moves, move.keepsControllers = true) :
    let built := after (run arming session) (.operation (.build gpu))
    (outcome (operate (.resume gpu)) (run moves built)).1 = .reply .nothing →
      ∃ before suspension asleep, moves = before ++ suspension :: asleep ∧
        Asleep built before suspension asleep ∧
        Remembers (seen asleep (after (run before built) suspension)).getLast?
          (after (run moves built) (.operation (.resume gpu))) := by
  intro built hresume
  obtain ⟨hstarted, hnone⟩ := Lone.start h hmemory
  obtain ⟨harmed, hnone⟩ := hstarted.run_arming hnone harming
  obtain ⟨hbuilt, hphase⟩ := harmed.build hnone gpu
  obtain ⟨hlone, -⟩ := hbuilt.run hmoves
  obtain ⟨before, suspension, asleep, hsplit, hasleep, hlast⟩ :=
    exists_asleep hbuilt hphase hmoves (hlone.phase_of_resume hresume)
  have hresumed : Lone config.systemMemorySize
      (after (run moves built) (.operation (.resume gpu))) := hlone.after rfl
  have htally : (after (run moves built) (.operation (.resume gpu))).tally = (run moves built).tally :=
    (hlone.steps rfl).tally
  refine ⟨before, suspension, asleep, hsplit, hasleep, ?_⟩
  rw [← hlast, ← htally]
  exact hresumed.remembers

/-- Words are accessed while the controller is suspended. -/
theorem run_resumed_accessed : ∃ session : Session Device,
    Simulator.Session.start { Config.systemMemory 0xea with iommuSpace := some 0x10000 } false =
        .ok session ∧
      let moves : List Move := [.operation (.allocate "gpu" "table" 0x2000 0 false),
        .operation (.init "gpu"), .operation (.suspend "gpu"),
        .operation (.write32 (.object "table") 0x1000 1), .operation (.read32 (.object "table") 0)]
      let built := after (run [.faults (.limitPages 8) rfl] session) (.operation (.build "gpu"))
      (outcome (operate (.resume "gpu")) (run moves built)).1 = .reply .nothing ∧
        ∃ before suspension asleep, moves = before ++ suspension :: asleep ∧
          Asleep built before suspension asleep ∧
          Remembers (seen asleep (after (run before built) suspension)).getLast?
            (after (run moves built) (.operation (.resume "gpu"))) := by
  have hstart : Simulator.Session.start
      { Config.systemMemory 0xea with iommuSpace := some 0x10000 } false = .ok _ := rfl
  refine ⟨_, hstart, ?resumed, run_resumed hstart rfl (by decide) "gpu" (by decide) ?resumed⟩
  decide +kernel

/-- An object is read while its controller is suspended. The first word that is read after the resume
selects no window. -/
theorem run_resumed_unselected : ∃ session : Session Device,
    Simulator.Session.start (Config.systemMemory 0xea) false = .ok session ∧
      let asleep := run [.operation (.build "gpu"),
        .operation (.allocate "gpu" "table" 0x1000 0 false), .operation (.init "gpu"),
        .operation (.suspend "gpu"), .operation (.read32 (.object "table") 0)] session
      let resumed := after asleep (.operation (.resume "gpu"))
      (outcome (operate (.resume "gpu")) asleep).1 = .reply .nothing ∧
        (outcome (operate (.read32 (.object "table") 0)) resumed).1 = .reply (.word 0) ∧
        (after resumed (.operation (.read32 (.object "table") 0))).machine.hardware.windowWrites =
          resumed.machine.hardware.windowWrites := by
  have hstart : Simulator.Session.start (Config.systemMemory 0xea) false = .ok _ := rfl
  exact ⟨_, hstart, by decide +kernel⟩

end Session
end InstanceMemory
