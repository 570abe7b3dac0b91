import InstanceMemory.Proofs.Machine.Frugal
import InstanceMemory.Proofs.Machine.Turnover
import InstanceMemory.Proofs.Machine.Windowed
import InstanceMemory.Proofs.Session.Runs
import InstanceMemory.Scripted.Session

/-!
# Every loan is given back once

**Whatever a platform answers, everything that a session takes of it is given back exactly once**,
and not before its object is freed (`Session.run_linear`). The trace is the witness: between
operations what was taken and not given back is what the live objects hold, no more and no less, so
a request that fails leaves nothing behind and a freed object gives back all it took. At every moment
in between no loan of an object that outlives the operation is missing, and a request that is granted
gives nothing back on the way. If the platform hands out no page that is still out, then at every
moment every mapping lies in a reserved range and leads to a page that has not been given back.

The session has one controller, built on a device without dedicated memory. A run may do anything but
build another one, for which the platform could name another device.

`Solvent` is what holds between operations, and `Turned` says what one operation may do to a
session.
-/

set_option autoImplicit false

namespace InstanceMemory

/-- The operation builds a controller. -/
def Operation.builds : Operation → Bool
  | .build _ => true
  | _ => false

/-- What an object has on loan. -/
def InstanceObject.loans (o : InstanceObject) : List Loan := o.items.map Item.loan

namespace Session

variable {π : Type}

/-- The calls of a session so far. -/
def calls (session : Session π) : List Call := session.machine.trace.calls.toList

/-- What some objects have on loan. -/
def loansOf (objects : Directory InstanceObject) : List Loan := objects.values.flatMap (·.loans)

/-- What some objects hold. -/
def itemsOf (objects : Directory InstanceObject) : List Item := objects.values.flatMap (·.items)

/-- The session after some operations in turn, whatever comes of each. -/
def runAll [Platform π] (operations : List Operation) (session : Session π) : Session π :=
  operations.foldl (fun session operation => (outcome (operate operation) session).2) session

/-- Between operations a session owes what its objects hold and nothing else. -/
structure Solvent (session : Session π) : Prop where
  named : (session.objects.map Prod.fst).Nodup
  fitted : ∀ entry ∈ session.objects, entry.2.Fitted
  numbered : ∀ entry ∈ session.controllers, entry.2 = 0
  owing : Owing session.calls (itemsOf session.objects) [] session.machine

/-- An operation has led from one session to another, and all the while nothing was missing of what
the objects hold that are there before and after. -/
structure Turned (before after : Session π) : Prop where
  solvent : Solvent after
  began : before.calls <+: after.calls
  held : ∀ moment, before.calls <+: moment → moment <+: after.calls → ∀ loan, given moment loan +
    (loansOf (before.objects.filter (· ∈ after.objects))).count loan ≤ taken moment loan

variable {session : Session π} {m : Machine π} {objects : Directory InstanceObject}
  {kept own : List Item} {name : String}

theorem map_itemsOf (objects : Directory InstanceObject) :
    (itemsOf objects).map Item.loan = loansOf objects := List.map_flatMap

/-- What fitted objects hold rests on what they hold. -/
theorem backed_itemsOf (h : ∀ entry ∈ objects, entry.2.Fitted) : Item.Backed (itemsOf objects) := by
  induction objects with
  | nil => exact Item.backed_of_slots_eq_nil rfl
  | cons entry rest ih =>
    obtain ⟨hfirst, hrest⟩ := List.forall_mem_cons.mp h
    exact hfirst.backed.append (ih hrest)

theorem itemsOf_perm {others : Directory InstanceObject} (h : objects.Perm others) :
    (itemsOf objects).Perm (itemsOf others) := (h.map _).flatMap_right _

/-! ## One operation -/

/-- What an operation comes to, if it has items of its own and leaves others alone. -/
theorem Turned.of_owing {after : Session π} (h : Owing session.calls kept own after.machine)
    (hnamed : (after.objects.map Prod.fst).Nodup)
    (hfitted : ∀ entry ∈ after.objects, entry.2.Fitted)
    (hnumbered : ∀ entry ∈ after.controllers, entry.2 = 0)
    (hitems : (own ++ kept).Perm (itemsOf after.objects))
    (hkept : (itemsOf (session.objects.filter (· ∈ after.objects))).Perm kept) :
    Turned session after where
  solvent := ⟨hnamed, hfitted, hnumbered, h.restart hitems (backed_itemsOf hfitted)⟩
  began := h.ledger.began
  held moment hbegan hmoment loan := by
    rw [← map_itemsOf, (hkept.map Item.loan).count_eq]
    exact h.ledger.held moment hbegan hmoment loan

/-- What an operation comes to that neither makes nor frees an object. -/
theorem Solvent.turned {controllers : Directory Nat} (h : Solvent session)
    (hm : Owing session.calls (itemsOf session.objects) [] m)
    (hcontrollers : ∀ entry ∈ controllers, entry ∈ session.controllers) :
    Turned session ⟨m, controllers, session.objects⟩ := by
  have hsame : session.objects.filter (· ∈ session.objects) = session.objects :=
    List.filter_eq_self.mpr fun entry hentry => decide_eq_true hentry
  have hnumbered : ∀ entry ∈ controllers, entry.2 = 0 := fun entry hentry =>
    h.numbered entry (hcontrollers entry hentry)
  refine .of_owing hm h.named h.fitted hnumbered (List.Perm.refl _) ?_
  show (itemsOf (session.objects.filter (· ∈ session.objects))).Perm _
  rw [hsame]

section

variable (h : Solvent session)

include h

/-- What a controller does that neither takes nor gives back. -/
theorem Solvent.turned_withController {α : Type} {act : Nat → Action π α}
    (hact : ∀ i, Keeps (Owing session.calls (itemsOf session.objects) []) (act i))
    (reply : α → Outcome Reply) :
    Turned session (leaves
      (withController name fun i => onMachine (act i) >>= fun a => pure (reply a)) session) := by
  cases hi : session.controllers.get? name with
  | none =>
    rw [leaves, run_withController_of_none hi]
    exact h.turned h.owing fun _ hentry => hentry
  | some i =>
    rw [leaves_withController hi]
    exact h.turned (hact i _ h.owing) fun _ hentry => hentry

/-- An access that neither takes nor gives back. -/
theorem Solvent.turned_withObject {α : Type} {target : Target} {act : InstanceObject → Action π α}
    (hact : ∀ o, Keeps (Owing session.calls (itemsOf session.objects) []) (act o))
    (reply : α → Outcome Reply) :
    Turned session (leaves
      (withObject target fun o => onMachine (act o) >>= fun a => pure (reply a)) session) := by
  cases ho : session.resolve? target with
  | none =>
    rw [leaves, run_withObject_of_none ho]
    exact h.turned h.owing fun _ hentry => hentry
  | some o =>
    rw [leaves_withObject ho]
    exact h.turned (hact o _ h.owing) fun _ hentry => hentry

variable [Platform π]

/-- A destroyed controller leaves the objects alone. -/
theorem Solvent.turned_destroy : Turned session (leaves (operate (.destroy name)) session) := by
  rw [operate]
  cases hi : session.controllers.get? name with
  | none =>
    rw [leaves, run_withController_of_none hi]
    exact h.turned h.owing fun _ hentry => hentry
  | some i =>
    rw [leaves, run_withController_of_some hi, run_modify_bind, ← leaves,
      leaves_onMachine_bind_pure]
    exact h.turned (Owing.keeps_teardown i _ h.owing)
      fun _ hentry => (Directory.erase_sublist name _).subset hentry

/-- **A freed object gives back what it holds.** -/
theorem Solvent.turned_free (hback : TakesBack π) :
    Turned session (leaves (operate (.free name)) session) := by
  rw [operate]
  cases ho : session.resolve? (.object name) with
  | none =>
    rw [leaves, run_withObject_of_none ho]
    exact h.turned h.owing fun _ hentry => hentry
  | some object =>
    have hmem : (name, object) ∈ session.objects := Directory.mem_of_get? ho
    have hperm := Directory.perm_erase h.named hmem
    have hrest := Directory.erase_sublist name session.objects
    have hfitted : ∀ entry ∈ Directory.erase name session.objects, entry.2.Fitted :=
      fun entry hentry => h.fitted entry (hrest.subset hentry)
    have howing : Owing session.calls (itemsOf (Directory.erase name session.objects)) object.items
        session.machine := h.owing.restart (itemsOf_perm hperm) (backed_itemsOf hfitted)
    have hfree := (howing.free hback (h.fitted _ hmem)).leaves
    rw [leaves, run_withObject_of_some ho, run_modify_bind, ← leaves, leaves_onMachine_bind_pure]
    refine .of_owing hfree (h.named.sublist (hrest.map _)) hfitted h.numbered (List.Perm.refl _) ?_
    -- the other objects are those that are there before and after
    have hothers : session.objects.filter (· ∈ Directory.erase name session.objects) =
        Directory.erase name session.objects := by
      refine List.filter_congr fun entry hentry => ?_
      rw [Bool.eq_iff_iff, decide_eq_true_iff]
      exact List.mem_filter.trans (and_iff_right hentry)
    show (itemsOf (session.objects.filter (· ∈ Directory.erase name session.objects))).Perm _
    rw [hothers]

/-- **A request takes what its object holds, or gives back what it took.** -/
theorem Solvent.turned_allocate (hback : TakesBack π) {controller : String} {size align : Nat}
    {zeroed : Bool} :
    Turned session (outcome (operate (.allocate controller name size align zeroed)) session).2 := by
  rw [outcome_allocate]
  cases hi : session.controllers.get? controller with
  | none => exact h.turned h.owing fun _ hentry => hentry
  | some i =>
    obtain rfl : i = 0 := h.numbered _ (Directory.mem_of_get? hi)
    dsimp only
    split
    · exact h.turned h.owing fun _ hentry => hentry
    · rename_i hunused
      have hallocate := h.owing.allocate hback h.owing.plain.strategy size align zeroed
      cases hact : Action.allocate 0 size align zeroed session.machine with
      | error f m => exact h.turned (hallocate.of_error hact) fun _ hentry => hentry
      | ok answer m =>
        have hanswer := hallocate.of_ok hact
        cases answer with
        | error cause => exact h.turned hanswer fun _ hentry => hentry
        | ok object =>
          obtain ⟨howing, hfitted⟩ := hanswer
          have hfree : name ∉ session.objects.map Prod.fst :=
            Directory.get?_eq_none_iff.mp (Option.not_isSome_iff_eq_none.mp hunused)
          have hperm := Directory.insert_perm (v := object) hfree
          have hfittedAll : ∀ entry ∈ Directory.insert name object session.objects,
              entry.2.Fitted := by
            intro entry hentry
            rcases Directory.mem_insert hentry with rfl | hentry
            · exact hfitted
            · exact h.fitted entry hentry
          have hnamed : ((Directory.insert name object session.objects).map Prod.fst).Nodup :=
            (hperm.map Prod.fst).nodup_iff.mpr (List.nodup_cons.mpr ⟨hfree, h.named⟩)
          refine .of_owing howing hnamed hfittedAll h.numbered (itemsOf_perm hperm).symm ?_
          have hothers : session.objects.filter (· ∈ Directory.insert name object session.objects) =
              session.objects := List.filter_eq_self.mpr fun entry hentry =>
            decide_eq_true (hperm.mem_iff.mpr (List.mem_cons_of_mem _ hentry))
          show (itemsOf (session.objects.filter
            (· ∈ Directory.insert name object session.objects))).Perm _
          rw [hothers]

end

/-- **Every operation but building a controller keeps a session solvent.** -/
theorem Solvent.turned_operate [Platform π] (hback : TakesBack π) (h : Solvent session)
    {operation : Operation} (hbuilds : operation.builds = false) :
    Turned session (outcome (operate operation) session).2 := by
  have hnothing : Item.Backed [] := Item.backed_of_slots_eq_nil rfl
  have haside : Aside (Owing session.calls (itemsOf session.objects) [] : Machine π → Prop) :=
    Owing.aside hnothing
  have hread : ∀ o offset, Keeps (Owing session.calls (itemsOf session.objects) [])
      (Action.readWord o offset : Action π _) := haside.readWord
  have hwrite : ∀ o offset value, Keeps (Owing session.calls (itemsOf session.objects) [])
      (Action.writeWord o offset value : Action π _) := haside.writeWord
  rw [Simulator.Session.outcome_snd]
  cases operation with
  | build name => cases hbuilds
  | destroy name => exact h.turned_destroy
  | init name => exact h.turned_withController haside.phaseless.init _
  | suspend name => exact h.turned_withController haside.phaseless.suspend _
  | resume name => exact h.turned_withController haside.phaseless.resume _
  | allocate controller name size align zeroed =>
    rw [← Simulator.Session.outcome_snd]
    exact h.turned_allocate hback
  | free name => exact h.turned_free hback
  | read32 target offset =>
    exact h.turned_withObject (fun o => (keeps_lift _).bind fun _ => hread o offset) _
  | write32 target offset value =>
    exact h.turned_withObject (fun o => (keeps_lift _).bind fun _ => hwrite o offset value) _
  | readWords target offset words =>
    exact h.turned_withObject (fun o => Action.keeps_readWords (hread o) offset words) _
  | writeWords target offset values =>
    exact h.turned_withObject (fun o => Action.keeps_writeWords (hwrite o) offset values) _
  | fill target value =>
    exact h.turned_withObject (fun o => Action.keeps_fill fun offset => hwrite o offset value) _
  | scan target =>
    exact h.turned_withObject (fun o => Action.keeps_readWords (hread o) 0 o.words) _

/-- A request that is not answered with an object leaves the objects as they are. -/
theorem objects_of_refused [Platform π] {controller : String} {size align : Nat} {zeroed : Bool}
    (h : ∀ object, (outcome (operate (.allocate controller name size align zeroed)) session).1 ≠
      .reply (.object object)) :
    (outcome (operate (.allocate controller name size align zeroed)) session).2.objects =
      session.objects := by
  rw [outcome_allocate] at h ⊢
  cases hi : session.controllers.get? controller with
  | none => rfl
  | some i =>
    rw [hi] at h
    dsimp only at h ⊢
    by_cases hused : (session.objects.get? name).isSome = true
    · rw [if_pos hused]
    · rw [if_neg hused] at h ⊢
      cases hact : Action.allocate i size align zeroed session.machine with
      | error f m => rfl
      | ok answer m =>
        rw [hact] at h
        cases answer with
        | error cause => rfl
        | ok object => exact absurd rfl (h object)

/-- A request that is answered with an object has given nothing back. -/
theorem given_of_made [Platform π] {controller : String} {size align : Nat} {zeroed : Bool}
    {made : InstanceObject}
    (h : (outcome (operate (.allocate controller name size align zeroed)) session).1 =
      .reply (.object made)) (loan : Loan) :
    given (outcome (operate (.allocate controller name size align zeroed)) session).2.calls loan =
      given session.calls loan := by
  obtain ⟨i, m, -, -, hact, hafter⟩ := exists_of_made h
  have hfrugal := Action.frugal_allocate i size align zeroed session.machine
  have hreturned : m.returned = session.machine.returned := hfrugal.of_ok hact rfl
  rw [hafter]
  exact congrArg (List.count loan) hreturned

/-! ## Runs -/

/-- What was taken and not given back is what the live objects hold. -/
theorem Solvent.taken_eq (h : Solvent session) (loan : Loan) :
    taken session.calls loan =
      given session.calls loan + (loansOf session.objects).count loan := by
  rw [← map_itemsOf]
  exact h.owing.ledger.onLoan.balanced loan

/-- An operation that neither makes nor frees an object has given back what it took. -/
theorem Turned.taken_eq {after : Session π} (hturned : Turned session after) (h : Solvent session)
    (hobjects : after.objects = session.objects) (loan : Loan) :
    taken after.calls loan + given session.calls loan =
      taken session.calls loan + given after.calls loan := by
  have hafter := hturned.solvent.taken_eq loan
  have hbefore := h.taken_eq loan
  rw [hobjects] at hafter
  omega

variable [Platform π]

/-- **Every run keeps a session solvent.** -/
theorem Solvent.run (hback : TakesBack π) {operations : List Operation}
    (hbuilds : ∀ operation ∈ operations, operation.builds = false) (h : Solvent session) :
    Solvent (runAll operations session) := by
  induction operations generalizing session with
  | nil => exact h
  | cons operation rest ih =>
    obtain ⟨hfirst, hrest⟩ := List.forall_mem_cons.mp hbuilds
    exact ih hrest (h.turned_operate hback hfirst).solvent

/-- A session on a recording machine starts solvent, with one controller that has no heap. -/
theorem Solvent.of_build {hardware : π} {shared : Option RangeSpace} {journalOpen : Bool}
    (hshared : ∀ space ∈ shared, ∃ name base length granularity,
      RangeSpace.create name base length granularity = .ok space)
    (hvram : (Platform.chipset hardware).hasVram = false)
    (hbuild : outcome (operate (.build name)) (.start (.start hardware shared journalOpen true)) =
      (.reply .nothing, session)) : Solvent session := by
  have hout : RangesOut [] shared := by
    cases shared with
    | none => rfl
    | some space =>
      obtain ⟨_, _, _, _, hcreate⟩ := hshared space rfl
      obtain ⟨rfl, hsound⟩ := RangeSpace.create_eq_ok hcreate
      exact ⟨hsound, List.Perm.refl _⟩
  have hname : ¬ ((Session.start (.start hardware shared journalOpen true)).controllers.get?
      name).isSome = true := Bool.false_ne_true
  rw [outcome, operate, run_get_bind, if_neg hname] at hbuild
  rcases Action.build_cases (m := .start hardware shared journalOpen true) hvram with
    ⟨cause, hact⟩ | ⟨c, journal, -, hstrategy, hfirmware, hact⟩ <;>
    rw [run_bind_of_ok (onMachine_of_ok hact)] at hbuild
  · cases hbuild
  · obtain rfl := (Prod.mk.inj hbuild).2
    refine ⟨List.nodup_nil, fun _ h => absurd h List.not_mem_nil, ?_, ?_⟩
    · rintro entry hentry
      obtain rfl := List.mem_singleton.mp hentry
      rfl
    · exact ⟨rfl, hout, ⟨c, rfl, hstrategy, hfirmware⟩, .nil⟩

/-- **Everything that is taken of a platform is given back exactly once**, whatever the platform
answers, and not before the object that holds it is freed. -/
theorem run_linear {hardware : π} {shared : Option RangeSpace} {journalOpen : Bool}
    (hback : TakesBack π)
    (hshared : ∀ space ∈ shared, ∃ name base length granularity,
      RangeSpace.create name base length granularity = .ok space)
    (hvram : (Platform.chipset hardware).hasVram = false)
    (hbuild : outcome (operate (.build name)) (.start (.start hardware shared journalOpen true)) =
      (.reply .nothing, session))
    (operations : List Operation) (hbuilds : ∀ operation ∈ operations, operation.builds = false) :
    let before := runAll operations session
    -- what was taken and not given back is what the live objects hold
    (∀ loan, taken before.calls loan =
      given before.calls loan + (loansOf before.objects).count loan) ∧
    -- nothing is ever given back that is not out
    (∀ moment, moment <+: before.calls → ∀ loan, given moment loan ≤ taken moment loan) ∧
    -- all the while the objects keep what they hold that are there before and after an operation
    (∀ operation, operation.builds = false →
      let after := (outcome (operate operation) before).2
      before.calls <+: after.calls ∧
      ∀ moment, before.calls <+: moment → moment <+: after.calls → ∀ loan, given moment loan +
        (loansOf (before.objects.filter (· ∈ after.objects))).count loan ≤ taken moment loan) ∧
    -- a request that fails has given back what it took
    (∀ controller object size align zeroed,
      let request := outcome (operate (.allocate controller object size align zeroed)) before
      (∀ made, request.1 ≠ .reply (.object made)) → ∀ loan,
        taken request.2.calls loan + given before.calls loan =
          taken before.calls loan + given request.2.calls loan) ∧
    -- one that is granted has given nothing back, so its object has had all along what it holds
    (∀ controller object size align zeroed made,
      let request := outcome (operate (.allocate controller object size align zeroed)) before
      request.1 = .reply (.object made) → ∀ loan,
        given request.2.calls loan = given before.calls loan) ∧
    -- what is mapped lies in a reserved range, and leads to a page that is out
    (Unrepeated before.calls → ∀ moment, moment <+: before.calls → Guarded moment) := by
  have h := (Solvent.of_build hshared hvram hbuild).run hback hbuilds
  refine ⟨h.taken_eq, h.owing.ledger.solvent, ?_, ?_, ?_, h.owing.ledger.guarded⟩
  · intro operation hoperation
    have hturned := h.turned_operate hback hoperation
    exact ⟨hturned.began, hturned.held⟩
  · intro _ _ _ _ _ request hrefused
    exact (h.turned_allocate hback).taken_eq h (objects_of_refused hrefused)
  · exact fun _ _ _ _ _ _ => given_of_made

/-- A board takes back whatever is given back to it. -/
theorem takesBack_board : TakesBack Scripted.Board where
  freePage _ d := ⟨d, rfl⟩
  unmap _ size d := ⟨size, d, rfl⟩
  freeBuffer _ _ d := ⟨d, rfl⟩

/-- Two objects are asked for, but the last page of the second cannot be mapped; then the first is
freed. -/
theorem run_linear_refused :
    let board : Scripted.Board :=
      ⟨.ofChipset 0xea false, ∅, [], none, ∅, [some 0x5000, some 0x3000, some 0x9000, some 0x4000],
        [0, 0, 0, -12], []⟩
    let space : RangeSpace :=
      ⟨"iommu", 0x10000, 0x10000, 0x1000, [⟨0x10000, 0x10000⟩], []⟩
    let built := outcome (operate (.build "gpu")) (Scripted.Session.start board (some space) false)
    let last := runAll [.allocate "gpu" "table" 0x2000 0 false,
      .allocate "gpu" "heap" 0x2000 0 false, .free "table"] built.2
    built.1 = .reply .nothing ∧ last.calls.length = 19 ∧
      (∀ loan, taken last.calls loan = given last.calls loan) ∧
      ∀ moment, moment <+: last.calls → Guarded moment := by
  intro board space built last
  have hreply : built.1 = .reply .nothing := by decide +kernel
  have hshared : ∀ s ∈ some space, ∃ name base length granularity,
      RangeSpace.create name base length granularity = .ok s := by
    rintro _ ⟨⟩
    exact ⟨"iommu", 0x10000, 0x10000, 0x1000, rfl⟩
  have hrun := run_linear takesBack_board hshared rfl (Prod.ext hreply rfl)
    [.allocate "gpu" "table" 0x2000 0 false, .allocate "gpu" "heap" 0x2000 0 false, .free "table"]
    (by decide)
  change (∀ loan, taken last.calls loan = given last.calls loan +
    (loansOf last.objects).count loan) ∧ _ at hrun
  obtain ⟨htaken, -, -, -, -, hguarded⟩ := hrun
  have hnone : last.objects = [] := by decide +kernel
  rw [hnone] at htaken
  refine ⟨hreply, by decide +kernel, fun loan => ?_, hguarded (.of_nodup (by decide +kernel))⟩
  exact (htaken loan).trans (Nat.add_zero _)

end Session
end InstanceMemory
