import InstanceMemory.Proofs.Directory
import InstanceMemory.Proofs.Machine.Booked
import InstanceMemory.Proofs.Session.Runs
import InstanceMemory.Proofs.Simulator.Device

/-!
# The accounts of a session

The live objects of a session are those that have a name and the firmware structures of its
controllers. **Every move keeps the accounts** (`Session.Booked.after`): whatever a move is, and
whether it is answered, refused or faults, after it the machine holds exactly what the live objects
take, and every controller counts exactly its own. A session starts with nothing held, so the accounts
are kept by every run (`Session.Booked.run`).
-/

set_option autoImplicit false

namespace InstanceMemory

open Simulator (Config Device Move)
open Simulator.Session (Rearmed)

variable {m : Machine Device} {α : Type}

/-! ## The beginning -/

/-- A machine without controllers, all of whose spaces are free, is in balance with no objects. -/
theorem Accounts.of_fresh (hsilent : m.trace.isRecording = false) (hnone : m.controllers = [])
    (hmemory : m.hardware.memory.Lends [] [])
    (hbase : m.hardware.memory.space.base = Simulator.systemMemoryBase ∧
      m.hardware.memory.space.length = m.hardware.memory.size)
    (htranslation : m.hardware.translation.isSome = m.shared.isSome)
    (hmaps : ∀ t, m.hardware.translation = some t → t.Maps [])
    (hshared : ∀ space, m.shared = some space →
      space.Lends [] ∧ space.base = 0 ∧ space.length ≤ resolveBit) : Accounts [] [] m := by
  have hheap : ∀ i space, ¬ m.Has (.heap i) space := by
    rintro i space ⟨c, length, hc, -⟩
    rw [hnone] at hc
    cases hc
  refine ⟨⟨hsilent, hmemory, hmaps, fun _ => rfl, ?_,
    fun id hne => absurd rfl hne⟩, ⟨htranslation, hbase, fun space hid => (hshared space hid).2,
    fun i space hid => absurd hid (hheap i space), ?_⟩, ?_, ?_, ?_⟩
  · intro id space hid
    cases id with
    | shared => exact (hshared space hid).1
    | heap i => exact absurd hid (hheap i space)
  · intro i c hc
    rw [hnone] at hc
    cases hc
  · rw [Machine.roster, hnone]
    rfl
  · intro i c hc
    rw [hnone] at hc
    cases hc
  · intro o ho
    exact absurd ho List.not_mem_nil

/-! ## Refusals are not on the books -/

/-- A device that refuses other things holds the same. -/
theorem Accounts.rearm {roster : List (Option FirmwareObjects)} {live : List InstanceObject}
    (h : Accounts roster live m) {d : Device} (hd : Rearmed m.hardware d) :
    Accounts roster live { m with hardware := d } := by
  obtain ⟨pageBudget, refusesBuffers, f, refusesBars, rfl⟩ := hd
  refine ⟨⟨h.holding.silent, ?_, ?_, ?_, h.holding.spaces,
    h.holding.placed⟩, ⟨?_, h.geometry.memory, h.geometry.shared, h.geometry.heap,
    h.geometry.strategy⟩, h.listed, h.counted, h.made⟩
  · exact ⟨h.holding.memory.space, h.holding.memory.livePages, h.holding.memory.liveBuffers⟩
  · intro t ht
    obtain ⟨before, hbefore, rfl⟩ := Option.map_eq_some_iff.mp ht
    have hmaps := h.holding.translation before hbefore
    exact ⟨hmaps.lookup, hmaps.distinct, hmaps.paged⟩
  · intro hnone
    exact h.holding.untranslated (Option.map_eq_none_iff.mp hnone)
  · have htranslation := h.geometry.translation
    rw [← htranslation]
    exact Option.isSome_map

theorem Booked.rearm {count : Nat} {objects : List InstanceObject} (h : Booked count objects m)
    {d : Device} (hd : Rearmed m.hardware d) : Booked count objects { m with hardware := d } :=
  of_accounts (h.accounts.rearm hd) h.count_le h.owned

/-- The operation may make an object or give one back, or build or destroy a controller. -/
def Operation.turnsOver : Operation → Bool
  | .build _ | .destroy _ | .allocate .. | .free _ => true
  | _ => false

namespace Session

variable {session : Session Device} {name : String}

/-- The live objects of a session: the named ones and the firmware structures. -/
def live (session : Session Device) : List InstanceObject :=
  session.objects.values ++ session.machine.roster.flatMap FirmwareObjects.listed

/-- The accounts of a session. -/
structure Booked (session : Session Device) : Prop where
  /-- The machine is in balance with the named objects, and the named controllers are there. -/
  machine : ∃ count, InstanceMemory.Booked count session.objects.values session.machine ∧
    ∀ entry ∈ session.controllers, entry.2 < count
  distinct : (session.objects.map Prod.fst).Nodup

section

variable {P : Session Device → Prop} (hP : ∀ session m', m'.books = session.machine.books →
  P session → P { session with machine := m' })

include hP

/-- What the books tell is kept by what a controller does without changing them. -/
theorem keeps_withController_of_books {act : Nat → Action Device α}
    (hact : ∀ i books, Keeps (Machine.books · = books) (act i)) (reply : α → Outcome Reply) :
    Keeps P (withController name fun i => onMachine (act i) >>= fun a => pure (reply a)) := by
  apply keeps_withController
  intro session i hsession _
  rw [leaves_onMachine_bind_pure]
  exact hP session _ (hact i _ _ rfl) hsession

theorem keeps_withObject_of_books {target : Target} {act : InstanceObject → Action Device α}
    (hact : ∀ o books, Keeps (Machine.books · = books) (act o)) (reply : α → Outcome Reply) :
    Keeps P (withObject target fun o => onMachine (act o) >>= fun a => pure (reply a)) := by
  apply keeps_withObject
  intro session o hsession _
  rw [leaves_onMachine_bind_pure]
  exact hP session _ (hact o _ _ rfl) hsession

/-- **What the books tell is kept by every operation that neither makes nor gives back.** -/
theorem keeps_of_books {operation : Operation} (h : operation.turnsOver = false) :
    Keeps P (operate operation) := by
  cases operation with
  | build name => cases h
  | destroy name => cases h
  | allocate controller name size align zeroed => cases h
  | free name => cases h
  | init name => exact keeps_withController_of_books hP (fun i _ => Action.books_init i) _
  | suspend name => exact keeps_withController_of_books hP (fun i _ => Action.books_suspend i) _
  | resume name => exact keeps_withController_of_books hP (fun i _ => Action.books_resume i) _
  | read32 target offset =>
    exact keeps_withObject_of_books hP (fun o _ => Action.books_read32 o offset) _
  | write32 target offset value =>
    exact keeps_withObject_of_books hP (fun o _ => Action.books_write32 o offset value) _
  | readWords target offset words =>
    exact keeps_withObject_of_books hP (fun o _ => Action.books_readWords o offset words) _
  | writeWords target offset values =>
    exact keeps_withObject_of_books hP (fun o _ => Action.books_writeWords o offset values) _
  | fill target value =>
    exact keeps_withObject_of_books hP (fun o _ => Action.books_fill o value) _
  | scan target =>
    exact keeps_withObject_of_books hP (fun o _ => Action.books_readWords o 0 o.words) _

end

namespace Booked

/-- The machine is in balance with the live objects. -/
theorem accounts (h : Booked session) :
    Accounts session.machine.roster session.live session.machine := by
  obtain ⟨⟨count, hmachine, -⟩, -⟩ := h
  exact hmachine.accounts

/-- What has a name is a controller of the machine. -/
theorem index_lt (h : Booked session) {i : Nat} (hi : session.controllers.get? name = some i) :
    i < session.machine.roster.length := by
  obtain ⟨⟨count, hmachine, hnames⟩, -⟩ := h
  exact Nat.lt_of_lt_of_le (hnames _ (Directory.mem_of_get? hi)) hmachine.count_le

/-! ## Every operation -/

/-- A controller joins the session, or nothing changes on the books. -/
theorem build (name : String) : Keeps Booked (operate (.build name)) := by
  apply keeps_get_bind
  intro session h
  split
  · exact h
  · obtain ⟨⟨count, hmachine, hnames⟩, hdistinct⟩ := h
    have hbuild := @InstanceMemory.Booked.build count session.objects.values
    cases hact : (Action.build : Action Device _) session.machine with
    | error f m' =>
      simp only [leaves, run_bind_of_error (onMachine_of_error hact)]
      exact ⟨⟨count, hbuild.of_error hmachine hact, hnames⟩, hdistinct⟩
    | ok answer m' =>
      simp only [leaves, run_bind_of_ok (onMachine_of_ok hact)]
      cases answer with
      | error cause => exact ⟨⟨count, hbuild.of_refused hmachine hact, hnames⟩, hdistinct⟩
      | ok i =>
        obtain ⟨hbooked, hcount⟩ := hbuild.of_ok hmachine hact
        refine ⟨⟨i + 1, hbooked, ?_⟩, hdistinct⟩
        intro entry hentry
        rcases Directory.mem_insert hentry with rfl | hentry
        · exact Nat.lt_succ_self i
        · exact Nat.lt_of_lt_of_le (hnames entry hentry) (Nat.le_succ_of_le hcount)

/-- A controller leaves the session with its firmware structures; its other objects stay. -/
theorem destroy (name : String) : Keeps Booked (operate (.destroy name)) := by
  apply keeps_withController
  intro session i h _
  obtain ⟨⟨count, hmachine, hnames⟩, hdistinct⟩ := h
  obtain ⟨m', hteardown, hbooked, -⟩ := hmachine.teardown i
  have hact : Session.onMachine (Action.teardown i)
      { session with controllers := session.controllers.erase name } = .ok () _ :=
    onMachine_of_ok hteardown
  rw [leaves, run_modify_bind, run_bind_of_ok hact]
  refine ⟨⟨count, hbooked, ?_⟩, hdistinct⟩
  intro entry hentry
  exact hnames entry ((Directory.erase_sublist name _).subset hentry)

/-- An object joins the session, or nothing changes on the books. -/
theorem allocate (controller name : String) (size align : Nat) (zeroed : Bool) :
    Keeps Booked (operate (.allocate controller name size align zeroed)) := by
  apply keeps_withController
  intro session i h hi
  rw [leaves, run_get_bind]
  by_cases hused : (session.objects.get? name).isSome = true
  · rw [if_pos hused]
    exact h
  · rw [if_neg hused]
    obtain ⟨⟨count, hmachine, hnames⟩, hdistinct⟩ := h
    have hallocate := @InstanceMemory.Booked.allocate i count session.objects.values
      (hnames _ hi) size align zeroed
    cases hact : (Action.allocate i size align zeroed : Action Device _) session.machine with
    | error f m' =>
      rw [run_bind_of_error (onMachine_of_error hact)]
      exact ⟨⟨count, hallocate.of_error hmachine hact, hnames⟩, hdistinct⟩
    | ok answer m' =>
      rw [run_bind_of_ok (onMachine_of_ok hact)]
      cases answer with
      | error cause => exact ⟨⟨count, hallocate.of_refused hmachine hact, hnames⟩, hdistinct⟩
      | ok object =>
        have hfree : name ∉ session.objects.map Prod.fst := by
          rwa [← Directory.get?_eq_none_iff, ← Option.not_isSome_iff_eq_none]
        have hperm := Directory.insert_perm (v := object) hfree
        obtain ⟨hbooked, -⟩ := hallocate.of_ok hmachine hact
        refine ⟨⟨count, hbooked.perm (hperm.map Prod.snd).symm, hnames⟩, ?_⟩
        exact (hperm.map Prod.fst).nodup_iff.mpr (List.nodup_cons.mpr ⟨hfree, hdistinct⟩)

/-- A named object is in the balance before all others. -/
theorem exists_first {name : String} {object : InstanceObject} (h : Booked session)
    (hobject : session.objects.get? name = some object) :
    ∃ count, InstanceMemory.Booked count (object :: (session.objects.erase name).values)
        session.machine ∧
      ∀ entry ∈ session.controllers, entry.2 < count := by
  obtain ⟨⟨count, hmachine, hnames⟩, hdistinct⟩ := h
  have hperm := Directory.perm_erase hdistinct (Directory.mem_of_get? hobject)
  exact ⟨count, hmachine.perm (hperm.map Prod.snd), hnames⟩

/-- An object leaves the session. -/
theorem free (name : String) : Keeps Booked (operate (.free name)) := by
  apply keeps_withObject
  intro session object h hobject
  obtain ⟨count, hmachine, hnames⟩ := h.exists_first hobject
  obtain ⟨m', hfree, hbooked⟩ := hmachine.free
  have hact : Session.onMachine (Action.free object)
      { session with objects := session.objects.erase name } = .ok () _ :=
    onMachine_of_ok hfree
  rw [leaves, run_modify_bind, run_bind_of_ok hact]
  refine ⟨⟨count, hbooked, hnames⟩, ?_⟩
  exact h.distinct.sublist ((Directory.erase_sublist name _).map Prod.fst)

/-- The accounts of a session can be read from the books. -/
theorem setMachine (session : Session Device) (m' : Machine Device)
    (hbooks : m'.books = session.machine.books) (h : Booked session) :
    Booked { session with machine := m' } := by
  obtain ⟨⟨count, hmachine, hnames⟩, hdistinct⟩ := h
  exact ⟨⟨count, hmachine.of_books hbooks, hnames⟩, hdistinct⟩

/-- **Every operation keeps the accounts.** -/
theorem operate (operation : Operation) : Keeps Booked (operate operation) := by
  by_cases hturns : operation.turnsOver = true
  · cases operation with
    | build name => exact build name
    | destroy name => exact destroy name
    | allocate controller name size align zeroed => exact allocate controller name size align zeroed
    | free name => exact free name
    | _ => cases hturns
  · exact keeps_of_books setMachine (Bool.eq_false_iff.mpr hturns)

/-- **Every move keeps the accounts.** -/
theorem after (session : Session Device) (move : Move) (h : Booked session) :
    Booked (Simulator.Session.after session move) := by
  cases move with
  | operation operation =>
    rw [Simulator.Session.after, Simulator.Session.outcome_snd]
    exact Booked.operate operation session h
  | faults probe hfaults =>
    obtain ⟨d, hd, hleaves⟩ := Simulator.Session.probe_setsFaults hfaults session
    obtain ⟨⟨count, hmachine, hnames⟩, hdistinct⟩ := h
    rw [Simulator.Session.after, Simulator.Session.outcome_snd, hleaves]
    exact ⟨⟨count, hmachine.rearm hd, hnames⟩, hdistinct⟩

/-! ## Every run -/

/-- A session starts with nothing held. -/
theorem start {config : Config} {journalOpen : Bool} {host : Simulator.Host}
    (h : Simulator.Session.start config journalOpen host = .ok session) : Booked session := by
  obtain ⟨device, shared, hstart, rfl⟩ := Simulator.Session.start_eq_ok h
  obtain ⟨memory, hmemory, rfl, hshared⟩ := Device.start_eq_ok hstart
  have hspace : ∀ space, shared = some space → space.Lends [] ∧ space.base = 0 ∧
      space.length ≤ resolveBit := by
    intro space hspace
    obtain ⟨size, -, hsize, hcreate⟩ := hshared space hspace
    obtain ⟨rfl, -⟩ := RangeSpace.create_eq_ok hcreate
    exact ⟨.of_create hcreate, rfl, hsize⟩
  have howned : Owned [] := fun i firmware hi => by cases hi
  refine ⟨⟨0, .of_accounts (Accounts.of_fresh rfl rfl ⟨.of_create hmemory, rfl, rfl⟩ ?_
    Option.isSome_map ?_ hspace) (Nat.le_refl 0) howned, ?_⟩, List.nodup_nil⟩
  · obtain ⟨rfl, -⟩ := RangeSpace.create_eq_ok hmemory
    exact ⟨rfl, rfl⟩
  · intro t ht
    obtain ⟨space, -, rfl⟩ := Option.map_eq_some_iff.mp ht
    exact .empty
  · intro _ hentry
    cases hentry

/-- **Every run keeps the accounts.** -/
theorem run {config : Config} {journalOpen : Bool} {host : Simulator.Host}
    (h : Simulator.Session.start config journalOpen host = .ok session) (moves : List Move) :
    Booked (Simulator.Session.run moves session) :=
  Simulator.Session.run_induction after moves (start h)

end Booked
end Session
end InstanceMemory
