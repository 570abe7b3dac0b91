import Mathlib.Data.List.Pairwise
import InstanceMemory.Proofs.Machine.Blank
import InstanceMemory.Proofs.Machine.Recycling
import InstanceMemory.Proofs.Session.Accounts

/-!
# The shelf

A **shelf** is what users may think a session is: independent arrays of words, each under the name of
a live object. A write changes the words of one array, a fill all words of it, and no other array;
freeing takes one array away. A request that is granted puts an array under a new name, of zeros if
that was asked for, and else of the words that lie where the new object is.

`session.shelf` is the shelf that a session stands for. `Shelf.run` tells what moves do to a shelf;
of the session it asks only how a request is answered, and what lies where its object is put.
-/

set_option autoImplicit false

namespace InstanceMemory

open Simulator (Device Move)
open Simulator.Session (after)
open Session (request)

/-- Arrays of words under the names of live objects. -/
abbrev Shelf := Target → Option (List UInt32)

namespace Shelf

/-- Changes the words of one object, if there is one. -/
def change (shelf : Shelf) (target : Target) (f : List UInt32 → List UInt32) : Shelf :=
  Function.update shelf target ((shelf target).map f)

/-- Puts values in from an offset on. Values that do not lie within the object, word by word, change
nothing. -/
def write (shelf : Shelf) (target : Target) (offset : Nat) (values : List UInt32) : Shelf :=
  shelf.change target (overwriteAt · offset values)

/-- What a move does to the shelf. -/
def after (shelf : Shelf) (session : Session Device) : Move → Shelf
  | .operation (.allocate controller name size align zeroed) =>
    match (request controller name size align zeroed session).1 with
    | .reply (.object o) => Function.update shelf (.object name)
        (some (if zeroed then List.replicate o.words 0 else session.machine.contents o))
    | _ => shelf
  | .operation (.free name) => Function.update shelf (.object name) none
  | .operation (.write32 target offset value) => shelf.write target offset [value]
  | .operation (.writeWords target offset values) => shelf.write target offset values
  | .operation (.fill target value) =>
    shelf.change target fun words => List.replicate words.length value
  | _ => shelf

/-- What a run does to the shelf. -/
def run : List Move → Session Device → Shelf → Shelf
  | [], _, shelf => shelf
  | move :: rest, session, shelf =>
    run rest (Simulator.Session.after session move) (shelf.after session move)

/-- The shelf on which all live objects contain zeros. -/
def zero (session : Session Device) : Shelf := fun target =>
  (session.resolve? target).map fun o => List.replicate o.words 0

variable {shelf : Shelf} {target : Target}

/-- There is nothing to change where there is no object. -/
theorem change_of_none (h : shelf target = none) (f : List UInt32 → List UInt32) :
    shelf.change target f = shelf := by
  rw [change, h, Option.map_none, ← h, Function.update_eq_self]

/-- **A write leaves every other object alone.** -/
theorem write_of_ne {other : Target} (h : other ≠ target) (shelf : Shelf) (offset : Nat)
    (values : List UInt32) : shelf.write target offset values other = shelf other :=
  Function.update_of_ne h _ _

/-- **A write within an object is what its words then are**, and its other words stay as they are. -/
theorem write_words {words values : List UInt32} {k : Nat} (h : shelf target = some words)
    (hk : k + values.length ≤ words.length) :
    ∃ later, shelf.write target (k * wordSize) values target = some later ∧
      later.length = words.length ∧ ∀ j : Nat, later[j]? =
        if k ≤ j ∧ j < k + values.length then values[j - k]? else words[j]? := by
  have hinside : k * wordSize % wordSize = 0 ∧
      k * wordSize / wordSize + values.length ≤ words.length := by
    rw [Nat.mul_mod_left, Nat.mul_div_cancel _ (by decide)]
    exact ⟨rfl, hk⟩
  refine ⟨overwrite words k values, ?_, length_overwrite hk, getElem?_overwrite hk⟩
  rw [write, change, Function.update_self, h, Option.map_some, overwriteAt, if_pos hinside,
    Nat.mul_div_cancel _ (by decide)]

theorem change_id (shelf : Shelf) (target : Target) : shelf.change target id = shelf := by
  rw [change, Option.map_id, id_eq, Function.update_eq_self]

end Shelf

namespace Session

variable {session later : Session Device} {gpu controller name : String} {target other : Target}
  {o o' : InstanceObject} {size align : Nat} {zeroed : Bool} {m' : Machine Device}

/-- The words of the live objects of a session. -/
def shelf (session : Session Device) : Shelf := fun target =>
  (session.resolve? target).map session.machine.contents

/-! ## Targets -/

/-- What a firmware structure stands for can be read from the roster. -/
theorem resolve?_firmware (session : Session Device) (controller : String) (name : FirmwareName) :
    session.resolve? (.firmware controller name) =
      (session.controllers.get? controller).bind fun i =>
        session.machine.roster[i]?.join.map (·.get name) := by
  have hresolve : session.resolve? (.firmware controller name) =
      (session.controllers.get? controller).bind fun i =>
        (session.machine.controller i).firmware.bind fun firmware => some (firmware.get name) := rfl
  simp only [hresolve, Machine.firmware_controller, Option.map_eq_bind]
  rfl

/-- Sessions with the same names stand for the same objects. -/
theorem resolve?_congr (hcontrollers : later.controllers = session.controllers)
    (hobjects : later.objects = session.objects)
    (hroster : later.machine.roster = session.machine.roster) (target : Target) :
    later.resolve? target = session.resolve? target := by
  cases target with
  | object name => rw [resolve?, resolve?, hobjects]
  | firmware controller name => rw [resolve?_firmware, resolve?_firmware, hcontrollers, hroster]

/-- Names stand for the same objects in a machine that has the same on its books. -/
theorem resolve?_setMachine (hbooks : m'.books = session.machine.books) (target : Target) :
    Session.resolve? { session with machine := m' } target = session.resolve? target := by
  have hroster : m'.roster = session.machine.roster :=
    Machine.roster_of_plan (Machine.plan_of_books hbooks)
  exact @resolve?_congr session { session with machine := m' } rfl rfl hroster target

/-- What a target stands for is live. -/
theorem live_of_resolve? (ho : session.resolve? target = some o) : o ∈ session.live := by
  cases target with
  | object name =>
    exact List.mem_append_left _ (List.mem_map.mpr ⟨_, Directory.mem_of_get? ho, rfl⟩)
  | firmware controller name =>
    rw [resolve?_firmware, Option.bind_eq_some_iff] at ho
    obtain ⟨i, -, ho⟩ := ho
    obtain ⟨firmware, hfirmware, rfl⟩ := Option.map_eq_some_iff.mp ho
    refine List.mem_append_right _ (List.mem_flatMap.mpr ⟨some firmware, ?_, ?_⟩)
    · exact List.mem_of_getElem? (Option.join_eq_some_iff.mp hfirmware)
    · cases name <;> simp only [FirmwareObjects.get, FirmwareObjects.listed, FirmwareObjects.toList,
        List.mem_cons, true_or, or_true]

/-! ## What shows of the shelf -/

/-- The live objects have words on the shelf, as many as they are large, and nothing else has. -/
theorem map_length_shelf (session : Session Device) (target : Target) :
    (session.shelf target).map List.length = (session.resolve? target).map (·.words) := by
  rw [shelf, Option.map_map]
  exact Option.map_congr fun o _ => Machine.length_contents session.machine o

/-- The device finds the words of the shelf at the device addresses of the objects. -/
theorem read_of_shelf (ho : session.resolve? target = some o) (hplaced : Placed session.machine o)
    {words : List UInt32} {k : Nat} {value : UInt32} (hwords : session.shelf target = some words)
    (hk : words[k]? = some value) :
    session.machine.hardware.read (o.offset + k * wordSize) = .ok value := by
  rw [shelf, ho, Option.map_some, Option.some.injEq] at hwords
  subst hwords
  have hlt := Machine.lt_words_of_getElem? hk
  rw [Machine.getElem?_contents hlt] at hk
  rw [Device.read_of_resolve (hplaced.resolves _ (InstanceObject.offset_lt hlt)), Option.some.inj hk]

/-! ## What becomes of the shelf -/

/-- Live objects of different names share no place. -/
def Separate (session : Session Device) : Prop :=
  ∀ target other o o', session.resolve? target = some o → session.resolve? other = some o' →
    target ≠ other → o.Apart o'

/-- The shelf of a session whose machine contains the same for the objects there are. -/
theorem shelf_congr (hresolve : ∀ target, later.resolve? target = session.resolve? target)
    (hcontents : ∀ target o, session.resolve? target = some o →
      later.machine.contents o = session.machine.contents o) : later.shelf = session.shelf := by
  funext target
  rw [shelf, shelf, hresolve]
  exact Option.map_congr fun o ho => hcontents target o ho

/-- The shelf of a session in which the words of one object were changed. -/
theorem shelf_change (hseparate : Separate session)
    (hresolve : ∀ target, later.resolve? target = session.resolve? target)
    (ho : session.resolve? target = some o) {f : List UInt32 → List UInt32}
    (hcontents : later.machine.contents o = f (session.machine.contents o))
    (hothers : ∀ o', o.Apart o' → later.machine.contents o' = session.machine.contents o') :
    later.shelf = session.shelf.change target f := by
  funext other
  by_cases hother : other = target
  · subst hother
    rw [Shelf.change, Function.update_self, shelf, shelf, hresolve, ho, Option.map_some,
      Option.map_some, Option.map_some, hcontents]
  · rw [Shelf.change, Function.update_of_ne hother, shelf, shelf, hresolve]
    exact Option.map_congr fun o' ho' =>
      hothers o' (hseparate target other o o' ho ho' (Ne.symm hother))

/-- The shelf of a session that an object has joined. -/
theorem shelf_insert (hfree : name ∉ session.objects.map Prod.fst)
    (hobjects : later.objects = session.objects.insert name o)
    (hcontrollers : later.controllers = session.controllers)
    (hroster : later.machine.roster = session.machine.roster) (hseparate : Separate later)
    {words : List UInt32} (hcontents : later.machine.contents o = words)
    (hothers : ∀ o', o.Apart o' → later.machine.contents o' = session.machine.contents o') :
    later.shelf = Function.update session.shelf (.object name) (some words) := by
  have hname : later.resolve? (.object name) = some o := by
    rw [resolve?, hobjects, Directory.get?_insert hfree, if_pos rfl]
  have hresolve : ∀ other, other ≠ .object name →
      later.resolve? other = session.resolve? other := by
    intro other hne
    cases other with
    | object key =>
      have hkey : key ≠ name := fun heq => hne (congrArg Target.object heq)
      rw [resolve?, resolve?, hobjects, Directory.get?_insert hfree, if_neg hkey]
    | firmware controller key => rw [resolve?_firmware, resolve?_firmware, hroster, hcontrollers]
  funext other
  by_cases hother : other = .object name
  · subst hother
    rw [Function.update_self, shelf, hname, Option.map_some, hcontents]
  · have hsame := hresolve other hother
    rw [Function.update_of_ne hother, shelf, shelf, hsame]
    refine Option.map_congr fun o' ho' => hothers o' ?_
    exact hseparate _ _ _ _ hname (hsame.trans ho') (Ne.symm hother)

/-- The shelf of a session that an object has left. -/
theorem shelf_erase (hobjects : later.objects = session.objects.erase name)
    (hcontrollers : later.controllers = session.controllers)
    (hroster : later.machine.roster = session.machine.roster)
    (hcontents : ∀ o, later.machine.contents o = session.machine.contents o) :
    later.shelf = Function.update session.shelf (.object name) none := by
  have hresolve : ∀ other, later.resolve? other =
      if other = .object name then none else session.resolve? other := by
    intro other
    cases other with
    | object key => simp only [resolve?, hobjects, Directory.get?_erase, Target.object.injEq]
    | firmware controller key =>
      rw [resolve?_firmware, resolve?_firmware, hroster, hcontrollers, if_neg Target.noConfusion]
  funext other
  rw [shelf, hresolve]
  by_cases hother : other = .object name
  · rw [if_pos hother, hother, Function.update_self, Option.map_none]
  · rw [if_neg hother, Function.update_of_ne hother, shelf]
    exact Option.map_congr fun o' _ => hcontents o'

/-! ## Requests and frees -/

/-- **A request puts new words on the shelf**, or leaves it as it is, if the allocation it comes to
writes nothing but the zeros of its object. -/
theorem shelf_request (h : Booked session)
    (hseparate : Separate (request controller name size align zeroed session).2)
    (hallocate : ∀ i, session.controllers.get? controller = some i →
      session.objects.get? name = none → ∃ answer m',
        Action.allocate i size align zeroed session.machine = .ok answer m' ∧
          Made zeroed session.machine answer m') :
    (request controller name size align zeroed session).2.shelf =
      session.shelf.after session (.operation (.allocate controller name size align zeroed)) := by
  rw [Shelf.after]
  rw [request, outcome_allocate] at hseparate ⊢
  cases hi : session.controllers.get? controller with
  | none => rfl
  | some i =>
    rw [hi] at hseparate
    dsimp only at hseparate ⊢
    by_cases hused : (session.objects.get? name).isSome = true
    · rw [if_pos hused]
    · rw [if_neg hused] at hseparate ⊢
      have hlt := h.index_lt hi
      have hunused := Option.not_isSome_iff_eq_none.mp hused
      obtain ⟨answer, m', hact, hmade⟩ := hallocate i hi hunused
      rw [hact] at hseparate ⊢
      cases answer with
      | error cause =>
        have hroster :=
          ((Accounts.allocate hlt size align zeroed).of_refused h.accounts hact).listed
        refine shelf_congr (fun target => ?_) fun _ o _ => Machine.contents_of_store hmade o
        exact @resolve?_congr session { session with machine := m' } rfl rfl hroster target
      | ok o =>
        obtain ⟨hnew, hothers⟩ := hmade
        have hfree : name ∉ session.objects.map Prod.fst := by
          rwa [← Directory.get?_eq_none_iff]
        have hroster : m'.roster = session.machine.roster :=
          ((Accounts.allocate hlt size align zeroed).of_ok h.accounts hact).1.listed
        refine @shelf_insert session { session with
          machine := m', objects := session.objects.insert name o } name o hfree rfl rfl hroster
          hseparate _ hnew hothers

/-- An object that is freed leaves the session, and what the machine has stored stays. -/
theorem exists_leaves_free (h : Booked session) (name : String) :
    ∃ m', leaves (operate (.free name)) session =
        { session with machine := m', objects := session.objects.erase name } ∧
      m'.store = session.machine.store ∧ m'.roster = session.machine.roster := by
  cases ho : session.objects.get? name with
  | none =>
    have hresolve : session.resolve? (.object name) = none := ho
    refine ⟨session.machine, ?_, rfl, rfl⟩
    rw [operate, leaves_of_ok (run_withObject_of_none hresolve _), Directory.erase_of_get?_eq_none ho]
  | some o =>
    have hresolve : session.resolve? (.object name) = some o := ho
    have hperm := Directory.perm_erase h.distinct (Directory.mem_of_get? ho)
    obtain ⟨m', hfree, -, haccounts⟩ :=
      (h.accounts.perm ((hperm.map Prod.snd).append_right _)).free
    have hact : onMachine (Action.free o)
        { session with objects := session.objects.erase name } = .ok () _ := onMachine_of_ok hfree
    refine ⟨m', ?_, (Action.store_free o).of_ok rfl hfree, haccounts.listed⟩
    rw [operate, leaves, run_withObject_of_some hresolve, run_modify_bind, run_bind_of_ok hact]
    rfl

/-- A controller that is destroyed leaves the session with its firmware structures, and what the machine
has stored stays. -/
theorem exists_leaves_destroy (h : Booked session) {i : Nat}
    (hi : session.controllers.get? name = some i) :
    ∃ m', leaves (operate (.destroy name)) session =
        { session with machine := m', controllers := session.controllers.erase name } ∧
      m'.store = session.machine.store ∧ m'.roster = session.machine.roster.set i none := by
  obtain ⟨⟨count, hmachine, -⟩, -⟩ := h
  obtain ⟨m', hteardown, -, hroster⟩ := hmachine.teardown i
  have hact : onMachine (Action.teardown i)
      { session with controllers := session.controllers.erase name } = .ok () _ :=
    onMachine_of_ok hteardown
  refine ⟨m', ?_, (Action.store_teardown i).of_ok rfl hteardown, hroster⟩
  rw [operate, leaves, run_withController_of_some hi, run_modify_bind, run_bind_of_ok hact]
  rfl

/-- No request changes the roster. -/
theorem roster_request (h : Booked session) (controller name : String) (size align : Nat)
    (zeroed : Bool) : (request controller name size align zeroed session).2.machine.roster =
      session.machine.roster := by
  rw [request, outcome_allocate]
  cases hi : session.controllers.get? controller with
  | none => rfl
  | some i =>
    dsimp only
    by_cases hused : (session.objects.get? name).isSome = true
    · rw [if_pos hused]
    · rw [if_neg hused]
      have hallocate := @Accounts.allocate _ session.live _ (h.index_lt hi) size align zeroed
      cases hact : (Action.allocate i size align zeroed : Action Device _) session.machine with
      | error f m' => exact (hallocate.of_error h.accounts hact).listed
      | ok answer m' =>
        cases answer with
        | error cause => exact (hallocate.of_refused h.accounts hact).listed
        | ok o => exact (hallocate.of_ok h.accounts hact).1.listed

/-! ## One controller -/

/-- A session with one controller, which is right about the window. -/
structure Single (gpu : String) (session : Session Device) : Prop where
  booked : Booked session
  settled : Settled 0 session.machine
  bounded : Bounded 1 session.machine
  named : ∀ entry ∈ session.controllers, entry = (gpu, 0)

/-- The firmware structures on a record under the names of their controller. -/
def firmwareEntries (gpu : String) : Option FirmwareObjects → List (Target × InstanceObject)
  | none => []
  | some firmware => [(.firmware gpu .vbios, firmware.vbios), (.firmware gpu .ramht, firmware.ramht),
    (.firmware gpu .ramro, firmware.ramro), (.firmware gpu .ramfc, firmware.ramfc)]

/-- The live objects under their names, for a session with one controller. -/
def entries (gpu : String) (session : Session Device) : List (Target × InstanceObject) :=
  session.objects.map (fun entry => (.object entry.1, entry.2)) ++
    session.machine.roster.flatMap (firmwareEntries gpu)

theorem map_entries (gpu : String) (session : Session Device) :
    (session.entries gpu).map Prod.snd = session.live := by
  have hfirmware : ∀ firmware, (firmwareEntries gpu firmware).map Prod.snd =
      FirmwareObjects.listed firmware := by
    intro firmware
    cases firmware <;> rfl
  rw [entries, live, List.map_append, List.map_map, List.map_flatMap, Directory.values]
  simp only [hfirmware]
  rfl

namespace Single

/-- What a target stands for is live, and goes under its name only. -/
theorem mem_entries (h : Single gpu session) (ho : session.resolve? target = some o) :
    (target, o) ∈ session.entries gpu := by
  cases target with
  | object name =>
    refine List.mem_append_left _ (List.mem_map.mpr ⟨(name, o), ?_, rfl⟩)
    exact Directory.mem_of_get? ho
  | firmware controller name =>
    rw [resolve?_firmware, Option.bind_eq_some_iff] at ho
    obtain ⟨i, hi, ho⟩ := ho
    obtain ⟨rfl, rfl⟩ := Prod.mk.inj (h.named _ (Directory.mem_of_get? hi))
    obtain ⟨firmware, hfirmware, rfl⟩ := Option.map_eq_some_iff.mp ho
    refine List.mem_append_right _ (List.mem_flatMap.mpr ⟨some firmware, ?_, ?_⟩)
    · exact List.mem_of_getElem? (Option.join_eq_some_iff.mp hfirmware)
    · cases name <;> simp only [firmwareEntries, FirmwareObjects.get, List.mem_cons, true_or, or_true]

/-- The objects of the only controller are its own. -/
theorem owner_eq (h : Single gpu session) (ho : o ∈ session.live) : o.owner = 0 := by
  have howner := (h.booked.accounts.made o ho).2.1
  have hlength := h.bounded.length
  rw [Machine.length_roster] at howner
  omega

theorem placed (h : Single gpu session) (ho : session.resolve? target = some o) :
    Placed session.machine o :=
  h.booked.accounts.placed h.bounded.low (live_of_resolve? ho)

theorem settled_owner (h : Single gpu session) (ho : session.resolve? target = some o) :
    Settled o.owner session.machine := by
  rw [h.owner_eq (live_of_resolve? ho)]
  exact h.settled

/-- **Live objects of different names share no place.** -/
theorem separate (h : Single gpu session) : Separate session := by
  intro target other o o' ho ho' hne
  have hlive : session.live.Pairwise InstanceObject.Apart := by
    refine h.booked.accounts.apart.imp_of_mem fun hmem hmem' hapart => hapart ?_
    intro _
    exact (h.owner_eq hmem).trans (h.owner_eq hmem').symm
  rw [← map_entries gpu, List.pairwise_map] at hlive
  have hsymm : Std.Symm fun entry entry' : Target × InstanceObject => entry.2.Apart entry'.2 :=
    ⟨fun _ _ hapart => hapart.symm⟩
  apply hlive.forall (h.mem_entries ho) (h.mem_entries ho')
  intro heq
  exact hne (congrArg Prod.fst heq)

end Single
end Session
end InstanceMemory
