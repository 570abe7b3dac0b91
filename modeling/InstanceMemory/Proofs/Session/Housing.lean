import InstanceMemory.Proofs.Machine.Extents
import InstanceMemory.Proofs.Session.Sharing

/-!
# Sessions on dedicated memory

All objects of a session on a device with dedicated memory lie in it. The session stays `Housed`
(`Housed.after`): every controller has its firmware structures at the same place at the bottom of the
memory, and the objects that are asked for lie behind them.

A move changes no words but those that it is about, and a new controller zeroes one of its firmware
structures (`Housed.outside_after`). To the names it does one of five things (`Housed.moves_after`):
it leaves them alone, builds or destroys a controller, grants an object, or frees one. What is granted
lies clear of the other objects of its controller (`Housed.granted`), and nothing is said of those of
other controllers.
-/

set_option autoImplicit false

namespace InstanceMemory

open Simulator (Config Device Move)
open Simulator.Session (after)

namespace Session

variable {session later : Session Device} {move : Move} {target other : Target}
  {o o' : InstanceObject} {r : AddressRange} {words : Nat → UInt32} {name : String} {α : Type}

/-! ## What moves write -/

/-- The addresses of the words that a move writes, if it is carried out. -/
def written (session : Session Device) (move : Move) : AddressRange :=
  match move with
  | .operation (.build _) => zeroedFirmware
  | move => if move.writes then ((session.accessed? move).map (·.extent)).getD ⟨0, 0⟩ else ⟨0, 0⟩

/-- A word that a move writes is one of its access, or one that the building of a controller zeroes. -/
theorem exists_of_holds_written {x : Nat} (hx : (session.written move).Holds x) :
    (∃ name, move = .operation (.build name) ∧ zeroedFirmware.Holds x) ∨
      (move.writes = true ∧ ∃ a, session.accessed? move = some a ∧ a.extent.Holds x) := by
  have hnothing : ¬ (⟨0, 0⟩ : AddressRange).Holds x := fun hx => Nat.not_lt_zero x hx.2
  unfold written at hx
  split at hx
  · exact .inl ⟨_, rfl, hx⟩
  · refine .inr ?_
    by_cases hwrites : move.writes = true
    · rw [if_pos hwrites] at hx
      cases ha : session.accessed? move with
      | none =>
        rw [ha] at hx
        exact absurd hx hnothing
      | some a =>
        rw [ha] at hx
        exact ⟨hwrites, a, rfl, hx⟩
    · rw [if_neg hwrites] at hx
      exact absurd hx hnothing

/-! ## Sessions on dedicated memory -/

/-- A session on dedicated memory, whose controllers have their firmware structures at the bottom of
it, and whose named objects lie behind them. -/
structure Housed (session : Session Device) : Prop where
  booked : Booked session
  hasVram : session.machine.hardware.config.hasVram = true
  laid : ∀ (i : Nat) (firmware : FirmwareObjects),
    session.machine.roster[i]? = some (some firmware) → firmware = .laid i
  equipped : ∀ (name : String) (i : Nat), session.controllers.get? name = some i →
    ∃ firmware, session.machine.roster[i]? = some (some firmware)
  distinct : ∀ (name other : String) (i : Nat), session.controllers.get? name = some i →
    session.controllers.get? other = some i → name = other
  behind : ∀ o ∈ session.objects.values, firmwareEnd ≤ o.offset

namespace Housed

theorem strategy_eq (h : Housed session) : session.machine.strategy = .heap :=
  (Accounts.hasVram_iff _).mpr h.hasVram

theorem heap (h : Housed session) (ho : o ∈ session.live) : o.strategy = .heap :=
  (h.booked.accounts.made o ho).2.2.trans h.strategy_eq

/-- What neither builds nor destroys a controller leaves the session housed, if the objects that it
makes lie where they should. -/
theorem congr (h : Housed session) (hbooked : Booked later)
    (hconfig : later.machine.hardware.config = session.machine.hardware.config)
    (hroster : later.machine.roster = session.machine.roster)
    (hcontrollers : later.controllers = session.controllers)
    (hbehind : ∀ o ∈ later.objects.values, firmwareEnd ≤ o.offset) : Housed later where
  booked := hbooked
  hasVram := (congrArg (·.hasVram) hconfig).trans h.hasVram
  laid := hroster ▸ h.laid
  equipped := hroster ▸ hcontrollers ▸ h.equipped
  distinct := hcontrollers ▸ h.distinct
  behind := hbehind

/-- What a firmware structure stands for is where all controllers have theirs. -/
theorem firmware (h : Housed session) {controller : String} {key : FirmwareName}
    (ho : session.resolve? (.firmware controller key) = some o) :
    ∃ i, session.controllers.get? controller = some i ∧ o = (FirmwareObjects.laid i).get key := by
  rw [resolve?_firmware, Option.bind_eq_some_iff] at ho
  obtain ⟨i, hi, ho⟩ := ho
  obtain ⟨firmware, hfirmware, rfl⟩ := Option.map_eq_some_iff.mp ho
  exact ⟨i, hi, h.laid i firmware (Option.join_eq_some_iff.mp hfirmware) ▸ rfl⟩

/-! ## What a move writes -/

/-- An access changes no words outside a range that it stays in. -/
theorem outside_withObject (h : Housed session) {act : InstanceObject → Action Device α}
    (reply : α → Outcome Reply)
    (hact : ∀ o, session.resolve? target = some o → o.strategy = .heap → Keeps (Outside r words) (act o))
    (hwords : Outside r words session.machine) :
    Outside r words (leaves
      (withObject target fun o => onMachine (act o) >>= fun a => pure (reply a)) session).machine := by
  cases ho : session.resolve? target with
  | none =>
    rw [leaves_of_ok (run_withObject_of_none ho _)]
    exact hwords
  | some o =>
    rw [leaves_withObject ho]
    exact hact o ho (h.heap (live_of_resolve? ho)) _ hwords

/-- A controller joins the session with its firmware structures, or none does. -/
theorem exists_leaves_build (h : Housed session) (name : String)
    (hwords : Outside zeroedFirmware words session.machine) :
    ∃ m', (leaves (operate (.build name)) session = { session with machine := m' } ∧
        ∃ firmware, (firmware = [] ∨ firmware = [none]) ∧ Sparing session.machine.hardware.config
          (session.machine.roster ++ firmware) zeroedFirmware words m') ∨
      (session.controllers.get? name = none ∧
        leaves (operate (.build name)) session = { session with
          machine := m'
          controllers := session.controllers.insert name session.machine.roster.length } ∧
        Sparing session.machine.hardware.config
          (session.machine.roster ++ [some (.laid session.machine.roster.length)]) zeroedFirmware words
          m') := by
  have hsparing : Sparing session.machine.hardware.config session.machine.roster zeroedFirmware words
      session.machine := ⟨rfl, rfl, hwords⟩
  have hbuild := @Action.build_lays words _ session.machine.roster h.hasVram
  rw [operate, leaves, run_get_bind, ← leaves]
  by_cases hused : (session.controllers.get? name).isSome = true
  · rw [if_pos hused]
    refine ⟨session.machine, .inl ⟨rfl, [], .inl rfl, ?_⟩⟩
    rwa [List.append_nil]
  · rw [if_neg hused, leaves]
    cases hact : (Action.build : Action Device _) session.machine with
    | error f m' =>
      rw [run_bind_of_error (onMachine_of_error hact)]
      exact ⟨m', .inl ⟨rfl, hbuild.of_error hsparing hact⟩⟩
    | ok answer m' =>
      rw [run_bind_of_ok (onMachine_of_ok hact)]
      cases answer with
      | error cause => exact ⟨m', .inl ⟨rfl, hbuild.of_refused hsparing hact⟩⟩
      | ok i =>
        obtain ⟨rfl, hlaid⟩ := hbuild.of_ok hsparing hact
        exact ⟨m', .inr ⟨Option.not_isSome_iff_eq_none.mp hused, rfl, hlaid⟩⟩

/-- A request changes no words but those of its object, and these only if it zeroes them. -/
theorem outside_allocate (h : Housed session) (controller name : String) (size align : Nat)
    (zeroed : Bool)
    (hwords : Outside (session.written (.operation (.allocate controller name size align zeroed))) words
      session.machine) :
    Outside (session.written (.operation (.allocate controller name size align zeroed))) words
      (request controller name size align zeroed session).2.machine := by
  by_cases hmade : ∃ i, session.controllers.get? controller = some i ∧ session.objects.get? name = none
  · obtain ⟨i, hi, hunused⟩ := hmade
    have hstore := @Action.store_allocate_unzeroed session.machine.store i size align
    rw [machine_request hi hunused, leaves, Action.run_allocate]
    cases hact : (Action.allocate i size align false : Action Device _) session.machine with
    | error f m₁ => exact hwords.of_vram (Machine.vram_of_store (hstore.of_error rfl hact))
    | ok answer m₁ =>
      have hm₁ := hwords.of_vram (Machine.vram_of_store (hstore.of_ok rfl hact))
      cases answer with
      | error cause => exact hm₁
      | ok o =>
        cases zeroed with
        | false => exact hm₁
        | true =>
          have haccounts :=
            ((Accounts.allocate (h.booked.index_lt hi) size align false).of_ok h.booked.accounts hact).1
          have hheap : o.strategy = .heap := by
            rw [(haccounts.made o List.mem_cons_self).2.2,
              Machine.strategy_of_store (hstore.of_ok rfl hact)]
            exact h.strategy_eq
          have hwritten : session.written (.operation (.allocate controller name size align true)) =
              o.wholly.extent := by
            simp only [written, Simulator.Move.writes, ↓reduceIte, accessed?,
              request_of_unused hi hunused, hact]
            rfl
          rw [hwritten] at hm₁ ⊢
          exact ((Action.keeps_orUndo (outside_fill hheap 0)
            (outside_of_store fun _ => Action.store_free o)).bind fun _ => keeps_pure _) m₁ hm₁
  · rw [request_of_refused hmade]
    exact hwords

/-- **No move changes a word but those that it writes**, whether it is answered or not. -/
theorem outside_after (h : Housed session) (move : Move)
    (hwords : Outside (session.written move) words session.machine) :
    Outside (session.written move) words (after session move).machine := by
  cases move with
  | faults probe hfaults =>
    obtain ⟨d, ⟨pageBudget, refusesBuffers, f, refusesBars, rfl⟩, hleaves⟩ :=
      Simulator.Session.probe_setsFaults hfaults session
    rw [Simulator.Session.after, Simulator.Session.outcome_snd, hleaves]
    exact hwords
  | operation operation =>
    rw [Simulator.Session.after, Simulator.Session.outcome_snd]
    cases operation with
    | build name =>
      obtain ⟨m', ⟨hleaves, firmware, -, hsparing⟩ | ⟨-, hleaves, hsparing⟩⟩ :=
        h.exists_leaves_build name hwords <;>
        (rw [hleaves]; exact hsparing.outside)
    | destroy name =>
      refine keeps_withController (P := fun session => Outside _ words session.machine) ?_ session hwords
      intro session i hwords _
      rw [leaves, run_modify_bind, ← leaves]
      exact (keeps_onMachine (outside_of_store fun _ => Action.store_teardown i)).bind
        (fun _ => keeps_pure _) _ hwords
    | init name => exact keeps_ofController outside_phaseless.init _ session hwords
    | suspend name => exact keeps_ofController outside_phaseless.suspend _ session hwords
    | resume name => exact keeps_ofController outside_phaseless.resume _ session hwords
    | allocate controller name size align zeroed =>
      rw [← Simulator.Session.outcome_snd]
      exact h.outside_allocate controller name size align zeroed hwords
    | free name =>
      refine keeps_withObject (P := fun session => Outside _ words session.machine) ?_ session hwords
      intro session o hwords _
      rw [leaves, run_modify_bind, ← leaves]
      exact (keeps_onMachine (outside_of_store fun _ => Action.store_free o)).bind
        (fun _ => keeps_pure _) _ hwords
    | read32 target offset =>
      exact h.outside_withObject _ (fun o _ hheap => outside_read32 hheap offset) hwords
    | readWords target offset count =>
      exact h.outside_withObject _ (fun o _ hheap => outside_readWords hheap offset count) hwords
    | scan target =>
      exact h.outside_withObject _ (fun o _ hheap => outside_readWords hheap 0 o.words) hwords
    | write32 target offset value =>
      refine h.outside_withObject _ (fun o ho hheap => outside_write32 hheap offset value ?_) hwords
      intro a ha
      simp only [written, Simulator.Move.writes, ↓reduceIte, accessed?, ho, Option.bind_some,
        Option.mem_def.mp ha, Option.map_some, Option.getD_some]
    | writeWords target offset values =>
      refine h.outside_withObject _ (fun o ho hheap => outside_writeWords hheap offset values ?_) hwords
      intro a ha
      simp only [written, Simulator.Move.writes, ↓reduceIte, accessed?, ho, Option.bind_some,
        Option.mem_def.mp ha, Option.map_some, Option.getD_some]
    | fill target value =>
      refine h.outside_withObject _ (fun o ho hheap => ?_) hwords
      simp only [written, Simulator.Move.writes, ↓reduceIte, accessed?, ho, Option.map_some,
        Option.getD_some]
      exact outside_fill hheap value

/-! ## What a move does to the names -/

/-- A request does not change what the device is made of. -/
theorem lasting_config (i : Nat) (config : Config) :
    Lasting i fun m : Machine Device => m.hardware.config = config where
  of_store _ _ hstore h := (congrArg (·.hardware.config) hstore).trans h
  zeroing o _ m h := (congrArg (·.hardware.config) (Action.books_fill o 0 m rfl)).trans h
  register register m h :=
    (congrArg (·.hardware.config) (Action.books_readRegister register m rfl)).trans h

/-- **An object that is granted lies behind the firmware structures**, and clear of the other objects of
its controller. -/
theorem granted (h : Housed session) {controller : String} {i size align : Nat} {zeroed : Bool}
    {m' : Machine Device} (hi : session.controllers.get? controller = some i)
    (hact : Action.allocate i size align zeroed session.machine = .ok (.ok o) m') :
    o.owner = i ∧ firmwareEnd ≤ o.offset ∧
      ∀ o' ∈ session.live, o'.owner = i → o.extent.Clear o'.extent := by
  obtain ⟨haccounts, howner⟩ :=
    (Accounts.allocate (h.booked.index_lt hi) size align zeroed).of_ok h.booked.accounts hact
  have hclear : ∀ o' ∈ session.live, o'.owner = i → o.extent.Clear o'.extent := fun o' ho' howner' =>
    (List.pairwise_cons.mp haccounts.clear).1 o' ho' fun _ => howner.trans howner'.symm
  obtain ⟨-, -, hpos⟩ := haccounts.paged List.mem_cons_self
  refine ⟨howner, ?_, hclear⟩
  -- every address before the end is taken by a firmware structure of the controller
  by_contra hlt
  obtain ⟨firmware, hfirmware⟩ := h.equipped controller i hi
  obtain rfl := h.laid i firmware hfirmware
  obtain ⟨o', ho', hholds⟩ :=
    (FirmwareObjects.exists_laid_holds i o.offset).mpr (Nat.lt_of_not_le hlt)
  have hlive : o' ∈ session.live := List.mem_append_right _
    (List.mem_flatMap.mpr ⟨_, List.mem_of_getElem? hfirmware, ho'⟩)
  have howner' : o'.owner = i := by
    obtain ⟨⟨count, hmachine, -⟩, -⟩ := h.booked
    exact hmachine.owned i _ hfirmware o' ho'
  exact (hclear o' hlive howner').not_holds hholds
    ⟨Nat.le_refl _, Nat.lt_add_of_pos_right hpos⟩

end Housed

/-- What a move does to the names, and to the firmware structures on record. -/
inductive Renames (session : Session Device) (move : Move) (later : Session Device) : Prop
  /-- The names stand for what they did. A controller that could not be built may have left a record. -/
  | stay (hcontrollers : later.controllers = session.controllers)
    (hobjects : later.objects = session.objects)
    (hroster : later.machine.roster = session.machine.roster ∨
      later.machine.roster = session.machine.roster ++ [none])
  | build (name : String) (hfree : session.controllers.get? name = none)
    (hcontrollers : later.controllers =
      session.controllers.insert name session.machine.roster.length)
    (hobjects : later.objects = session.objects)
    (hroster : later.machine.roster =
      session.machine.roster ++ [some (.laid session.machine.roster.length)])
  | destroy (name : String) (i : Nat) (hi : session.controllers.get? name = some i)
    (hcontrollers : later.controllers = session.controllers.erase name)
    (hobjects : later.objects = session.objects)
    (hroster : later.machine.roster = session.machine.roster.set i none)
  | grant (controller name : String) (size align : Nat) (zeroed : Bool) (o : InstanceObject)
    (hmove : move = .operation (.allocate controller name size align zeroed))
    (hobject : (request controller name size align false session).1.object? = some o)
    (hbehind : firmwareEnd ≤ o.offset)
    (hclear : ∀ o' ∈ session.live, o'.owner = o.owner → o.extent.Clear o'.extent)
    (hfree : name ∉ session.objects.map Prod.fst)
    (hcontrollers : later.controllers = session.controllers)
    (hobjects : later.objects = session.objects.insert name o)
    (hroster : later.machine.roster = session.machine.roster)
  | free (name : String) (hmove : move = .operation (.free name))
    (hcontrollers : later.controllers = session.controllers)
    (hobjects : later.objects = session.objects.erase name)
    (hroster : later.machine.roster = session.machine.roster)

/-- What becomes of a session by a move. -/
structure Moves (session : Session Device) (move : Move) (later : Session Device) : Prop where
  config : later.machine.hardware.config = session.machine.hardware.config
  names : Renames session move later

namespace Moves

theorem refl (session : Session Device) (move : Move) : Moves session move session :=
  ⟨rfl, .stay rfl rfl (.inl rfl)⟩

/-- What keeps the books leaves all names as they are. -/
theorem of_books {m' : Machine Device} (hbooks : m'.books = session.machine.books) :
    Moves session move { session with machine := m' } :=
  ⟨congrArg (·.hardware.config) hbooks,
    .stay rfl rfl (.inl (Machine.roster_of_plan (Machine.plan_of_books hbooks)))⟩

theorem withObject {act : InstanceObject → Action Device α} (reply : α → Outcome Reply)
    (hbooks : ∀ o books, Keeps (Machine.books · = books) (act o)) :
    Moves session move (leaves
      (withObject target fun o => onMachine (act o) >>= fun a => pure (reply a)) session) := by
  cases ho : session.resolve? target with
  | none =>
    rw [leaves_of_ok (run_withObject_of_none ho _)]
    exact refl session move
  | some o =>
    rw [leaves_withObject ho]
    exact of_books (hbooks o _ _ rfl)

theorem withController {act : Nat → Action Device α} (reply : α → Outcome Reply)
    (hbooks : ∀ i books, Keeps (Machine.books · = books) (act i)) :
    Moves session move (leaves
      (withController name fun i => onMachine (act i) >>= fun a => pure (reply a)) session) := by
  cases hi : session.controllers.get? name with
  | none =>
    rw [leaves_of_ok (run_withController_of_none hi _)]
    exact refl session move
  | some i =>
    rw [leaves_withController hi]
    exact of_books (hbooks i _ _ rfl)

end Moves

namespace Housed

/-- **A request that is granted adds its object under its name**; any other changes no names. -/
theorem moves_request (h : Housed session) (controller name : String) (size align : Nat)
    (zeroed : Bool) : Moves session (.operation (.allocate controller name size align zeroed))
      (request controller name size align zeroed session).2 := by
  by_cases hmade : ∃ i, session.controllers.get? controller = some i ∧ session.objects.get? name = none
  · obtain ⟨i, hi, hunused⟩ := hmade
    have hroster := roster_request h.booked controller name size align zeroed
    have hconfig : (request controller name size align zeroed session).2.machine.hardware.config =
        session.machine.hardware.config := by
      rw [machine_request hi hunused]
      exact (lasting_config i _).allocate size align zeroed _ rfl
    refine ⟨hconfig, ?_⟩
    rw [request_of_unused hi hunused] at hroster ⊢
    cases hact : (Action.allocate i size align zeroed : Action Device _) session.machine with
    | error f m' =>
      rw [hact] at hroster
      exact .stay rfl rfl (.inl hroster)
    | ok answer m' =>
      rw [hact] at hroster
      cases answer with
      | error cause => exact .stay rfl rfl (.inl hroster)
      | ok o =>
        obtain ⟨howner, hbehind, hclear⟩ := h.granted hi hact
        obtain ⟨m₁, hunzeroed⟩ := Action.allocate_unzeroed hact
        have hobject : (request controller name size align false session).1.object? = some o := by
          rw [request_of_unused hi hunused, hunzeroed]
          rfl
        exact .grant controller name size align zeroed o rfl hobject hbehind
          (fun o' ho' howner' => hclear o' ho' (howner'.trans howner))
          (Directory.get?_eq_none_iff.mp hunused) rfl rfl hroster
  · rw [request_of_refused hmade]
    exact .refl session _

/-- **Every move does one of five things to the names.** -/
theorem moves_after (h : Housed session) (move : Move) :
    Moves session move (after session move) := by
  cases move with
  | faults probe hfaults =>
    obtain ⟨d, ⟨pageBudget, refusesBuffers, f, refusesBars, rfl⟩, hleaves⟩ :=
      Simulator.Session.probe_setsFaults hfaults session
    rw [Simulator.Session.after, Simulator.Session.outcome_snd, hleaves]
    exact ⟨rfl, .stay rfl rfl (.inl rfl)⟩
  | operation operation =>
    rw [Simulator.Session.after, Simulator.Session.outcome_snd]
    cases operation with
    | build name =>
      obtain ⟨m', ⟨hleaves, firmware, hfirmware, hsparing⟩ | ⟨hfree, hleaves, hsparing⟩⟩ :=
        h.exists_leaves_build name (fun _ _ => rfl) <;> rw [hleaves]
      · refine ⟨hsparing.config, .stay rfl rfl ?_⟩
        rcases hfirmware with rfl | rfl
        · exact .inl (hsparing.roster.trans (List.append_nil _))
        · exact .inr hsparing.roster
      · exact ⟨hsparing.config, .build name hfree rfl rfl hsparing.roster⟩
    | destroy name =>
      cases hi : session.controllers.get? name with
      | none =>
        rw [operate, leaves_of_ok (run_withController_of_none hi _)]
        exact .refl session _
      | some i =>
        obtain ⟨m', hleaves, hstore, hroster⟩ := exists_leaves_destroy h.booked hi
        rw [hleaves]
        exact ⟨congrArg (·.hardware.config) hstore, .destroy name i hi rfl rfl hroster⟩
    | free name =>
      obtain ⟨m', hleaves, hstore, hroster⟩ := exists_leaves_free h.booked name
      rw [hleaves]
      exact ⟨congrArg (·.hardware.config) hstore, .free name rfl rfl rfl hroster⟩
    | allocate controller name size align zeroed =>
      rw [← Simulator.Session.outcome_snd]
      exact h.moves_request controller name size align zeroed
    | init name => exact .withController _ fun i _ => Action.books_init i
    | suspend name => exact .withController _ fun i _ => Action.books_suspend i
    | resume name => exact .withController _ fun i _ => Action.books_resume i
    | read32 target offset => exact .withObject _ fun o _ => Action.books_read32 o offset
    | write32 target offset value =>
      exact .withObject _ fun o _ => Action.books_write32 o offset value
    | readWords target offset count =>
      exact .withObject _ fun o _ => Action.books_readWords o offset count
    | writeWords target offset values =>
      exact .withObject _ fun o _ => Action.books_writeWords o offset values
    | fill target value => exact .withObject _ fun o _ => Action.books_fill o value
    | scan target => exact .withObject _ fun o _ => Action.books_readWords o 0 o.words

/-- A controller that is built changes no names of objects. -/
theorem objects_build (h : Housed session) (name : String) :
    (Simulator.Session.after session (.operation (.build name))).objects = session.objects := by
  cases (h.moves_after (.operation (.build name))).names with
  | stay hcontrollers hobjects hroster => exact hobjects
  | build name hfree hcontrollers hobjects hroster => exact hobjects
  | destroy name i hi hcontrollers hobjects hroster => exact hobjects
  | grant controller name size align zeroed o hmove => cases hmove
  | free name hmove => cases hmove

/-- A session whose names stand for what they did is housed, also with one record more. -/
theorem of_stay (h : Housed session) (hbooked : Booked later)
    (hconfig : later.machine.hardware.config = session.machine.hardware.config)
    (hroster : later.machine.roster = session.machine.roster ∨
      later.machine.roster = session.machine.roster ++ [none])
    (hcontrollers : later.controllers = session.controllers)
    (hobjects : later.objects = session.objects) : Housed later := by
  have hsame : ∀ (i : Nat) (firmware : FirmwareObjects),
      later.machine.roster[i]? = some (some firmware) ↔
        session.machine.roster[i]? = some (some firmware) := by
    intro i firmware
    rcases hroster with hroster | hroster
    · rw [hroster]
    · rw [hroster, getElem?_concat_eq_some]
      exact or_iff_left fun hlast => Option.some_ne_none _ hlast.2.symm
  refine ⟨hbooked, (congrArg (·.hasVram) hconfig).trans h.hasVram,
    fun i firmware hi => h.laid i firmware ((hsame i firmware).mp hi), ?_,
    hcontrollers ▸ h.distinct, hobjects ▸ h.behind⟩
  intro name i hi
  rw [hcontrollers] at hi
  obtain ⟨firmware, hfirmware⟩ := h.equipped name i hi
  exact ⟨firmware, (hsame i firmware).mpr hfirmware⟩

/-- A controller that is built is a new one, with its structures where all have theirs. -/
theorem of_build (h : Housed session) (hbooked : Booked later)
    (hconfig : later.machine.hardware.config = session.machine.hardware.config) {name : String}
    (hfree : session.controllers.get? name = none)
    (hcontrollers : later.controllers =
      session.controllers.insert name session.machine.roster.length)
    (hobjects : later.objects = session.objects)
    (hroster : later.machine.roster =
      session.machine.roster ++ [some (.laid session.machine.roster.length)]) : Housed later := by
  have hget : ∀ other, later.controllers.get? other =
      if other = name then some session.machine.roster.length
      else session.controllers.get? other := by
    intro other
    rw [hcontrollers, Directory.get?_insert (Directory.get?_eq_none_iff.mp hfree)]
  refine ⟨hbooked, (congrArg (·.hasVram) hconfig).trans h.hasVram, ?_, ?_, ?_, hobjects ▸ h.behind⟩
  · intro i firmware hi
    rw [hroster] at hi
    rcases getElem?_concat_eq_some.mp hi with hi | ⟨rfl, hlast⟩
    · exact h.laid i firmware hi
    · exact Option.some.inj hlast.symm
  · intro other i hi
    rw [hget] at hi
    rw [hroster]
    split at hi
    · obtain rfl := Option.some.inj hi
      exact ⟨_, List.getElem?_concat_length⟩
    · obtain ⟨firmware, hfirmware⟩ := h.equipped other i hi
      exact ⟨firmware, getElem?_concat_eq_some.mpr (.inl hfirmware)⟩
  · intro other another i hi hj
    rw [hget] at hi hj
    have hnew : ∀ {key}, session.controllers.get? key = some i →
        i ≠ session.machine.roster.length := fun hkey => Nat.ne_of_lt (h.booked.index_lt hkey)
    split at hi <;> split at hj
    · exact (‹other = name›).trans (‹another = name›).symm
    · exact absurd (Option.some.inj hi).symm (hnew hj)
    · exact absurd (Option.some.inj hj).symm (hnew hi)
    · exact h.distinct other another i hi hj

/-- A controller that is destroyed takes its structures with it, and no other. -/
theorem of_destroy (h : Housed session) (hbooked : Booked later)
    (hconfig : later.machine.hardware.config = session.machine.hardware.config) {name : String}
    {i : Nat} (hi : session.controllers.get? name = some i)
    (hcontrollers : later.controllers = session.controllers.erase name)
    (hobjects : later.objects = session.objects)
    (hroster : later.machine.roster = session.machine.roster.set i none) : Housed later := by
  have hget : ∀ other j, later.controllers.get? other = some j →
      other ≠ name ∧ session.controllers.get? other = some j := by
    intro other j hj
    rw [hcontrollers, Directory.get?_erase] at hj
    split at hj
    · cases hj
    · exact ⟨‹_›, hj⟩
  refine ⟨hbooked, (congrArg (·.hasVram) hconfig).trans h.hasVram, ?_, ?_, ?_, hobjects ▸ h.behind⟩
  · intro j firmware hj
    rw [hroster, List.getElem?_set] at hj
    split at hj
    · split at hj <;> cases hj
    · exact h.laid j firmware hj
  · intro other j hj
    obtain ⟨hne, hj⟩ := hget other j hj
    have hij : i ≠ j := fun heq => hne (h.distinct other name j hj (heq ▸ hi))
    rw [hroster, List.getElem?_set_ne hij]
    exact h.equipped other j hj
  · intro other another j hj hk
    exact h.distinct other another j (hget other j hj).2 (hget another j hk).2

/-- **Every move keeps a session housed.** -/
theorem after (h : Housed session) (move : Move) : Housed (Simulator.Session.after session move) := by
  have hbooked := h.booked.after session move
  obtain ⟨hconfig, hnames⟩ := h.moves_after move
  cases hnames with
  | stay hcontrollers hobjects hroster => exact h.of_stay hbooked hconfig hroster hcontrollers hobjects
  | build name hfree hcontrollers hobjects hroster =>
    exact h.of_build hbooked hconfig hfree hcontrollers hobjects hroster
  | destroy name i hi hcontrollers hobjects hroster =>
    exact h.of_destroy hbooked hconfig hi hcontrollers hobjects hroster
  | grant controller name size align zeroed o hmove hobject hbehind hclear hfree hcontrollers hobjects
      hroster =>
    refine h.congr hbooked hconfig hroster hcontrollers ?_
    intro o' ho'
    rw [hobjects] at ho'
    rcases List.mem_cons.mp (((Directory.insert_perm hfree).map Prod.snd).mem_iff.mp ho') with rfl | ho'
    · exact hbehind
    · exact h.behind o' ho'
  | free name hmove hcontrollers hobjects hroster =>
    refine h.congr hbooked hconfig hroster hcontrollers fun o' ho' => h.behind o' ?_
    rw [hobjects] at ho'
    exact ((Directory.erase_sublist name _).map Prod.snd).subset ho'

/-- A session on dedicated memory starts housed. -/
theorem start {config : Config} {journalOpen : Bool} {host : Simulator.Host}
    (h : Simulator.Session.start config journalOpen host = .ok session)
    (hvram : config.hasVram = true) :
    Housed session := by
  have hbooked := Booked.start h
  obtain ⟨device, shared, hstart, rfl⟩ := Simulator.Session.start_eq_ok h
  obtain ⟨memory, -, rfl, -⟩ := Device.start_eq_ok hstart
  refine ⟨hbooked, hvram, ?_, ?_, ?_, ?_⟩
  · intro i firmware hi
    cases hi
  · intro name i hi
    cases hi
  · intro name other i hi
    cases hi
  · intro o ho
    cases ho

end Housed
end Session
end InstanceMemory
