import InstanceMemory.Proofs.Machine.Trust
import InstanceMemory.Proofs.Session.Shelf
import InstanceMemory.Proofs.Session.Windowed

/-!
# Controllers that share a window

Every controller of a device remembers for itself which window it selected last, but there is one
window register. While a controller remembers a window that another has moved since, its accesses
to that window go astray: they read and write in the window that the register selects
(`Coherent.read_astray`, `Coherent.write_astray`). That is all that can go wrong. In a run whose writes
find their controllers right about the window, objects are the arrays of words they are with one
controller, whichever controllers are built and destroyed, and whichever of them the objects belong to
(`Session.run_coherent`). Reads cannot do harm, only answer wrongly themselves.

`run_incoherent` is a run after which a read and a write do go astray.
-/

set_option autoImplicit false

namespace InstanceMemory

open Simulator (Config Device Move)
open Simulator.Session (Rearmed after run)

/-- The move writes the words it is about. -/
def Simulator.Move.writes : Move → Bool
  | .operation (.write32 ..) | .operation (.writeWords ..) | .operation (.fill ..)
  | .operation (.allocate ..) => true
  | _ => false

namespace Session

/-- If a move writes, the owner of the object is right about the window of the first word. About the
windows of the other words it cannot be wrong, as the register is written on the way. -/
def Trusts (session : Session Device) (move : Move) : Prop :=
  move.writes = true → ∀ a ∈ session.accessed? move, 0 < a.words →
    session.machine.Right a.object.owner (a.object.window a.offset)

instance (session : Session Device) (move : Move) : Decidable (session.Trusts move) :=
  inferInstanceAs (Decidable (_ → _))

/-- No write of a run goes astray. -/
def TrustsAll : List Move → Session Device → Prop
  | [], _ => True
  | move :: rest, session => session.Trusts move ∧ TrustsAll rest (after session move)

instance decidableTrustsAll : (moves : List Move) → (session : Session Device) →
    Decidable (TrustsAll moves session)
  | [], _ => .isTrue trivial
  | move :: rest, session =>
    have := decidableTrustsAll rest (after session move)
    inferInstanceAs (Decidable (_ ∧ _))

variable {session later : Session Device} {size : Nat} {target : Target} {o : InstanceObject}
  {m' : Machine Device} {name : String} {α : Type}

/-- The session stands for a shelf, and no controller has firmware structures. -/
structure Follows (shelf : Shelf) (session : Session Device) : Prop where
  bare : ∀ firmware ∈ session.machine.roster, firmware = none
  shelf_eq : session.shelf = shelf

/-- Without firmware structures only names of objects stand for something. -/
theorem resolve?_of_bare (h : ∀ firmware ∈ session.machine.roster, firmware = none)
    (controller : String) (key : FirmwareName) :
    session.resolve? (.firmware controller key) = none := by
  rw [resolve?_firmware, Option.bind_eq_none_iff]
  intro i _
  cases hi : session.machine.roster[i]? with
  | none => rfl
  | some firmware =>
    rw [h firmware (List.mem_of_getElem? hi)]
    rfl

/-- Without firmware structures it does not matter to the shelf which controllers there are. -/
theorem shelf_of_bare (h : ∀ firmware ∈ session.machine.roster, firmware = none)
    (hlater : ∀ firmware ∈ later.machine.roster, firmware = none)
    (hobjects : later.objects = session.objects)
    (hcontents : ∀ o, later.machine.contents o = session.machine.contents o) :
    later.shelf = session.shelf := by
  refine shelf_congr (fun target => ?_) fun _ o _ => hcontents o
  cases target with
  | object key => rw [resolve?, resolve?, hobjects]
  | firmware controller key => rw [resolve?_of_bare h, resolve?_of_bare hlater]

/-- A session whose controllers share a window, and have no firmware structures. -/
structure Shared (size : Nat) (session : Session Device) : Prop where
  booked : Booked session
  windowed : Windowed size session.machine
  low : Simulator.systemMemoryBase + size ≤ resolveBit
  bare : ∀ firmware ∈ session.machine.roster, firmware = none

namespace Shared

theorem low_machine (h : Shared size session) : Low session.machine := by
  rw [Low, h.windowed.size_eq]
  exact h.low

theorem placed (h : Shared size session) (ho : session.resolve? target = some o) :
    Placed session.machine o :=
  h.booked.accounts.placed h.low_machine (live_of_resolve? ho)

theorem strategy_ne_heap (h : Shared size session) (ho : session.resolve? target = some o) :
    o.strategy ≠ .heap := by
  rw [(h.booked.accounts.made o (live_of_resolve? ho)).2.2]
  exact h.windowed.strategy_ne_heap

/-- **Live objects share no place**, whichever controllers they belong to. -/
theorem separate (h : Shared size session) : Separate session := by
  intro target other o o' ho ho' hne
  have hlive := (List.pairwise_append.mp
    (h.booked.accounts.apart_in_memory h.windowed.strategy_ne_heap)).1
  rw [Directory.values, List.pairwise_map] at hlive
  have hsymm : Std.Symm fun entry entry' : String × InstanceObject => entry.2.Apart entry'.2 :=
    ⟨fun _ _ hapart => hapart.symm⟩
  cases target with
  | firmware controller name =>
    rw [resolve?_of_bare h.bare] at ho
    cases ho
  | object name =>
    cases other with
    | firmware controller name =>
      rw [resolve?_of_bare h.bare] at ho'
      cases ho'
    | object other =>
      apply hlive.forall (Directory.mem_of_get? ho) (Directory.mem_of_get? ho')
      intro heq
      exact hne (congrArg (fun entry : String × InstanceObject => Target.object entry.1) heq)

/-! ## Accesses -/

/-- What has the same on its books has as bare a roster. -/
theorem bare_of_books (h : Shared size session) (hbooks : m'.books = session.machine.books) :
    ∀ firmware ∈ m'.roster, firmware = none := by
  rw [Machine.roster_of_plan (Machine.plan_of_books hbooks)]
  exact h.bare

/-- **A write to an object changes its words, and those of no other object.** -/
theorem withObject (h : Shared size session) {act : InstanceObject → Action Device α}
    (reply : α → Outcome Reply) {f : List UInt32 → List UInt32}
    (hact : ∀ o, session.resolve? target = some o → Placed session.machine o → o.strategy ≠ .heap →
      Touched o (f (session.machine.contents o)) session.machine (leaves (act o) session.machine)) :
    Follows (session.shelf.change target f) (leaves
      (Session.withObject target fun o => onMachine (act o) >>= fun a => pure (reply a)) session) := by
  cases ho : session.resolve? target with
  | none =>
    have hnone : session.shelf target = none := by
      rw [shelf, ho, Option.map_none]
    rw [leaves_of_ok (run_withObject_of_none ho _), Shelf.change_of_none hnone]
    exact ⟨h.bare, rfl⟩
  | some o =>
    have htouched := hact o ho (h.placed ho) (h.strategy_ne_heap ho)
    rw [leaves_withObject ho]
    exact ⟨h.bare_of_books htouched.books, shelf_change h.separate
      (resolve?_setMachine htouched.books) ho htouched.contents htouched.others⟩

/-- A read changes no words. -/
theorem withObject_of_read (h : Shared size session) {act : InstanceObject → Action Device α}
    (reply : α → Outcome Reply)
    (hbooks : ∀ o, (leaves (act o) session.machine).books = session.machine.books)
    (hact : ∀ o o', (leaves (act o) session.machine).contents o' = session.machine.contents o') :
    Follows session.shelf (leaves
      (Session.withObject target fun o => onMachine (act o) >>= fun a => pure (reply a)) session) := by
  cases ho : session.resolve? target with
  | none =>
    rw [leaves_of_ok (run_withObject_of_none ho _)]
    exact ⟨h.bare, rfl⟩
  | some o =>
    rw [leaves_withObject ho]
    exact ⟨h.bare_of_books (hbooks o),
      shelf_congr (resolve?_setMachine (hbooks o)) fun _ o' _ => hact o o'⟩

/-- The owner of an object is right about the window that a trusted write begins with. -/
theorem right {move : Move} (htrusts : session.Trusts move) (hwrites : move.writes = true)
    {offset words : Nat} (haccess : o.Fits offset words →
      session.accessed? move = some ⟨o, offset, words⟩) :
    o.Touches offset words → session.machine.Right o.owner (o.window offset) := by
  rintro ⟨hfits, hpos⟩
  exact htrusts hwrites ⟨o, offset, words⟩ (haccess hfits) hpos

/-! ## Controllers -/

/-- A change of phase changes no words. -/
theorem withController (h : Shared size session) {act : Nat → Action Device α}
    (reply : α → Outcome Reply)
    (hbooks : ∀ i, (leaves (act i) session.machine).books = session.machine.books)
    (hact : ∀ P i, Keeps (QuietWith P) (act i)) :
    Follows session.shelf (leaves
      (Session.withController name fun i => onMachine (act i) >>= fun a => pure (reply a))
        session) := by
  cases hi : session.controllers.get? name with
  | none =>
    rw [leaves_of_ok (run_withController_of_none hi _)]
    exact ⟨h.bare, rfl⟩
  | some i =>
    have hhardware := (hact (· = session.machine.hardware) i _ ⟨h.windowed.quiet, rfl⟩).device
    rw [leaves_withController hi]
    exact ⟨h.bare_of_books (hbooks i), shelf_congr (resolve?_setMachine (hbooks i))
      fun _ o _ => Machine.contents_of_hardware hhardware o⟩

/-- A new controller has no firmware structures, and changes no words. -/
theorem build (h : Shared size session) (name : String) :
    Follows session.shelf (leaves (operate (.build name)) session) := by
  rw [operate, leaves, run_get_bind, ← leaves]
  by_cases hused : (session.controllers.get? name).isSome = true
  · rw [if_pos hused]
    exact ⟨h.bare, rfl⟩
  · rw [if_neg hused]
    rcases Action.build_cases (m := session.machine) h.windowed.memory with
      ⟨cause, hact⟩ | ⟨c, journal, -, -, hfirmware, hact⟩ <;>
      rw [leaves, run_bind_of_ok (onMachine_of_ok hact), ← leaves]
    · exact ⟨h.bare, rfl⟩
    · have hbare : ∀ firmware ∈ (session.machine.controllers ++ [c]).map (·.firmware),
          firmware = none := by
        rw [List.map_append, List.forall_mem_append]
        exact ⟨h.bare, fun _ hmem => (List.mem_singleton.mp hmem).trans hfirmware⟩
      exact ⟨hbare, shelf_of_bare h.bare hbare rfl fun o => rfl⟩

/-- The objects of a controller that is destroyed stay, with their words. -/
theorem destroy (h : Shared size session) (name : String) :
    Follows session.shelf (leaves (operate (.destroy name)) session) := by
  cases hi : session.controllers.get? name with
  | none =>
    rw [operate, leaves_of_ok (run_withController_of_none hi _)]
    exact ⟨h.bare, rfl⟩
  | some i =>
    obtain ⟨m', hleaves, hstore, hroster⟩ := exists_leaves_destroy h.booked hi
    have hbare : ∀ firmware ∈ m'.roster, firmware = none := by
      intro firmware hmem
      rw [hroster] at hmem
      rcases List.mem_or_eq_of_mem_set hmem with hmem | rfl
      · exact h.bare firmware hmem
      · rfl
    rw [hleaves]
    exact ⟨hbare, shelf_of_bare h.bare hbare rfl (Machine.contents_of_store hstore)⟩

/-! ## Objects that come and go -/

/-- **A request puts new words on the shelf**, or leaves it as it is. -/
theorem allocate (h : Shared size session) {controller name : String} {bytes align : Nat}
    {zeroed : Bool}
    (htrusts : session.Trusts (.operation (.allocate controller name bytes align zeroed))) :
    Follows (session.shelf.after session (.operation (.allocate controller name bytes align zeroed)))
      (request controller name bytes align zeroed session).2 := by
  have hbare : ∀ firmware ∈ (request controller name bytes align zeroed session).2.machine.roster,
      firmware = none := by
    rw [roster_request h.booked]
    exact h.bare
  have hlater : Shared size (request controller name bytes align zeroed session).2 :=
    ⟨h.booked.after session (.operation (.allocate controller name bytes align zeroed)),
      windowed_after session (.operation (.allocate controller name bytes align zeroed)) h.windowed,
      h.low, hbare⟩
  refine ⟨hbare, shelf_request h.booked hlater.separate ?_⟩
  intro i hi hunused
  have haccounts := h.booked.accounts
  have hlt := h.booked.index_lt hi
  -- the zeros go to the object that the request makes without them
  have hright : ∀ o m', Action.allocate i bytes align false session.machine = .ok (.ok o) m' →
      zeroed = true → o.Touches 0 o.words → session.machine.Right i (o.window 0) := by
    rintro o m' hact rfl ⟨-, hpos⟩
    have howner : o.owner = i :=
      ((Accounts.allocate hlt bytes align false).of_ok haccounts hact).2
    have haccess : session.accessed? (.operation (.allocate controller name bytes align true)) =
        some o.wholly := by
      rw [accessed?, request, outcome_allocate, hi]
      simp only [hunused, Option.isSome_none, Bool.false_eq_true, ↓reduceIte, hact]
      rfl
    rw [← howner]
    exact htrusts rfl o.wholly haccess hpos
  obtain ⟨answer, m', hact, -, hmade⟩ := h.windowed.quiet.allocate haccounts h.low_machine
    h.windowed.strategy_ne_heap hlt bytes align zeroed hright
  exact ⟨answer, m', hact, hmade⟩

/-- **An object that is freed takes its words off the shelf**, and no others. -/
theorem free (h : Shared size session) (name : String) :
    Follows (session.shelf.after session (.operation (.free name)))
      (leaves (operate (.free name)) session) := by
  obtain ⟨m', hleaves, hstore, hroster⟩ := exists_leaves_free h.booked name
  have hbare : ∀ firmware ∈ m'.roster, firmware = none := by
    rw [hroster]
    exact h.bare
  rw [hleaves]
  exact ⟨hbare, shelf_erase rfl rfl hroster (Machine.contents_of_store hstore)⟩

/-! ## Every move -/

/-- **Every move whose write does not go astray does to the shelf what it says.** -/
theorem follows_after (h : Shared size session) {move : Move} (htrusts : session.Trusts move) :
    Follows (session.shelf.after session move) (Simulator.Session.after session move) := by
  have hquiet := h.windowed.quiet
  cases move with
  | faults probe hfaults =>
    obtain ⟨d, ⟨pageBudget, refusesBuffers, f, refusesBars, rfl⟩, hleaves⟩ :=
      Simulator.Session.probe_setsFaults hfaults session
    rw [Simulator.Session.after, Simulator.Session.outcome_snd, hleaves]
    exact ⟨h.bare, shelf_of_bare h.bare h.bare rfl fun _ => rfl⟩
  | operation operation =>
    rw [Simulator.Session.after, Simulator.Session.outcome_snd]
    cases operation with
    | build name => exact h.build name
    | destroy name => exact h.destroy name
    | init name =>
      exact h.withController _ (fun i => Action.books_init i _ rfl) fun _ => QuietWith.phaseless.init
    | suspend name =>
      exact h.withController _ (fun i => Action.books_suspend i _ rfl) fun _ => QuietWith.phaseless.suspend
    | resume name =>
      exact h.withController _ (fun i => Action.books_resume i _ rfl) fun _ => QuietWith.phaseless.resume
    | allocate controller name bytes align zeroed =>
      rw [← Simulator.Session.outcome_snd]
      exact h.allocate htrusts
    | free name => exact h.free name
    | read32 target offset =>
      exact h.withObject_of_read _ (fun o => Action.books_read32 o offset _ rfl)
        fun o o' => hquiet.contents_read32 o o' offset
    | write32 target offset value =>
      refine h.withObject _ fun o ho hplaced hstrategy =>
        hquiet.leaves_write32 hplaced hstrategy offset value (right htrusts rfl ?_)
      intro hfits
      rw [accessed?, ho, Option.bind_some, InstanceObject.access?, if_pos hfits]
    | readWords target offset words =>
      exact h.withObject_of_read _ (fun o => Action.books_readWords o offset words _ rfl)
        fun o o' => hquiet.contents_readWords o o' offset words
    | writeWords target offset values =>
      refine h.withObject _ fun o ho hplaced hstrategy =>
        hquiet.leaves_writeWords hplaced hstrategy offset values (right htrusts rfl ?_)
      intro hfits
      rw [accessed?, ho, Option.bind_some, InstanceObject.access?, if_pos hfits]
    | fill target value =>
      refine h.withObject _ fun o ho hplaced hstrategy =>
        hquiet.leaves_fill hplaced hstrategy value (right htrusts rfl ?_)
      intro _
      rw [accessed?, ho]
      rfl
    | scan target =>
      exact h.withObject_of_read _ (fun o => Action.books_readWords o 0 o.words _ rfl)
        fun o o' => hquiet.contents_readWords o o' 0 o.words

theorem after (h : Shared size session) {move : Move} (htrusts : session.Trusts move) :
    Shared size (Simulator.Session.after session move) :=
  ⟨h.booked.after session move, windowed_after session move h.windowed, h.low,
    (h.follows_after htrusts).bare⟩

/-- **Every run whose writes do not go astray does to the shelf what its moves say.** -/
theorem run {moves : List Move} (h : Shared size session) (htrusts : TrustsAll moves session) :
    Shared size (Simulator.Session.run moves session) ∧
      (Simulator.Session.run moves session).shelf = session.shelf.run moves session := by
  induction moves generalizing session with
  | nil => exact ⟨h, rfl⟩
  | cons move rest ih =>
    obtain ⟨hmove, hrest⟩ := htrusts
    have hshelf := (h.follows_after hmove).shelf_eq
    rw [Shelf.run, ← hshelf]
    exact ih (h.after hmove) hrest

end Shared

/-! ## What shows -/

/-- What shows of a session whose controllers share a window is what stands on a shelf, to the device
and to every controller that is right about the window. To the others something else shows. -/
structure Coherent (shelf : Shelf) (session : Session Device) : Prop where
  /-- The live objects have words on the shelf, as many as they are large, and nothing else has. -/
  objects : ∀ target, (shelf target).map List.length = (session.resolve? target).map (·.words)
  device : ∀ target o words k value, session.resolve? target = some o → shelf target = some words →
    words[k]? = some value → session.machine.hardware.read (o.offset + k * wordSize) = .ok value
  read32 : ∀ target o words k value, session.resolve? target = some o → shelf target = some words →
    words[k]? = some value → session.machine.Right o.owner (o.window (k * wordSize)) →
      (outcome (operate (.read32 target (k * wordSize))) session).1 = .reply (.word value)
  /-- A write is answered, and changes the word that it addresses and nothing else in memory. -/
  write32 : ∀ target o k value, session.resolve? target = some o → k < o.words →
    session.machine.Right o.owner (o.window (k * wordSize)) →
      (outcome (operate (.write32 target (k * wordSize) value)) session).1 = .reply .nothing ∧
        ∀ place, (outcome (operate (.write32 target (k * wordSize) value))
            session).2.machine.hardware.readAt place =
          if place = o.place (k * wordSize) then value else session.machine.hardware.readAt place
  /-- A controller that is wrong about the window reads in the one that the register selects. -/
  read_astray : ∀ target o k value, session.resolve? target = some o → k < o.words →
    ¬ session.machine.Right o.owner (o.window (k * wordSize)) →
      session.machine.hardware.read (session.machine.hardware.selectedBase +
        windowOffset (o.offset + k * wordSize)) = .ok value →
        (outcome (operate (.read32 target (k * wordSize))) session).1 = .reply (.word value)
  /-- It writes there as well. -/
  write_astray : ∀ target o k value d, session.resolve? target = some o → k < o.words →
    ¬ session.machine.Right o.owner (o.window (k * wordSize)) →
      Device.write (session.machine.hardware.selectedBase + windowOffset (o.offset + k * wordSize))
        value session.machine.hardware = .ok () d →
        (outcome (operate (.write32 target (k * wordSize) value)) session).2.machine.hardware = d

namespace Shared

/-- **A session shows its shelf** where its controllers are right about the window. -/
theorem coherent (h : Shared size session) : Coherent session.shelf session where
  objects := session.map_length_shelf
  device target o words k value ho hwords hk := read_of_shelf ho (h.placed ho) hwords hk
  read32 target o words k value ho hwords hk hright := by
    rw [shelf, ho, Option.map_some, Option.some.injEq] at hwords
    subst hwords
    have hlt := Machine.lt_words_of_getElem? hk
    obtain ⟨read, m', hread, hvalue⟩ :=
      h.windowed.quiet.read32 (h.placed ho) (h.strategy_ne_heap ho) hlt hright
    obtain rfl := Option.some.inj (hk.symm.trans hvalue)
    exact congrArg Prod.fst (outcome_withObject ho hread _)
  write32 target o k value ho hk hright := by
    obtain ⟨m', hwrite, hplaces⟩ :=
      h.windowed.quiet.write32 (h.placed ho) (h.strategy_ne_heap ho) hk hright value
    have houtcome : outcome (operate (.write32 target (k * wordSize) value)) session =
        (.reply .nothing, { session with machine := m' }) :=
      outcome_withObject ho hwrite fun _ => .reply .nothing
    rw [houtcome]
    exact ⟨rfl, hplaces⟩
  read_astray target o k value ho hk hwrong hread := by
    obtain ⟨m', hact⟩ :=
      h.windowed.quiet.read32_astray (h.placed ho) (h.strategy_ne_heap ho) hk hwrong hread
    exact congrArg Prod.fst (outcome_withObject ho hact _)
  write_astray target o k value d ho hk hwrong hwrite := by
    obtain ⟨m', hact, hhardware⟩ :=
      h.windowed.quiet.write32_astray (h.placed ho) (h.strategy_ne_heap ho) hk hwrong hwrite
    have houtcome : outcome (operate (.write32 target (k * wordSize) value)) session =
        (.reply .nothing, { session with machine := m' }) :=
      outcome_withObject ho hact fun _ => .reply .nothing
    rw [houtcome, ← hhardware]

/-- A session starts with nothing on the shelf. -/
theorem start {config : Config} {journalOpen : Bool} {host : Simulator.Host}
    (h : Simulator.Session.start config journalOpen host = .ok session) (hmemory : config.hasVram = false)
    (hlow : Simulator.systemMemoryBase + config.systemMemorySize ≤ resolveBit) :
    Shared config.systemMemorySize session ∧ session.shelf = fun _ => none := by
  have hbooked := Booked.start h
  have hwindowed := windowed_start h hmemory
  obtain ⟨device, shared, -, rfl⟩ := Simulator.Session.start_eq_ok h
  refine ⟨⟨hbooked, hwindowed, hlow, fun _ hmem => absurd hmem List.not_mem_nil⟩, ?_⟩
  funext target
  cases target <;> rfl

end Shared

/-- **Objects of all controllers are coherent** on every device without dedicated memory whose system
memory lies below the resolve bit, after every run in which no write goes astray. Controllers may be
built and destroyed in any order, and objects outlive their controllers. -/
theorem run_coherent {config : Config} {journalOpen : Bool} {host : Simulator.Host}
    (h : Simulator.Session.start config journalOpen host = .ok session) (hmemory : config.hasVram = false)
    (hlow : Simulator.systemMemoryBase + config.systemMemorySize ≤ resolveBit) {moves : List Move}
    (htrusts : TrustsAll moves session) :
    Coherent (Shelf.run moves session fun _ => none) (run moves session) := by
  obtain ⟨hshared, hshelf⟩ := Shared.start h hmemory hlow
  obtain ⟨hlast, hrun⟩ := hshared.run htrusts
  rw [← hshelf, ← hrun]
  exact hlast.coherent

/-- Objects of two controllers in one window, one of which outlives its controller. -/
theorem run_coherent_outliving : ∃ session : Session Device,
    Simulator.Session.start { Config.systemMemory 0xea with iommuSpace := some 0x10000 } false =
        .ok session ∧
      let moves : List Move := [.operation (.build "first"),
        .operation (.allocate "first" "table" 0x2000 0 false),
        .operation (.write32 (.object "table") 0x1000 1), .operation (.destroy "first"),
        .operation (.build "second"), .operation (.allocate "second" "other" 0x1000 0 false),
        .operation (.write32 (.object "other") 0 2), .operation (.read32 (.object "table") 0x1000)]
      Coherent (Shelf.run moves session fun _ => none) (run moves session) := by
  have hstart : Simulator.Session.start
      { Config.systemMemory 0xea with iommuSpace := some 0x10000 } false = .ok _ := rfl
  exact ⟨_, hstart, run_coherent hstart rfl (by decide) (by decide +kernel)⟩

/-- An object outlives its controller, and another controller moves the window. The object then reads
as its neighbour in the other window, and what is written to it goes to the neighbour. -/
theorem run_incoherent : ∃ session : Session Device,
    Simulator.Session.start (Config.systemMemory 0xea) false = .ok session ∧
      let moves : List Move := [.operation (.build "first"),
        .operation (.allocate "first" "table" 0x1000 0 false),
        .operation (.allocate "first" "gap" 0xff000 0 false),
        .operation (.write32 (.object "table") 0 1), .operation (.destroy "first"),
        .operation (.build "second"), .operation (.allocate "second" "other" 0x1000 0 false),
        .operation (.write32 (.object "other") 0 2)]
      let shelf := Shelf.run moves session fun _ => none
      let last := run moves session
      (shelf (.object "table")).bind (·[0]?) = some 1 ∧
        (outcome (operate (.read32 (.object "table") 0)) last).1 = .reply (.word 2) ∧
        (shelf (.object "other")).bind (·[0]?) = some 2 ∧
        (outcome (operate (.read32 (.object "other") 0))
          (after last (.operation (.write32 (.object "table") 0 3)))).1 = .reply (.word 3) := by
  have hstart : Simulator.Session.start (Config.systemMemory 0xea) false = .ok _ := rfl
  exact ⟨_, hstart, by decide +kernel⟩

end Session
end InstanceMemory
