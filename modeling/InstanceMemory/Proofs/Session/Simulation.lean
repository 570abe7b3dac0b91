import InstanceMemory.Proofs.Session.Shelf

/-!
# Objects are independent arrays

A session with one controller is simulated by a shelf: every move does to the session's shelf what
`Shelf.after` says (`Single.after`), so every run does what `Shelf.run` says. In each of its states an
access within an object is answered from the shelf, and the device finds the words of the shelf at
the device addresses of the objects (`Session.run_simulated`).
-/

set_option autoImplicit false

namespace InstanceMemory.Session

open Simulator (Config Device Move)
open Simulator.Session (Rearmed after run)

variable {session : Session Device} {gpu name : String} {target : Target} {o : InstanceObject}
  {m' : Machine Device} {α : Type}

/-- A session has one controller, and stands for a shelf. -/
def Stands (gpu : String) (shelf : Shelf) (session : Session Device) : Prop :=
  Single gpu session ∧ session.shelf = shelf

namespace Single

theorem stands (h : Single gpu session) : Stands gpu session.shelf session := ⟨h, rfl⟩

/-- What an operation of a controller is carried out on is the only one there is. -/
theorem controller_eq (h : Single gpu session) {i : Nat} (hi : (name, i) ∈ session.controllers) :
    i = 0 :=
  congrArg Prod.snd (h.named _ hi)

/-- A machine that has the same on its books takes the place of the one before it. -/
theorem setMachine (h : Single gpu session) (hbooks : m'.books = session.machine.books)
    (hsettled : Settled 0 m') : Single gpu { session with machine := m' } := by
  obtain ⟨⟨count, hmachine, hnames⟩, hdistinct⟩ := h.booked
  exact ⟨⟨⟨count, hmachine.of_books hbooks, hnames⟩, hdistinct⟩, hsettled,
    h.bounded.of_books hbooks, h.named⟩

/-! ## Accesses -/

/-- An access changes the words of its object as it should. -/
theorem access (h : Single gpu session) (ho : session.resolve? target = some o)
    {f : List UInt32 → List UInt32}
    (haccessed : Accessed o (f (session.machine.contents o)) session.machine m') :
    Stands gpu (session.shelf.change target f) { session with machine := m' } := by
  have howner := h.owner_eq (live_of_resolve? ho)
  refine ⟨h.setMachine haccessed.books (howner ▸ haccessed.settled), ?_⟩
  exact shelf_change h.separate (resolve?_setMachine haccessed.books) ho haccessed.contents
    haccessed.others

/-- **An access to an object changes its words, and those of no other object.** -/
theorem withObject (h : Single gpu session) {act : InstanceObject → Action Device α}
    (reply : α → Outcome Reply) {f : List UInt32 → List UInt32}
    (hact : ∀ o, Placed session.machine o → Settled o.owner session.machine →
      Accessed o (f (session.machine.contents o)) session.machine (leaves (act o) session.machine)) :
    Stands gpu (session.shelf.change target f) (leaves
      (Session.withObject target fun o => onMachine (act o) >>= fun a => pure (reply a)) session) := by
  cases ho : session.resolve? target with
  | none =>
    have hnone : session.shelf target = none := by
      rw [shelf, ho, Option.map_none]
    rw [leaves_of_ok (run_withObject_of_none ho _), Shelf.change_of_none hnone]
    exact h.stands
  | some o =>
    rw [leaves_withObject ho]
    exact h.access ho (hact o (h.placed ho) (h.settled_owner ho))

/-- A read changes nothing. -/
theorem withObject_of_read (h : Single gpu session) {act : InstanceObject → Action Device α}
    (reply : α → Outcome Reply) (hact : ∀ o, Placed session.machine o →
      Settled o.owner session.machine → Accessed o (session.machine.contents o) session.machine
        (leaves (act o) session.machine)) : Stands gpu session.shelf (leaves
      (Session.withObject target fun o => onMachine (act o) >>= fun a => pure (reply a)) session) := by
  rw [← session.shelf.change_id target]
  exact h.withObject reply hact

/-! ## Phases and faults -/

/-- A change of phase changes no words. -/
theorem withController (h : Single gpu session) {act : Nat → Action Device α}
    (reply : α → Outcome Reply)
    (hbooks : ∀ i, (leaves (act i) session.machine).books = session.machine.books)
    (hact : ∀ i, Settled 0 (leaves (act i) session.machine) ∧
      (leaves (act i) session.machine).hardware = session.machine.hardware) :
    Stands gpu session.shelf (leaves
      (Session.withController name fun i => onMachine (act i) >>= fun a => pure (reply a)) session) := by
  cases hi : session.controllers.get? name with
  | none =>
    rw [leaves_of_ok (run_withController_of_none hi _)]
    exact h.stands
  | some i =>
    obtain ⟨hsettled, hhardware⟩ := hact i
    rw [leaves_withController hi]
    refine ⟨h.setMachine (hbooks i) hsettled, shelf_congr (resolve?_setMachine (hbooks i))
      fun _ o _ => Machine.contents_of_hardware hhardware o⟩

/-- Telling the device what to refuse changes no words. -/
theorem rearm (h : Single gpu session) {d : Device} (hd : Rearmed session.machine.hardware d) :
    Stands gpu session.shelf { session with machine.hardware := d } := by
  obtain ⟨⟨⟨count, hmachine, hnames⟩, hdistinct⟩, hsettled, hbounded, hnamed⟩ := h
  have hbooked := hmachine.rearm hd
  obtain ⟨pageBudget, refusesBuffers, f, refusesBars, rfl⟩ := hd
  refine ⟨⟨⟨⟨count, hbooked, hnames⟩, hdistinct⟩, hsettled.setHardware rfl,
    ⟨hbounded.low, hbounded.length⟩, hnamed⟩, ?_⟩
  exact shelf_congr (fun target => resolve?_congr rfl rfl rfl target) fun _ o _ => rfl

/-! ## Requests -/

/-- **A request puts new words on the shelf**, or leaves it as it is. -/
theorem allocate (h : Single gpu session) (controller name : String) (size align : Nat)
    (zeroed : Bool) :
    Stands gpu (session.shelf.after session (.operation (.allocate controller name size align zeroed)))
      (request controller name size align zeroed session).2 := by
  have hallocate : ∀ i, session.controllers.get? controller = some i →
      ∃ answer m', Action.allocate i size align zeroed session.machine = .ok answer m' ∧
        Recycled 0 zeroed session.machine answer m' := by
    intro i hi
    obtain rfl := h.controller_eq (Directory.mem_of_get? hi)
    exact h.settled.allocate h.booked.accounts h.bounded.low (h.booked.index_lt hi) size align zeroed
  have hlater : Single gpu (request controller name size align zeroed session).2 := by
    have hbooked : Booked (request controller name size align zeroed session).2 :=
      Booked.after session (.operation (.allocate controller name size align zeroed)) h.booked
    rw [request, outcome_allocate] at hbooked ⊢
    cases hi : session.controllers.get? controller with
    | none => exact h
    | some i =>
      obtain rfl := h.controller_eq (Directory.mem_of_get? hi)
      rw [hi] at hbooked
      dsimp only at hbooked ⊢
      by_cases hused : (session.objects.get? name).isSome = true
      · rw [if_pos hused]
        exact h
      · rw [if_neg hused] at hbooked ⊢
        obtain ⟨answer, m', hact, hrecycled⟩ := hallocate 0 hi
        have hbounded : Bounded 1 m' :=
          ((Bounded.lasting 0 1).allocate size align zeroed).of_ok h.bounded hact
        have hsettled := hrecycled.settled h.settled
        rw [hact] at hbooked ⊢
        cases answer with
        | error cause => exact ⟨hbooked, hsettled, hbounded, h.named⟩
        | ok o => exact ⟨hbooked, hsettled, hbounded, h.named⟩
  refine ⟨hlater, shelf_request h.booked hlater.separate ?_⟩
  intro i hi _
  obtain ⟨answer, m', hact, hrecycled⟩ := hallocate i hi
  exact ⟨answer, m', hact, hrecycled.made⟩

/-- **An object that is freed takes its words off the shelf**, and no others. -/
theorem free (h : Single gpu session) (name : String) :
    Stands gpu (session.shelf.after session (.operation (.free name)))
      (leaves (operate (.free name)) session) := by
  have hbooked := Booked.free name session h.booked
  obtain ⟨m', hleaves, hstore, hroster⟩ := exists_leaves_free h.booked name
  rw [hleaves] at hbooked ⊢
  refine ⟨⟨hbooked, h.settled.of_store hstore, h.bounded.of_store hstore, h.named⟩, ?_⟩
  exact shelf_erase rfl rfl hroster (Machine.contents_of_store hstore)

/-! ## Every move -/

/-- **Every move does to the shelf what it says.** -/
theorem after (h : Single gpu session) {move : Move} (hmove : move.keepsControllers = true) :
    Stands gpu (session.shelf.after session move) (Simulator.Session.after session move) := by
  cases move with
  | faults probe hfaults =>
    obtain ⟨d, hd, hleaves⟩ := Simulator.Session.probe_setsFaults hfaults session
    rw [Simulator.Session.after, Simulator.Session.outcome_snd, hleaves]
    exact h.rearm hd
  | operation operation =>
    rw [Simulator.Session.after, Simulator.Session.outcome_snd]
    cases operation with
    | build name => cases hmove
    | destroy name => cases hmove
    | init name =>
      exact h.withController _ (fun i => Action.books_init i _ rfl) (fun i => h.settled.init i)
    | suspend name =>
      exact h.withController _ (fun i => Action.books_suspend i _ rfl) (fun i => h.settled.suspend i)
    | resume name =>
      exact h.withController _ (fun i => Action.books_resume i _ rfl) (fun i => h.settled.resume i)
    | allocate controller name size align zeroed =>
      rw [← Simulator.Session.outcome_snd]
      exact h.allocate controller name size align zeroed
    | free name => exact h.free name
    | read32 target offset =>
      exact h.withObject_of_read _ fun o ho hsettled => hsettled.leaves_read32 ho offset
    | write32 target offset value =>
      exact h.withObject _ fun o ho hsettled => hsettled.leaves_write32 ho offset value
    | readWords target offset words =>
      exact h.withObject_of_read _ fun o ho hsettled => hsettled.leaves_readWords ho offset words
    | writeWords target offset values =>
      exact h.withObject _ fun o ho hsettled => hsettled.leaves_writeWords ho offset values
    | fill target value =>
      exact h.withObject _ fun o ho hsettled => hsettled.leaves_fill ho value
    | scan target =>
      exact h.withObject_of_read _ fun o ho hsettled => hsettled.leaves_readWords ho 0 o.words

/-- **Every run does to the shelf what its moves say.** -/
theorem run {moves : List Move} (h : Single gpu session)
    (hmoves : ∀ move ∈ moves, move.keepsControllers = true) :
    Stands gpu (session.shelf.run moves session) (Simulator.Session.run moves session) := by
  induction moves generalizing session with
  | nil => exact h.stands
  | cons move rest ih =>
    obtain ⟨hmove, hrest⟩ := List.forall_mem_cons.mp hmoves
    obtain ⟨hnext, hshelf⟩ := h.after hmove
    rw [Shelf.run, ← hshelf]
    exact ih hnext hrest

end Single

/-! ## The beginning -/

/-- A session in which nothing has been built yet. -/
structure Fresh (session : Session Device) : Prop where
  booked : Booked session
  new : New 0 session.machine
  controllers : session.controllers = []
  objects : session.objects = []

namespace Fresh

theorem start {config : Config} {journalOpen : Bool} {host : Simulator.Host}
    (h : Simulator.Session.start config journalOpen host = .ok session)
    (hlow : Simulator.systemMemoryBase + config.systemMemorySize ≤ resolveBit) : Fresh session := by
  have hbooked := Booked.start h
  obtain ⟨device, shared, hstart, rfl⟩ := Simulator.Session.start_eq_ok h
  obtain ⟨memory, -, rfl, -⟩ := Device.start_eq_ok hstart
  refine ⟨hbooked, ⟨⟨⟨rfl, rfl, ?_⟩, ?_⟩, hlow, Nat.le_refl 0⟩, rfl, rfl⟩
  · intro c base hc
    cases hc
  · exact ⟨Simulator.WordMemory.read_zero, Simulator.WordMemory.read_zero⟩

theorem after (h : Fresh session) {probe : Simulator.Probe} (hfaults : probe.setsFaults = true) :
    Fresh (Simulator.Session.after session (.faults probe hfaults)) := by
  have hbooked := Booked.after session (.faults probe hfaults) h.booked
  obtain ⟨d, hd, hleaves⟩ := Simulator.Session.probe_setsFaults hfaults session
  rw [Simulator.Session.after, Simulator.Session.outcome_snd, hleaves] at hbooked ⊢
  obtain ⟨pageBudget, refusesBuffers, f, refusesBars, rfl⟩ := hd
  obtain ⟨-, ⟨⟨hsettled, hzero⟩, hlow, hlength⟩, hcontrollers, hobjects⟩ := h
  exact ⟨hbooked, ⟨⟨hsettled.setHardware rfl, hzero.vram, hzero.memory⟩, hlow, hlength⟩, hcontrollers,
    hobjects⟩

/-- A controller is built or not, and memory is still zero. -/
theorem single_build (h : Fresh session) (gpu : String) :
    Single gpu (Simulator.Session.after session (.operation (.build gpu))) ∧
      Blank 0 (Simulator.Session.after session (.operation (.build gpu))).machine := by
  have hbooked := Booked.after session (.operation (.build gpu)) h.booked
  obtain ⟨⟨count, hmachine, -⟩, -⟩ := h.booked
  have hnew := h.new.build
  have hunused : ¬ (session.controllers.get? gpu).isSome = true := by
    rw [h.controllers]
    exact Bool.false_ne_true
  have hnone : ∀ entry ∈ session.controllers, entry = (gpu, 0) := by
    intro entry hentry
    rw [h.controllers] at hentry
    cases hentry
  rw [Simulator.Session.after, Simulator.Session.outcome_snd, operate, leaves, run_get_bind,
    if_neg hunused] at hbooked ⊢
  cases hact : (Action.build : Action Device _) session.machine with
  | error f m' =>
    rw [leaves_of_error hact] at hnew
    rw [run_bind_of_error (onMachine_of_error hact)] at hbooked ⊢
    exact ⟨⟨hbooked, hnew.blank.settled, hnew.bounded, hnone⟩, hnew.blank⟩
  | ok answer m' =>
    rw [leaves_of_ok hact] at hnew
    rw [run_bind_of_ok (onMachine_of_ok hact)] at hbooked ⊢
    cases answer with
    | error cause => exact ⟨⟨hbooked, hnew.blank.settled, hnew.bounded, hnone⟩, hnew.blank⟩
    | ok i =>
      -- it is the first on the roster, which has room for one
      obtain ⟨hbuilt, -⟩ := InstanceMemory.Booked.build.of_ok hmachine hact
      have hcount := hbuilt.count_le
      have hlength := hnew.bounded.length
      rw [Machine.length_roster] at hcount
      obtain rfl : i = 0 := by omega
      refine ⟨⟨hbooked, hnew.blank.settled, hnew.bounded, ?_⟩, hnew.blank⟩
      intro entry hentry
      rcases Directory.mem_insert hentry with rfl | hentry
      · rfl
      · exact hnone entry hentry

/-- **The first controller finds zero memory**, and so do its firmware structures. -/
theorem build (h : Fresh session) (gpu : String) : Stands gpu
    (Shelf.zero (Simulator.Session.after session (.operation (.build gpu))))
    (Simulator.Session.after session (.operation (.build gpu))) := by
  obtain ⟨hsingle, hblank⟩ := h.single_build gpu
  refine ⟨hsingle, ?_⟩
  funext target
  rw [shelf, Shelf.zero]
  exact Option.map_congr fun o ho => hblank.contents (hsingle.placed ho)

theorem run_arming {arming : List Move} (h : Fresh session)
    (harming : ∀ move ∈ arming, move.setsFaults = true) :
    Fresh (Simulator.Session.run arming session) := by
  induction arming generalizing session with
  | nil => exact h
  | cons move rest ih =>
    obtain ⟨hmove, hrest⟩ := List.forall_mem_cons.mp harming
    cases move with
    | operation operation => cases hmove
    | faults probe hfaults => exact ih (h.after hfaults) hrest

end Fresh

/-! ## What shows -/

/-- What shows of a session is what stands on a shelf: to users, who read and write the objects, and
to the device, which reads them at their device addresses. -/
structure Simulated (shelf : Shelf) (session : Session Device) : Prop where
  /-- The live objects have words on the shelf, as many as they are large, and nothing else has. -/
  objects : ∀ target, (shelf target).map List.length = (session.resolve? target).map (·.words)
  device : ∀ target o words k value, session.resolve? target = some o → shelf target = some words →
    words[k]? = some value → session.machine.hardware.read (o.offset + k * wordSize) = .ok value
  read32 : ∀ target words k value, shelf target = some words → words[k]? = some value →
    (outcome (operate (.read32 target (k * wordSize))) session).1 = .reply (.word value)
  readWords : ∀ target words k count, shelf target = some words → k + count ≤ words.length →
    (outcome (operate (.readWords target (k * wordSize) count)) session).1 =
      .reply (.words ((words.drop k).take count))
  scan : ∀ target words, shelf target = some words →
    (outcome (operate (.scan target)) session).1 = .reply (.runs (runsOf [] words))
  write32 : ∀ target words k value, shelf target = some words → k < words.length →
    (outcome (operate (.write32 target (k * wordSize) value)) session).1 = .reply .nothing
  writeWords : ∀ target words k values, shelf target = some words →
    k + values.length ≤ words.length →
      (outcome (operate (.writeWords target (k * wordSize) values)) session).1 = .reply .nothing
  fill : ∀ target words value, shelf target = some words →
    (outcome (operate (.fill target value)) session).1 = .reply .nothing

namespace Single

/-- Words on the shelf are the contents of a live object. -/
theorem exists_of_shelf (h : Single gpu session) {words : List UInt32}
    (hwords : session.shelf target = some words) : ∃ o, session.resolve? target = some o ∧
      Placed session.machine o ∧ Settled o.owner session.machine ∧
      session.machine.contents o = words := by
  obtain ⟨o, ho, hcontents⟩ := Option.map_eq_some_iff.mp hwords
  exact ⟨o, ho, h.placed ho, h.settled_owner ho, hcontents⟩

/-- **A session shows its shelf.** -/
theorem simulated (h : Single gpu session) : Simulated session.shelf session where
  objects := session.map_length_shelf
  device target o words k value ho hwords hk := read_of_shelf ho (h.placed ho) hwords hk
  read32 target words k value hwords hk := by
    obtain ⟨o, ho, hplaced, hsettled, rfl⟩ := h.exists_of_shelf hwords
    have hlt := Machine.lt_words_of_getElem? hk
    obtain ⟨read, m', hread, hvalue, -⟩ := hsettled.read32 hplaced hlt
    obtain rfl := Option.some.inj (hk.symm.trans hvalue)
    exact congrArg Prod.fst (outcome_withObject ho hread _)
  readWords target words k count hwords hk := by
    obtain ⟨o, ho, hplaced, hsettled, rfl⟩ := h.exists_of_shelf hwords
    rw [Machine.length_contents] at hk
    obtain ⟨m', hread, -⟩ := hsettled.readWords hplaced hk
    exact congrArg Prod.fst (outcome_withObject ho hread _)
  scan target words hwords := by
    obtain ⟨o, ho, hplaced, hsettled, rfl⟩ := h.exists_of_shelf hwords
    obtain ⟨m', hread, -⟩ := hsettled.readWords hplaced (k := 0) (Nat.le_of_eq (Nat.zero_add o.words))
    have hall : ((session.machine.contents o).drop 0).take o.words = session.machine.contents o := by
      rw [List.drop_zero, List.take_of_length_le]
      exact Nat.le_of_eq (Machine.length_contents session.machine o)
    rw [Nat.zero_mul, hall] at hread
    have hact : (fun o => Action.readWords o 0 o.words) o session.machine =
        .ok (session.machine.contents o) m' := hread
    exact congrArg Prod.fst (outcome_withObject ho hact _)
  write32 target words k value hwords hk := by
    obtain ⟨o, ho, hplaced, hsettled, rfl⟩ := h.exists_of_shelf hwords
    rw [Machine.length_contents] at hk
    obtain ⟨m', hwrite, -⟩ := hsettled.write32 hplaced hk value
    exact congrArg Prod.fst (outcome_withObject ho hwrite _)
  writeWords target words k values hwords hk := by
    obtain ⟨o, ho, hplaced, hsettled, rfl⟩ := h.exists_of_shelf hwords
    rw [Machine.length_contents] at hk
    obtain ⟨m', hwrite, -⟩ := hsettled.writeWords hplaced hk
    exact congrArg Prod.fst (outcome_withObject ho hwrite _)
  fill target words value hwords := by
    obtain ⟨o, ho, hplaced, hsettled, rfl⟩ := h.exists_of_shelf hwords
    obtain ⟨m', hfill, -⟩ := hsettled.fill hplaced value
    exact congrArg Prod.fst (outcome_withObject ho hfill _)

end Single

/-- **Objects are independent arrays of words.** On every device whose system memory lies below the
resolve bit, and after every run of its one controller, whatever the device was told to refuse before
or in between, what shows of the session is what stands on the shelf that its moves make. -/
theorem run_simulated {config : Config} {journalOpen : Bool} {host : Simulator.Host}
    (h : Simulator.Session.start config journalOpen host = .ok session)
    (hlow : Simulator.systemMemoryBase + config.systemMemorySize ≤ resolveBit)
    {arming moves : List Move} (harming : ∀ move ∈ arming, move.setsFaults = true) (gpu : String)
    (hmoves : ∀ move ∈ moves, move.keepsControllers = true) :
    let built := after (run arming session) (.operation (.build gpu))
    Simulated (Shelf.run moves built (Shelf.zero built)) (run moves built) := by
  intro built
  obtain ⟨hsingle, hzero⟩ := ((Fresh.start h hlow).run_arming harming).build gpu
  obtain ⟨hlast, hshelf⟩ := hsingle.run hmoves
  rw [← hzero, ← hshelf]
  exact hlast.simulated

/-- Pages of a freed object come back under another name, after a request that was refused. -/
theorem run_simulated_recycled : ∃ session : Session Device,
    Simulator.Session.start { Config.systemMemory 0xea with iommuSpace := some 0x10000 } false =
        .ok session ∧
      let moves : List Move := [.operation (.init "gpu"),
        .operation (.allocate "gpu" "table" 0x2000 0 true),
        .operation (.writeWords (.object "table") 0xffc [1, 2]), .operation (.suspend "gpu"),
        .operation (.resume "gpu"), .faults (.limitMappings 1) rfl,
        .operation (.allocate "gpu" "refused" 0x2000 0 false), .faults .clearFaults rfl,
        .operation (.free "table"), .operation (.allocate "gpu" "other" 0x3000 0 false)]
      let built := after (run [.faults (.limitPages 8) rfl] session) (.operation (.build "gpu"))
      Simulated (Shelf.run moves built (Shelf.zero built)) (run moves built) := by
  have hstart : Simulator.Session.start
      { Config.systemMemory 0xea with iommuSpace := some 0x10000 } false = .ok _ := rfl
  exact ⟨_, hstart, run_simulated hstart (by decide) (by decide) "gpu" (by decide)⟩

end InstanceMemory.Session
