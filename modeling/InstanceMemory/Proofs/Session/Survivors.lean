import InstanceMemory.Proofs.Machine.HeapBuilding
import InstanceMemory.Proofs.Session.Housing

/-!
# Objects that survive their controller

Objects on a heap lie in the dedicated memory for as long as they live, and may live longer than their
controller. The next controller has a heap of its own over the same memory, which knows nothing of
them. It grants its first request right behind its firmware structures, whatever lives there
(`Serves.after_build_allocate`), so an object of an earlier controller may lie in the same place. Then
two live objects are one, and what is written to one of them is read from the other
(`Housed.read_of_shared`). `run_unsheltered` is a run that comes to this.

That is all that can go wrong. Objects of one controller lie clear of each other, and all of them lie
behind the firmware structures of every controller. A move changes no words but those that it is about,
and a new controller zeroes one of its firmware structures. In a run that grants every request clear of
the objects of other controllers, all live objects are clear of each other, and keep their words until
they are written themselves (`run_sheltered`). Requests made while no object of another controller
lives need not be asked about (`Housed.clears_of_alone`).
-/

set_option autoImplicit false

namespace InstanceMemory

open Simulator (Config Device Move)
open Simulator.Session (after run)
open Stocking (next)

/-- Firmware structures of different controllers, which all have theirs at one place. -/
def Target.Rivals : Target → Target → Prop
  | .firmware controller _, .firmware other _ => controller ≠ other
  | _, _ => False

/-- The move is not one to write to what a target stands for. -/
def Simulator.Move.Spares (target : Target) : Move → Prop
  | .operation (.write32 other ..) | .operation (.writeWords other ..) | .operation (.fill other _) =>
    target ≠ other ∧ ¬ target.Rivals other
  | .operation (.build _) => ∃ name, target = .object name
  | _ => True

/-- An answer that carries an object says nothing else. -/
theorem Outcome.eq_of_object? {answer : Outcome Reply} {o : InstanceObject}
    (h : answer.object? = some o) : answer = .reply (.object o) := by
  unfold object? at h
  split at h
  · rw [Option.some.inj h]
  · cases h

/-- Words that are written through the aperture leave the books of a device alone. -/
theorem Simulator.Device.books_writeWords (words : List (Nat × UInt32)) (d : Device) :
    (Platform.writeWords words d).books = d.books := by
  induction words generalizing d with
  | nil => rfl
  | cons word rest ih => exact (ih _).trans (d.books_setVram (d.vram.size_write word.1 word.2))

namespace Session

variable {session : Session Device} {move : Move} {target other : Target}
  {o o' : InstanceObject} {name : String}

/-! ## Requests clear of other objects -/

/-- A request is granted, if it is, clear of the named objects of other controllers. -/
def Clears (session : Session Device) : Move → Prop
  | .operation (.allocate controller name size align _) =>
    ∀ o ∈ (request controller name size align false session).1.object?,
      ∀ o' ∈ session.objects.values, o'.owner ≠ o.owner → o.extent.Clear o'.extent
  | _ => True

instance (session : Session Device) : (move : Move) → Decidable (session.Clears move)
  | .operation operation =>
    match operation with
    | .allocate .. => inferInstanceAs (Decidable (∀ _ ∈ _, _))
    | .build _ | .destroy _ | .init _ | .suspend _ | .resume _ | .free _ | .read32 .. | .write32 ..
    | .readWords .. | .writeWords .. | .fill .. | .scan _ => .isTrue trivial
  | .faults .. => .isTrue trivial

/-- Every request of a run is granted clear of the named objects of other controllers. -/
def ClearsAll : List Move → Session Device → Prop
  | [], _ => True
  | move :: rest, session => session.Clears move ∧ ClearsAll rest (after session move)

instance decidableClearsAll : (moves : List Move) → (session : Session Device) →
    Decidable (ClearsAll moves session)
  | [], _ => .isTrue trivial
  | move :: rest, session =>
    have := decidableClearsAll rest (after session move)
    inferInstanceAs (Decidable (_ ∧ _))

/-- An object is granted by an allocation. -/
theorem exists_of_object? {controller : String} {size align : Nat} {zeroed : Bool}
    (h : (request controller name size align zeroed session).1.object? = some o) :
    ∃ i m', session.controllers.get? controller = some i ∧ session.objects.get? name = none ∧
      Action.allocate i size align zeroed session.machine = .ok (.ok o) m' := by
  obtain ⟨i, m', hi, hunused, hact, -⟩ := exists_of_made (Outcome.eq_of_object? h)
  exact ⟨i, m', hi, hunused, hact⟩

/-! ## Objects clear of each other -/

namespace Housed

/-- A request while all named objects are the controller's own is granted clear of others. -/
theorem clears_of_alone {controller name : String} {size align : Nat} {zeroed : Bool}
    (h : Housed session) (halone : ∀ o ∈ session.objects.values,
      session.controllers.get? controller = some o.owner) :
    session.Clears (.operation (.allocate controller name size align zeroed)) := by
  intro o ho o' ho' hne
  obtain ⟨i, m', hi, -, hact⟩ := exists_of_object? ho
  have howner : o'.owner = i := Option.some.inj ((halone o' ho').symm.trans hi)
  exact absurd (howner.trans (h.granted hi hact).1.symm) hne

/-- **Named objects stay clear of each other** if requests are granted clear of them. -/
theorem clear_after (h : Housed session)
    (hclear : session.objects.values.Pairwise fun o o' => o.extent.Clear o'.extent) {move : Move}
    (hclears : session.Clears move) :
    (Simulator.Session.after session move).objects.values.Pairwise fun o o' =>
      o.extent.Clear o'.extent := by
  cases (h.moves_after move).names with
  | stay hcontrollers hobjects hroster => rwa [hobjects]
  | build name hfree hcontrollers hobjects hroster => rwa [hobjects]
  | destroy name i hi hcontrollers hobjects hroster => rwa [hobjects]
  | grant controller name size align zeroed o hmove hobject hbehind hsiblings hfree hcontrollers hobjects
      hroster =>
    subst hmove
    have hperm := (Directory.insert_perm (v := o) hfree).map Prod.snd
    rw [hobjects]
    refine (hperm.pairwise_iff fun h => h.symm).mpr (List.pairwise_cons.mpr ⟨?_, hclear⟩)
    intro o' ho'
    by_cases howner : o'.owner = o.owner
    · exact hsiblings o' (List.mem_append_left _ ho') howner
    · exact hclears o hobject o' ho' howner
  | free name hmove hcontrollers hobjects hroster =>
    rw [hobjects]
    exact hclear.sublist ((Directory.erase_sublist name _).map Prod.snd)

end Housed

/-! ## What shows -/

/-- The live objects of a session lie clear of each other in the dedicated memory, and keep their
words. -/
structure Sheltered (session : Session Device) : Prop where
  inside : ∀ target o, session.resolve? target = some o →
    0 < o.size ∧ o.extent.limit ≤ session.machine.hardware.vram.length
  /-- Objects of different names share no address. -/
  clear : ∀ target other o o', session.resolve? target = some o → session.resolve? other = some o' →
    target ≠ other → ¬ target.Rivals other → o.extent.Clear o'.extent
  /-- No move changes the words of a live object but a write to it, unless it is granted an object of
  another controller that is in the way. -/
  kept : ∀ move target o, session.resolve? target = some o → session.Clears move → move.Spares target →
    (after session move).machine.contents o = session.machine.contents o

namespace Housed

/-- **Live objects of different names are clear of each other** if the named ones are. -/
theorem clear (h : Housed session)
    (hclear : session.objects.values.Pairwise fun o o' => o.extent.Clear o'.extent)
    (ho : session.resolve? target = some o) (ho' : session.resolve? other = some o')
    (hne : target ≠ other) (hrivals : ¬ target.Rivals other) : o.extent.Clear o'.extent := by
  have hbehind : ∀ {name o}, session.resolve? (.object name) = some o → firmwareEnd ≤ o.offset :=
    fun ho => h.behind _ (List.mem_map_of_mem (Directory.mem_of_get? ho))
  cases target with
  | object name =>
    cases other with
    | object name' =>
      rw [Directory.values, List.pairwise_map] at hclear
      have hsymm : Std.Symm fun entry entry' : String × InstanceObject =>
          entry.2.extent.Clear entry'.2.extent := ⟨fun _ _ h => h.symm⟩
      apply hclear.forall (Directory.mem_of_get? ho) (Directory.mem_of_get? ho')
      intro heq
      exact hne (congrArg (fun entry : String × InstanceObject => Target.object entry.1) heq)
    | firmware controller key =>
      obtain ⟨i, -, rfl⟩ := h.firmware ho'
      exact .inr (Nat.le_trans (FirmwareObjects.limit_laid i key) (hbehind ho))
  | firmware controller key =>
    obtain ⟨i, hi, rfl⟩ := h.firmware ho
    cases other with
    | object name => exact .inl (Nat.le_trans (FirmwareObjects.limit_laid i key) (hbehind ho'))
    | firmware controller' key' =>
      obtain ⟨j, hj, rfl⟩ := h.firmware ho'
      obtain rfl : controller = controller' := not_not.mp hrivals
      obtain rfl := Option.some.inj (hi.symm.trans hj)
      exact FirmwareObjects.clear_laid i fun heq => hne (heq ▸ rfl)

/-- **The words that a move writes do not lie in an object that it spares.** -/
theorem not_holds_written (h : Housed session)
    (hclear : session.objects.values.Pairwise fun o o' => o.extent.Clear o'.extent)
    (ho : session.resolve? target = some o) (hclears : session.Clears move)
    (hspares : move.Spares target) {x : Nat} (hx : o.extent.Holds x) : ¬ (session.written move).Holds x := by
  intro hwritten
  rcases exists_of_holds_written hwritten with ⟨name, rfl, hzeroed⟩ | ⟨hwrites, a, ha, hax⟩
  · obtain ⟨name, rfl⟩ := hspares
    have hbehind := h.behind o (List.mem_map_of_mem (Directory.mem_of_get? ho))
    exact Nat.not_lt.mpr (Nat.le_trans hbehind hx.1) hzeroed.2
  · -- the words lie in an object that is clear of this one
    obtain ⟨o', hclear', hholds⟩ : ∃ o' : InstanceObject, o.extent.Clear o'.extent ∧ o'.extent.Holds x := by
      have hother : ∀ {other o'}, session.resolve? other = some o' →
          target ≠ other ∧ ¬ target.Rivals other → o.extent.Clear o'.extent :=
        fun ho' hspares => h.clear hclear ho ho' hspares.1 hspares.2
      cases move with
      | faults probe hfaults => cases hwrites
      | operation operation =>
        cases operation <;> try exact absurd hwrites Bool.false_ne_true
        case write32 other offset value =>
          obtain ⟨o', ho', ha⟩ := Option.bind_eq_some_iff.mp ha
          exact ⟨o', hother ho' hspares, InstanceObject.holds_of_access? ha hax⟩
        case writeWords other offset values =>
          obtain ⟨o', ho', ha⟩ := Option.bind_eq_some_iff.mp ha
          exact ⟨o', hother ho' hspares, InstanceObject.holds_of_access? ha hax⟩
        case fill other value =>
          obtain ⟨o', ho', rfl⟩ := Option.map_eq_some_iff.mp ha
          exact ⟨o', hother ho' hspares, InstanceObject.holds_of_wholly hax⟩
        case allocate controller name size align zeroed =>
          cases zeroed with
          | false => cases ha
          | true =>
            obtain ⟨o', ho', rfl⟩ := Option.map_eq_some_iff.mp ha
            obtain ⟨i, m', hi, -, hact⟩ := exists_of_object? ho'
            obtain ⟨howner, hbehind, hsiblings⟩ := h.granted hi hact
            refine ⟨o', ?_, InstanceObject.holds_of_wholly hax⟩
            by_cases hown : o.owner = i
            · exact (hsiblings o (live_of_resolve? ho) hown).symm
            · cases target with
              | object key =>
                have hnamed : o ∈ session.objects.values :=
                  List.mem_map_of_mem (Directory.mem_of_get? ho)
                exact (hclears o' ho' o hnamed fun heq => hown (heq.trans howner)).symm
              | firmware gpu key =>
                obtain ⟨j, -, rfl⟩ := h.firmware ho
                exact .inl (Nat.le_trans (FirmwareObjects.limit_laid j key) hbehind)
    exact hclear'.symm.not_holds hx hholds

/-- **A session shows that its objects are sheltered** if the named ones are clear of each other. -/
theorem sheltered (h : Housed session)
    (hclear : session.objects.values.Pairwise fun o o' => o.extent.Clear o'.extent) :
    Sheltered session where
  inside target o ho :=
    have hlive := live_of_resolve? ho
    h.booked.accounts.heap_inside hlive (h.heap hlive)
  clear target other o o' ho ho' hne hrivals := h.clear hclear ho ho' hne hrivals
  kept move target o ho hclears hspares := by
    have hwords := h.outside_after move fun x _ => rfl
    have hconfig := (h.moves_after move).config
    apply Machine.contents_congr
    intro offset hoffset
    have hplace : o.place offset = o.offset + offset :=
      InstanceObject.place_of_ne_iommu ((h.heap (live_of_resolve? ho)).trans_ne (by decide)) offset
    have hholds : o.extent.Holds (o.offset + offset) :=
      ⟨Nat.le_add_right _ _, Nat.add_lt_add_left hoffset _⟩
    simp only [Device.readAt, hconfig, h.hasVram, ↓reduceIte, hplace]
    exact hwords _ (h.not_holds_written hclear ho hclears hspares hholds)

/-- **Every run that grants requests clear of other controllers' objects keeps them clear.** -/
theorem run {moves : List Move} (h : Housed session)
    (hclear : session.objects.values.Pairwise fun o o' => o.extent.Clear o'.extent)
    (hclears : ClearsAll moves session) : Housed (run moves session) ∧
      (Simulator.Session.run moves session).objects.values.Pairwise fun o o' =>
        o.extent.Clear o'.extent := by
  induction moves generalizing session with
  | nil => exact ⟨h, hclear⟩
  | cons move rest ih =>
    obtain ⟨hmove, hrest⟩ := hclears
    exact ih (h.after move) (h.clear_after hclear hmove) hrest

end Housed

/-! ## A new controller among the objects of others -/

/-- A controller that is built is added under its name. -/
theorem after_build {i : Nat} {m' : Machine Device} (hname : session.controllers.get? name = none)
    (hbuild : Action.build session.machine = .ok (.ok i) m') :
    after session (.operation (.build name)) =
      { session with machine := m', controllers := session.controllers.insert name i } := by
  have hnew : ¬ (session.controllers.get? name).isSome = true := by
    rw [hname]
    exact Bool.false_ne_true
  rw [Simulator.Session.after, Simulator.Session.outcome_snd, operate, leaves, run_get_bind,
    if_neg hnew, run_bind_of_ok (onMachine_of_ok hbuild)]
  rfl

/-- What a write does to the machine is all that is left of it. -/
theorem after_write32 (ho : session.resolve? target = some o) (offset : Nat) (value : UInt32) :
    after session (.operation (.write32 target offset value)) =
      { session with machine := leaves (Action.write32 o offset value) session.machine } := by
  rw [Simulator.Session.after, Simulator.Session.outcome_snd]
  exact leaves_withObject ho _ _

/-- A device on which controllers are built on heaps of a layout, behind an aperture of a length. -/
structure Serves (layout : ReservedLayout) (length : Nat) (d : Device) : Prop where
  hasVram : (Platform.chipset d).hasVram = true
  family : (Platform.chipset d).family = .curie
  mapped : Platform.mapBar d (Action.servingBar d) = some length
  computed : ReservedLayout.compute (Platform.chipset d).chipset
    (UInt32.ofNat (enabledShaderUnits d.config.unitConfig)) = .ok layout
  room : layout.reserved ≤ length

namespace Serves

variable {layout : ReservedLayout} {length size : Nat} {d d' : Device} {controller : String}

/-- What a device serves is a matter of its configuration, the length of its memory and the resources
that it refuses. -/
theorem congr (h : Serves layout length d) (hconfig : d'.config = d.config)
    (hbars : d'.refusesBars = d.refusesBars) (hvram : d'.vram.size = d.vram.size) :
    Serves layout length d' := by
  obtain ⟨config, window, windowWrites, registers, ⟨size, words⟩, memory, translation,
    refusesBars⟩ := d
  obtain ⟨config', window', windowWrites', registers', ⟨size', words'⟩, memory', translation',
    refusesBars'⟩ := d'
  obtain rfl : config' = config := hconfig
  obtain rfl : refusesBars' = refusesBars := hbars
  obtain rfl : size' = size := hvram
  exact ⟨h.hasVram, h.family, h.mapped, h.computed, h.room⟩

theorem of_books (h : Serves layout length d) (hbooks : d'.books = d.books) : Serves layout length d' :=
  h.congr (congrArg (·.config) hbooks) (congrArg (·.refusesBars) hbooks) (congrArg (·.vram.size) hbooks)

/-- The board with dedicated memory serves a heap in a part of its aperture. -/
theorem of_start {session : Session Device}
    (h : Simulator.Session.start (Config.dedicatedVram 0x47) false = .ok session) :
    ∃ layout, Serves layout 0x800000 session.machine.hardware ∧ layout.reserved = 0x624000 := by
  obtain ⟨device, shared, hstart, rfl⟩ := Simulator.Session.start_eq_ok h
  obtain ⟨memory, -, rfl, -⟩ := Device.start_eq_ok hstart
  obtain ⟨layout, hlayout⟩ : ∃ layout, ReservedLayout.compute 0x47 8 = .ok layout := by
    obtain ⟨reserved, -, -, hlayout⟩ := ReservedLayout.compute_eq 0x47 8
    exact ⟨_, hlayout⟩
  have hreserved := Action.reserved_of_eight_units hlayout
  have hunits : UInt32.ofNat (enabledShaderUnits 0xff00) = 8 := by decide
  rw [← hunits] at hlayout
  have hlength : (Simulator.Vram.create (max 0x800000 0)).length = 0x800000 := by decide
  have hroom : layout.reserved ≤ 0x800000 := by
    rw [hreserved]
    decide
  exact ⟨layout, ⟨rfl, rfl, congrArg some hlength, hlayout, hroom⟩, hreserved⟩

/-- **A controller is built whatever lives in the memory**, and its heap is filled up to the end of its
firmware structures. -/
theorem exists_built {m : Machine Device} (h : Serves layout length m.hardware) :
    ∃ m', Action.build m = .ok (.ok m.controllers.length) m' ∧
      m'.hardware.books = m.hardware.books ∧
      Filling m.controllers.length (Platform.chipset m.hardware) layout length
        (some (.laid m.controllers.length)) firmwareEnd 4 m' := by
  have hunits : Platform.readRegister unitConfigRegister m.hardware =
      .ok m.hardware.config.unitConfig m.hardware := rfl
  have hbuilt := Action.buildOnHeap_writes h.family h.mapped hunits h.computed
  rw [if_neg (Nat.not_lt.mpr h.room)] at hbuilt
  obtain ⟨m', hrun, hwrites, hfilling⟩ := hbuilt
  refine ⟨m', (Action.run_build_of_vram h.hasVram h.family).trans hrun, ?_, hfilling⟩
  rw [hwrites.hardware]
  exact Device.books_writeWords _ _

/-- **A new controller grants its first request right behind its firmware structures**, whatever lives
there. -/
theorem after_build_allocate (h : Serves layout length session.machine.hardware)
    (hcontroller : session.controllers.get? controller = none)
    (hname : session.objects.get? name = none) (hsize : pageSize ∣ size) (hpos : 0 < size)
    (hroom : firmwareEnd + size ≤ layout.reserved)
    (hround : Action.pageRound size 0 = .ok (size, pageSize)) :
    let i := session.machine.controllers.length
    let later := after (after session (.operation (.build controller)))
      (.operation (.allocate controller name size 0 false))
    Serves layout length later.machine.hardware ∧
      later.controllers = session.controllers.insert controller i ∧
      later.objects = session.objects.insert name (next i firmwareEnd size) := by
  intro i later
  obtain ⟨m₁, hbuild, hbooks, hfilling⟩ := h.exists_built
  obtain ⟨-, -, hlimit⟩ := ReservedLayout.lt_reserved h.computed
  obtain ⟨m₂, hallocate, hwrites, -⟩ :=
    hfilling.allocate (by decide) hsize hpos hroom hlimit hround false
  let built := { session with machine := m₁, controllers := session.controllers.insert controller i }
  have hi : built.controllers.get? controller = some i := by
    rw [Directory.get?_insert (Directory.get?_eq_none_iff.mp hcontroller), if_pos rfl]
  have hrequest := @request_of_unused controller name size 0 false built i hi hname
  rw [hallocate] at hrequest
  have hlater : later =
      { built with machine := m₂, objects := session.objects.insert name (next i firmwareEnd size) } := by
    show after (after session _) _ = _
    rw [after_build hcontroller hbuild]
    exact congrArg Prod.snd hrequest
  rw [hlater]
  exact ⟨h.of_books ((congrArg Device.books hwrites.hardware).trans hbooks), rfl, rfl⟩

variable (first second table other : String)

/-- **An object outlives its controller**, with what the device serves as before. -/
theorem outlived (h : Serves layout length session.machine.hardware) (hhoused : Housed session)
    (hfirst : session.controllers.get? first = none) (htable : session.objects.get? table = none)
    (hsize : pageSize ∣ size) (hpos : 0 < size) (hroom : firmwareEnd + size ≤ layout.reserved)
    (hround : Action.pageRound size 0 = .ok (size, pageSize)) (offset : Nat) (value : UInt32) :
    let i := session.machine.controllers.length
    let later := run [.operation (.build first), .operation (.allocate first table size 0 false),
      .operation (.write32 (.object table) offset value), .operation (.destroy first)] session
    Serves layout length later.machine.hardware ∧
      later.controllers = (session.controllers.insert first i).erase first ∧
      later.objects = session.objects.insert table (next i firmwareEnd size) := by
  intro i later
  obtain ⟨hserves, hcontrollers, hobjects⟩ :=
    h.after_build_allocate hfirst htable hsize hpos hroom hround
  have hmade := (hhoused.after (.operation (.build first))).after
    (.operation (.allocate first table size 0 false))
  have hlater : later = after (after (after (after session (.operation (.build first)))
    (.operation (.allocate first table size 0 false)))
    (.operation (.write32 (.object table) offset value))) (.operation (.destroy first)) := rfl
  generalize after (after session _) _ = made at hserves hcontrollers hobjects hmade hlater
  have ho : made.resolve? (.object table) = some (next i firmwareEnd size) := by
    show made.objects.get? table = _
    rw [hobjects, Directory.get?_insert (Directory.get?_eq_none_iff.mp htable), if_pos rfl]
  have hi : made.controllers.get? first = some i := by
    rw [hcontrollers, Directory.get?_insert (Directory.get?_eq_none_iff.mp hfirst), if_pos rfl]
  have hwritten := hmade.after (.operation (.write32 (.object table) offset value))
  rw [after_write32 ho] at hwritten hlater
  obtain ⟨m', hdestroy, hstore, -⟩ := exists_leaves_destroy hwritten.booked hi
  rw [Simulator.Session.after, Simulator.Session.outcome_snd, hdestroy] at hlater
  rw [hlater]
  refine ⟨?_, congrArg (·.erase first) hcontrollers, hobjects⟩
  have hbooks := Action.books_write32 (next i firmwareEnd size) offset value made.machine rfl
  exact (hserves.of_books (congrArg (·.hardware) hbooks)).congr (congrArg (·.hardware.config) hstore)
    (congrArg (·.hardware.refusesBars) hstore) (congrArg (·.hardware.vram.size) hstore)

/-- **A new controller grants the place of an object that outlives its controller.** -/
theorem regranted (h : Serves layout length session.machine.hardware) (hhoused : Housed session)
    (hfirst : session.controllers.get? first = none) (hsecond : session.controllers.get? second = none)
    (htable : session.objects.get? table = none) (hother : session.objects.get? other = none)
    (hne : other ≠ table) (hsize : pageSize ∣ size) (hpos : 0 < size)
    (hroom : firmwareEnd + size ≤ layout.reserved)
    (hround : Action.pageRound size 0 = .ok (size, pageSize)) (offset : Nat) (value : UInt32) :
    let granted := run [.operation (.build first), .operation (.allocate first table size 0 false),
      .operation (.write32 (.object table) offset value), .operation (.destroy first),
      .operation (.build second), .operation (.allocate second other size 0 false)] session
    Housed granted ∧ ∃ i j, granted.resolve? (.object table) = some (next i firmwareEnd size) ∧
      granted.resolve? (.object other) = some (next j firmwareEnd size) := by
  intro granted
  have hgranted : Housed granted :=
    Simulator.Session.run_induction (fun _ move h => h.after move) _ hhoused
  obtain ⟨hserves, hcontrollers, hobjects⟩ :=
    h.outlived first table hhoused hfirst htable hsize hpos hroom hround offset value
  have hsecond' : (run [.operation (.build first), .operation (.allocate first table size 0 false),
      .operation (.write32 (.object table) offset value), .operation (.destroy first)]
        session).controllers.get? second = none := by
    rw [hcontrollers, Directory.get?_erase,
      Directory.get?_insert (Directory.get?_eq_none_iff.mp hfirst), hsecond]
    split <;> rfl
  have hget := Directory.get?_insert (Directory.get?_eq_none_iff.mp htable)
    (next session.machine.controllers.length firmwareEnd size)
  rw [← hobjects] at hget
  have hother' := (hget other).trans ((if_neg hne).trans hother)
  obtain ⟨-, -, hlast⟩ := hserves.after_build_allocate hsecond' hother' hsize hpos hroom hround
  have hkept := Directory.get?_insert (Directory.get?_eq_none_iff.mp hother')
  refine ⟨hgranted, session.machine.controllers.length, _, (congrArg (·.get? table) hlast).trans ?_,
    (congrArg (·.get? other) hlast).trans ((hkept _ other).trans (if_pos rfl))⟩
  exact (hkept _ table).trans ((if_neg hne.symm).trans ((hget table).trans (if_pos rfl)))

end Serves

namespace Housed

theorem placed (h : Housed session) (ho : session.resolve? target = some o) :
    Placed session.machine o := by
  have hlive := live_of_resolve? ho
  have hheap := h.heap hlive
  cases hresource : o.resource with
  | heap range => exact h.booked.accounts.placed_on_heap hlive hresource
  | iommu range pages => cases (congrArg Resource.strategy hresource).symm.trans hheap
  | dma buffer => cases (congrArg Resource.strategy hresource).symm.trans hheap

/-- **A word of two objects is one word**: what is written to one of them is read from the other. -/
theorem read_of_shared (h : Housed session) (ho : session.resolve? (.object name) = some o)
    (ho' : session.resolve? other = some o') {offset offset' : Nat} (hfits : o.Fits offset 1)
    (hfits' : o'.Fits offset' 1) (hshared : o.offset + offset = o'.offset + offset') (value : UInt32) :
    (outcome (operate (.read32 (.object name) offset))
      (Simulator.Session.after session (.operation (.write32 other offset' value)))).1 =
        .reply (.word value) := by
  have hplaced := h.placed ho
  have hplaced' := h.placed ho'
  have hheap := h.heap (live_of_resolve? ho)
  have hheap' := h.heap (live_of_resolve? ho')
  have hlimit := hplaced.limit
  have hlimit' := hplaced'.limit
  have hoffset : offset < o.size := Nat.lt_of_lt_of_le (Nat.lt_add_of_pos_right (by decide)) hfits.2
  have hoffset' : offset' < o'.size :=
    Nat.lt_of_lt_of_le (Nat.lt_add_of_pos_right (by decide)) hfits'.2
  have haddress : o.offset + offset < addressLimit := by omega
  obtain ⟨m₁, hword, hwrites, -⟩ :=
    Action.writeWord_writes hheap' (hshared ▸ haddress) value session.machine
  have hwrite : Action.write32 o' offset' value session.machine = .ok () m₁ := by
    rw [Action.write32, run_bind_of_ok (run_lift_of_ok
      (InstanceObject.checkAccess_of_fits (by omega) hfits') _)]
    exact hword
  obtain ⟨m₂, hword₂, -, -⟩ := Action.readWord_writes hheap haddress m₁
  have hvalue : Platform.readAperture m₁.hardware (o.offset + offset) = value := by
    have hisWord := hplaced'.hasWord offset' hoffset' hfits'.1
    rw [InstanceObject.place_of_ne_iommu (hheap'.trans_ne (by decide)), Device.HasWord,
      if_pos h.hasVram] at hisWord
    rw [hwrites.hardware, hshared]
    exact (Simulator.Vram.read_write _ _ value hisWord).trans (if_pos rfl)
  have hread : Action.read32 o offset m₁ = .ok value m₂ := by
    rw [Action.read32, run_bind_of_ok (run_lift_of_ok
      (InstanceObject.checkAccess_of_fits (by omega) hfits) _), ← hvalue]
    exact hword₂
  rw [after_write32 ho', leaves_of_ok hwrite]
  exact congrArg Prod.fst
    (@outcome_withObject _ _ { session with machine := m₁ } (.object name) _ ho _ _ _ hread _)

end Housed

/-- **Objects that survive their controller keep their memory** on every device with dedicated memory,
after every run in which no request is granted an object over that of another controller. Controllers
may be built and destroyed in any order. -/
theorem run_sheltered {config : Config} {journalOpen : Bool} {host : Simulator.Host}
    (h : Simulator.Session.start config journalOpen host = .ok session) (hvram : config.hasVram = true)
    {moves : List Move} (hclears : ClearsAll moves session) : Sheltered (run moves session) := by
  have hempty : session.objects.values = [] := by
    obtain ⟨device, shared, -, rfl⟩ := Simulator.Session.start_eq_ok h
    rfl
  obtain ⟨hhoused, hclear⟩ := (Housed.start h hvram).run (hempty ▸ .nil) hclears
  exact hhoused.sheltered hclear

/-- An object outlives its controller, and another controller is built. -/
theorem run_sheltered_surviving : ∃ session : Session Device,
    Simulator.Session.start (Config.dedicatedVram 0x47) false = .ok session ∧
      Sheltered (run [.operation (.build "first"),
        .operation (.allocate "first" "table" 0x1000 0 false),
        .operation (.write32 (.object "table") 0 1), .operation (.destroy "first"),
        .operation (.build "second")] session) := by
  have hstart : Simulator.Session.start (Config.dedicatedVram 0x47) false = .ok _ := rfl
  refine ⟨_, hstart, run_sheltered hstart rfl ⟨trivial, ?_, trivial, trivial, trivial, trivial⟩⟩
  -- there is no other object when the request is made
  have hhoused := Housed.start hstart rfl
  refine (hhoused.after (.operation (.build "first"))).clears_of_alone fun o ho => ?_
  rw [hhoused.objects_build "first"] at ho
  cases ho

/-- An object outlives its controller, and another controller grants its place again. What is written to
the new object is read from the old one. -/
theorem run_unsheltered : ∃ session : Session Device,
    Simulator.Session.start (Config.dedicatedVram 0x47) false = .ok session ∧
      let granted := run [.operation (.build "first"),
        .operation (.allocate "first" "table" 0x1000 0 false),
        .operation (.write32 (.object "table") 0 1), .operation (.destroy "first"),
        .operation (.build "second"), .operation (.allocate "second" "other" 0x1000 0 false)] session
      (∃ o o', granted.resolve? (.object "table") = some o ∧
        granted.resolve? (.object "other") = some o' ∧ ¬ o.extent.Clear o'.extent) ∧
      (outcome (operate (.read32 (.object "table") 0))
        (after granted (.operation (.write32 (.object "other") 0 2)))).1 = .reply (.word 2) := by
  have hstart : Simulator.Session.start (Config.dedicatedVram 0x47) false = .ok _ := rfl
  refine ⟨_, hstart, ?_⟩
  obtain ⟨layout, hserves, hreserved⟩ := Serves.of_start hstart
  have hround : Action.pageRound 0x1000 0 = .ok (0x1000, pageSize) := by decide +kernel
  have hroom : firmwareEnd + 0x1000 ≤ layout.reserved := hreserved ▸ by decide
  obtain ⟨hgranted, i, j, ho, ho'⟩ := hserves.regranted "first" "second" "table" "other"
    (Housed.start hstart rfl) rfl rfl rfl rfl (by decide) (by decide) (by decide) hroom hround 0 1
  have hlapping : ¬ firmwareEnd + 0x1000 ≤ firmwareEnd := by decide
  have hsize : wordSize ≤ 0x1000 := by decide
  exact ⟨⟨_, _, ho, ho', fun hclear => hclear.elim hlapping hlapping⟩,
    hgranted.read_of_shared ho ho' ⟨Nat.dvd_zero _, hsize⟩ ⟨Nat.dvd_zero _, hsize⟩ rfl 2⟩

end Session
end InstanceMemory
