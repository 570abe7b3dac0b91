import InstanceMemory.Proofs.Machine.Books

/-!
# The accounts of live objects

`Accounts roster live m` is the balance between a machine and its live objects: what is held of the
machine are exactly the items of these objects, every controller counts exactly its own, and every
object is well made and placed by the strategy of the device. The roster tells the firmware
structures that each controller has on its record.

`Accounts.place` and `Accounts.free` add an object and take one away; a placement that fails leaves
the accounts as they are, and so does everything that keeps the books (`Accounts.of_books`).
-/

set_option autoImplicit false

namespace InstanceMemory

open Simulator (Device)

/-! ## What stays as it is -/

namespace Machine

/-- What neither accesses nor placements change. -/
def plan (m : Machine Device) : Machine Device := m.frame.books

/-- The strategy by which a machine places objects. -/
def strategy (m : Machine Device) : Strategy :=
  if m.hardware.config.hasVram then .heap else if m.shared.isSome then .iommu else .dma

/-- The firmware structures on the record of each controller. -/
def roster (m : Machine Device) : List (Option FirmwareObjects) := m.controllers.map (·.firmware)

variable {m m' : Machine Device}

@[simp] theorem length_roster : m.roster.length = m.controllers.length := List.length_map _

theorem plan_of_frame (h : m'.frame = m.frame) : m'.plan = m.plan := congrArg books h

theorem plan_of_books (h : m'.books = m.books) : m'.plan = m.plan := by
  have hcommute : ∀ m : Machine Device, m.plan = m.books.frame := by
    intro m
    simp only [plan, books, frame, List.map_map]
    rfl
  rw [hcommute, hcommute, h]

theorem spaces_of_plan (h : m'.plan = m.plan) : m'.spaces = m.spaces := by
  have hplan : ∀ m : Machine Device, m.plan.spaces = m.spaces := by
    intro m
    rw [← spaces_frame m]
    simp only [plan, spaces, books, List.map_map]
    rfl
  rw [← hplan m', h, hplan]

theorem roster_of_plan (h : m'.plan = m.plan) : m'.roster = m.roster := by
  have hplan : ∀ m : Machine Device, m.plan.roster = m.roster := by
    intro m
    simp only [plan, roster, books, frame, List.map_map]
    rfl
  rw [← hplan m', h, hplan]

theorem shared_of_plan (h : m'.plan = m.plan) : m'.shared.isSome = m.shared.isSome := by
  have hshared := congrArg (·.shared.isSome) h
  simpa only [plan, books, frame, Option.isSome_map] using hshared

theorem strategy_of_plan (h : m'.plan = m.plan) : m'.strategy = m.strategy := by
  have hvram : m'.hardware.config = m.hardware.config := congrArg (·.hardware.config) h
  simp only [strategy, hvram, shared_of_plan h]

end Machine

/-- How the parts of a machine fit together. -/
structure Geometry (m : Machine Device) : Prop where
  translation : m.hardware.translation.isSome = m.shared.isSome
  memory : m.hardware.memory.space.base = Simulator.systemMemoryBase ∧
    m.hardware.memory.space.length = m.hardware.memory.size
  shared : ∀ space, m.Has .shared space → space.base = 0 ∧ space.length ≤ resolveBit
  heap : ∀ i space, m.Has (.heap i) space → space.base = 0 ∧ space.length ≤ m.hardware.vram.length
  strategy : ∀ (i : Nat) (c : Controller), m.controllers[i]? = some c → c.strategy = m.strategy

variable {base m m' : Machine Device} {roster : List (Option FirmwareObjects)}
  {live others : List InstanceObject} {object : InstanceObject}

theorem Geometry.of_plan (h : Geometry m) (hplan : m'.plan = m.plan) : Geometry m' := by
  have hspaces := Machine.spaces_of_plan hplan.symm
  refine ⟨?_, ?_, ?_, ?_, ?_⟩
  · have htranslation := congrArg (·.hardware.translation.isSome) hplan
    simp only [Machine.plan, Machine.books, Device.books, Machine.frame, Option.isSome_map] at htranslation
    rw [htranslation, h.translation, Machine.shared_of_plan hplan]
  · have hbase : m'.hardware.memory.space.base = m.hardware.memory.space.base :=
      congrArg (·.hardware.memory.space.base) hplan
    have hlength : m'.hardware.memory.space.length = m.hardware.memory.space.length :=
      congrArg (·.hardware.memory.space.length) hplan
    have hsize : m'.hardware.memory.size = m.hardware.memory.size :=
      congrArg (·.hardware.memory.size) hplan
    rw [hbase, hlength, hsize]
    exact h.memory
  · intro space hid
    obtain ⟨before, hbefore, hemptied⟩ := hid.of_spaces_eq hspaces
    have hbase : before.base = space.base := congrArg (·.base) hemptied
    have hlength : before.length = space.length := congrArg (·.length) hemptied
    rw [← hbase, ← hlength]
    exact h.shared before hbefore
  · intro i space hid
    obtain ⟨before, hbefore, hemptied⟩ := hid.of_spaces_eq hspaces
    have hbase : before.base = space.base := congrArg (·.base) hemptied
    have hlength : before.length = space.length := congrArg (·.length) hemptied
    have hvram : m'.hardware.vram.length = m.hardware.vram.length :=
      congrArg (·.hardware.vram.length) hplan
    rw [← hbase, ← hlength, hvram]
    exact h.heap i before hbefore
  · intro i c' hc'
    obtain ⟨c, hc, hsame⟩ := exists_getElem?_of_map_eq (congrArg (·.2) hspaces.symm) hc'
    have hstrategy : ∀ b : Backing, b.emptied.strategy = b.strategy := by
      intro b
      cases b <;> rfl
    have heq : c.strategy = c'.strategy := by
      rw [Controller.strategy, Controller.strategy, ← hstrategy, hsame, hstrategy]
    rw [Machine.strategy_of_plan hplan, ← heq]
    exact h.strategy i c hc

/-- A controller that places objects behind the IOMMU has a space of device addresses. -/
theorem Geometry.has_shared {i : Nat} {c : Controller} (h : Geometry m)
    (hc : m.controllers[i]? = some c) (hstrategy : c.strategy = .iommu) :
    ∃ space, m.Has .shared space := by
  have hmachine := (h.strategy i c hc).symm.trans hstrategy
  have hsome : m.shared.isSome := by
    unfold Machine.strategy at hmachine
    split at hmachine
    · cases hmachine
    · split at hmachine
      · assumption
      · cases hmachine
  exact Option.isSome_iff_exists.mp hsome

/-- **By its strategy a controller places an object or fails.** -/
theorem During.placeBy {items : List Item} {i size align : Nat} {c : Controller}
    (h : During base items m) (hgeometry : Geometry base) (hc : base.controllers[i]? = some c)
    (hsize : pageSize ∣ size) (halign : 0 < align) :
    (∃ cause m', Action.placeBy c.strategy i size align m = .ok (.error cause) m' ∧
        During base items m') ∨
      ∃ object m', Action.placeBy c.strategy i size align m = .ok (.ok object) m' ∧
        During base (object.items ++ items) m' ∧ object.MadeFor i size c.strategy := by
  have hspaces := Machine.spaces_of_frame h.steady.frame
  cases hbacking : c.backing with
  | heap space length =>
    have hid : base.Has (.heap i) space := ⟨c, length, hc, hbacking⟩
    obtain ⟨next, hnext, -⟩ := hid.of_spaces_eq hspaces
    have hstrategy : c.strategy = .heap := congrArg Backing.strategy hbacking
    rw [hstrategy]
    exact h.placeInHeap hnext hsize align
  | iommu =>
    have hstrategy : c.strategy = .iommu := congrArg Backing.strategy hbacking
    obtain ⟨space, hid⟩ := hgeometry.has_shared hc hstrategy
    obtain ⟨next, hnext, -⟩ := hid.of_spaces_eq hspaces
    rw [hstrategy]
    exact h.placeBehindIommu hnext hsize align
  | dma =>
    have hstrategy : c.strategy = .dma := congrArg Backing.strategy hbacking
    rw [hstrategy]
    exact h.placeInBuffer hsize halign

/-- A machine whose live objects are exactly these, with this roster. -/
structure Accounts (roster : List (Option FirmwareObjects)) (live : List InstanceObject)
    (m : Machine Device) : Prop where
  holding : Holding (live.flatMap (·.items)) m
  geometry : Geometry m
  listed : m.roster = roster
  counted : ∀ (i : Nat) (c : Controller), m.controllers[i]? = some c →
    c.live = live.countP (·.owner == i)
  made : ∀ o ∈ live, o.WellMade ∧ o.owner < roster.length ∧ o.strategy = m.strategy

namespace Accounts

/-! ## Keeping the accounts -/

/-- An operation on a machine in balance begins with all that its live objects hold. -/
theorem during (h : Accounts roster live m) : During m (live.flatMap (·.items)) m :=
  ⟨.refl m, h.holding, rfl⟩

/-- **What keeps the books keeps the accounts.** -/
theorem of_books (h : Accounts roster live m) (hbooks : m'.books = m.books) :
    Accounts roster live m' := by
  have hplan := Machine.plan_of_books hbooks
  refine ⟨h.holding.of_books hbooks, h.geometry.of_plan hplan,
    (Machine.roster_of_plan hplan).trans h.listed, ?_, ?_⟩
  · intro i c' hc'
    obtain ⟨c, hc, hsame⟩ := exists_getElem?_of_map_eq (congrArg (·.controllers) hbooks) hc'
    have hlive : c.live = c'.live := congrArg (·.live) hsame
    exact hlive ▸ h.counted i c hc
  · rw [Machine.strategy_of_plan hplan]
    exact h.made

/-- The order of the objects does not matter. -/
theorem perm (h : Accounts roster live m) (hperm : live.Perm others) : Accounts roster others m where
  holding := h.holding.perm (hperm.flatMap_right _)
  geometry := h.geometry
  listed := h.listed
  counted i c hc := (h.counted i c hc).trans (hperm.countP_eq _)
  made o ho := h.made o (hperm.mem_iff.mpr ho)

theorem length_controllers (h : Accounts roster live m) : m.controllers.length = roster.length := by
  rw [← h.listed, Machine.length_roster]

theorem getElem?_of_lt {i : Nat} (h : Accounts roster live m) (hi : i < roster.length) :
    m.controllers[i]? = some (m.controller i) :=
  Machine.getElem?_of_lt (h.length_controllers ▸ hi)

/-- An operation that ends with what it began with keeps the accounts. -/
theorem of_during (h : Accounts roster live m) (hd : During m (live.flatMap (·.items)) m') :
    Accounts roster live m' := by
  have hplan := Machine.plan_of_frame hd.steady.frame
  refine ⟨hd.holding, h.geometry.of_plan hplan, (Machine.roster_of_plan hplan).trans h.listed,
    ?_, ?_⟩
  · intro i c' hc'
    obtain ⟨c, hc, hlive⟩ := exists_getElem?_of_map_eq hd.counts hc'
    exact hlive ▸ h.counted i c hc
  · rw [Machine.strategy_of_plan hplan]
    exact h.made

/-- An operation that ends with what other objects hold is in balance with them once a controller
counts them. -/
theorem recount {i : Nat} (count : Nat → Nat) (h : Accounts roster live m)
    (hd : During m (others.flatMap (·.items)) m')
    (hcount : ∀ j, others.countP (·.owner == j) =
      if i = j then count (live.countP (·.owner == j)) else live.countP (·.owner == j))
    (hmade : ∀ o ∈ others, o.WellMade ∧ o.owner < roster.length ∧ o.strategy = m.strategy) :
    Accounts roster others (m'.mapController i fun c => { c with live := count c.live }) := by
  have hframe : (m'.mapController i fun c => { c with live := count c.live }).frame = m.frame := by
    refine (Machine.frame_mapController ?_).trans hd.steady.frame
    intro c _
    rfl
  have hplan := Machine.plan_of_frame hframe
  refine ⟨hd.holding.mapController fun _ => rfl, h.geometry.of_plan hplan,
    (Machine.roster_of_plan hplan).trans h.listed, ?_, ?_⟩
  · intro j c' hc'
    rw [Machine.getElem?_mapController, Option.map_eq_some_iff] at hc'
    obtain ⟨c, hc, rfl⟩ := hc'
    obtain ⟨c₀, hc₀, hlive⟩ := exists_getElem?_of_map_eq hd.counts hc
    have hcounted := h.counted j c₀ hc₀
    rw [hcount j, ← hcounted, hlive]
    split <;> rfl
  · rw [Machine.strategy_of_plan hplan]
    exact hmade

/-! ## Placing and freeing -/

/-- **A placement adds its object to the accounts, or leaves them as they are.** -/
theorem place {i : Nat} (h : Accounts roster live m) (hi : i < roster.length) (size align : Nat) :
    (∃ cause m', Action.place i size align m = .ok (.error cause) m' ∧ Steady m m' ∧
        Accounts roster live m') ∨
      ∃ object m', Action.place i size align m = .ok (.ok object) m' ∧ Steady m m' ∧
        Accounts roster (object :: live) m' ∧ object.owner = i := by
  have hc := h.getElem?_of_lt hi
  have hstrategy : (m.controller i).strategy = m.strategy := h.geometry.strategy i _ hc
  unfold Action.place
  rw [run_get_bind]
  obtain ⟨m₁, hnote, h₁⟩ := h.during.note (n := .requested (m.controller i).strategy size align) rfl
  rw [run_bind_of_ok hnote]
  cases hround : Action.pageRound size align with
  | error cause => exact .inl ⟨cause, m₁, rfl, h₁.steady, h.of_during h₁⟩
  | ok rounded =>
    obtain ⟨pages, step⟩ := rounded
    obtain ⟨hpages, hstep⟩ := Action.pageRound_eq_ok hround
    dsimp only
    rcases h₁.placeBy h.geometry hc hpages.dvd hstep with
      ⟨cause, m₂, hcause, h₂⟩ | ⟨object, m₂, hobject, h₂, hmade⟩
    · rw [run_bind_of_ok hcause]
      exact .inl ⟨cause, m₂, rfl, h₂.steady, h.of_during h₂⟩
    · rw [run_bind_of_ok hobject]
      dsimp only
      obtain ⟨m₃, hplaced, h₃⟩ := h₂.note (n := .placed pages step object.offset) rfl
      have hcount : Action.onController i (fun c => { c with live := c.live + 1 }) m₃ =
          .ok () (m₃.mapController i fun c => { c with live := c.live + 1 }) := rfl
      rw [run_bind_of_ok hplaced, run_bind_of_ok hcount]
      refine .inr ⟨object, _, rfl, h₃.steady.mapController fun _ => rfl,
        h.recount (· + 1) h₃ ?_ ?_, hmade.owner⟩
      · intro j
        rw [List.countP_cons, hmade.owner]
        by_cases hj : i = j
        · simp only [hj, beq_self_eq_true, ↓reduceIte]
        · simp only [hj, beq_eq_false_iff_ne.mpr hj, Bool.false_eq_true, ↓reduceIte, Nat.add_zero]
      · refine List.forall_mem_cons.mpr ⟨⟨hmade.wellMade, ?_, ?_⟩, h.made⟩
        · exact hmade.owner ▸ hi
        · exact hmade.strategy.trans hstrategy

/-- **A live object can be freed**, which takes it out of the accounts. -/
theorem free (h : Accounts roster (object :: live) m) :
    ∃ m', Action.free object m = .ok () m' ∧ Steady m m' ∧ Accounts roster live m' := by
  have hmade := (h.made object List.mem_cons_self).1
  obtain ⟨m₁, hback, h₁⟩ := h.during.giveBack hmade
  refine ⟨m₁.mapController object.owner fun c => { c with live := c.live - 1 }, ?_, ?_, ?_⟩
  · simp only [Action.free, Action.andFinally, hback]
  · exact h₁.steady.mapController fun _ => rfl
  · refine h.recount (· - 1) h₁ ?_ fun o ho =>
      h.made o (List.mem_cons_of_mem _ ho)
    intro j
    rw [List.countP_cons]
    by_cases hj : object.owner = j
    · simp only [hj, beq_self_eq_true, ↓reduceIte, Nat.add_sub_cancel]
    · simp only [hj, beq_eq_false_iff_ne.mpr hj, Bool.false_eq_true, ↓reduceIte, Nat.add_zero]

end Accounts
end InstanceMemory
