import InstanceMemory.Proofs.Simulator.Translation
import InstanceMemory.Simulator.Device

/-!
# What is held of a machine

An **item** is one thing that is taken of a machine with a simulated device: a page or a buffer of
system memory, a range of one of the spaces, or a slot of the translation table.
`Holding items m` is the account between a list of items and a machine: system memory has exactly
their pages and buffers out, each space exactly their ranges, and the table maps exactly their slots.
The order of the items does not matter.

While items come and go nothing else about a machine changes. `m.frame` is what stays: the machine
without what is taken of it, without the counts of live objects, the budgets of its device and the
lines of its journal. `During base items m` says that an operation that began at `base` has come to
`m` and holds these items there.

The items settle the spaces and the table, so an operation that ends with the items it began with has
changed nothing but the budgets and the journal.
-/

set_option autoImplicit false

namespace InstanceMemory

open Simulator (Device Translation pageRange)

/-- One thing taken of a machine. -/
inductive Item
  | page (page : Nat)
  | buffer (buffer : Buffer)
  | range (space : SpaceId) (range : AddressRange)
  /-- A page of device addresses with the physical page it is mapped to. -/
  | slot (address page : Nat)

namespace Item

/-- The page, if the item is one. -/
def page? : Item → Option Nat
  | page p => some p
  | _ => none

/-- The buffer, if the item is one. -/
def buffer? : Item → Option Buffer
  | buffer b => some b
  | _ => none

/-- The range, if the item is one of the space of this name. -/
def rangeIn? (id : SpaceId) : Item → Option AddressRange
  | range other r => if other = id then some r else none
  | _ => none

/-- The slot, if the item is one. -/
def slot? : Item → Option (Nat × Nat)
  | slot address p => some (address, p)
  | _ => none

/-- The pages among some items. -/
def pages (items : List Item) : List Nat := items.filterMap page?

/-- The buffers among some items. -/
def buffers (items : List Item) : List Buffer := items.filterMap buffer?

/-- The ranges of a space among some items. -/
def rangesIn (id : SpaceId) (items : List Item) : List AddressRange := items.filterMap (rangeIn? id)

/-- The slots among some items. -/
def slots (items : List Item) : List (Nat × Nat) := items.filterMap slot?

theorem rangesIn_cons_self (id : SpaceId) (r : AddressRange) (items : List Item) :
    rangesIn id (.range id r :: items) = r :: rangesIn id items :=
  List.filterMap_cons_some (if_pos rfl)

theorem mem_rangesIn {id : SpaceId} {r : AddressRange} {items : List Item}
    (h : .range id r ∈ items) : r ∈ rangesIn id items :=
  List.mem_filterMap.mpr ⟨_, h, if_pos rfl⟩

theorem rangesIn_cons_of_ne {id other : SpaceId} (h : id ≠ other) (r : AddressRange)
    (items : List Item) : rangesIn other (.range id r :: items) = rangesIn other items :=
  List.filterMap_cons_none (if_neg h)

end Item

namespace Machine

variable {π : Type} {m : Machine π} {id other : SpaceId} {space next : RangeSpace}

/-! ## The spaces of a machine -/

/-- A machine has a space under a name. -/
def Has (m : Machine π) : SpaceId → RangeSpace → Prop
  | .shared, space => m.shared = some space
  | .heap i, space => ∃ c length, m.controllers[i]? = some c ∧ c.backing = .heap space length

theorem controller_of_getElem? {i : Nat} {c : Controller} (h : m.controllers[i]? = some c) :
    m.controller i = c := by
  simp only [controller, List.getD_eq_getElem?_getD, h, Option.getD_some]

theorem getElem?_of_lt {i : Nat} (h : i < m.controllers.length) :
    m.controllers[i]? = some (m.controller i) := by
  simp only [controller, List.getD_eq_getElem?_getD, List.getElem?_eq_getElem h, Option.getD_some]

theorem Has.space? (h : m.Has id space) : m.space? id = some space := by
  cases id with
  | shared => exact h
  | heap i =>
    obtain ⟨c, length, hc, hbacking⟩ := h
    simp only [Machine.space?, controller_of_getElem? hc, hbacking]

theorem Has.unique (h : m.Has id space) (h' : m.Has id next) : space = next := by
  have := h.space?.symm.trans h'.space?
  exact Option.some.inj this

theorem getElem?_mapController (m : Machine π) (i j : Nat) (f : Controller → Controller) :
    (m.mapController i f).controllers[j]? =
      (m.controllers[j]?).map fun c => if i = j then f c else c := by
  simp only [mapController, List.getElem?_modify]
  cases m.controllers[j]? <;> rfl

/-- A change of a controller does not show where its record looks the same after it. -/
theorem map_mapController {β : Type} {g : Controller → β} {i : Nat} {f : Controller → Controller}
    (h : ∀ c, m.controllers[i]? = some c → g (f c) = g c) :
    (m.mapController i f).controllers.map g = m.controllers.map g := by
  apply List.ext_getElem?
  intro j
  rw [List.getElem?_map, List.getElem?_map, getElem?_mapController, Option.map_map]
  by_cases hij : i = j
  · subst hij
    cases hc : m.controllers[i]? with
    | none => rfl
    | some c => simp only [Option.map_some, Function.comp_apply, ↓reduceIte, h c hc]
  · simp only [hij, ↓reduceIte, Function.comp_def]

/-- A space that was put in the place of another is there. -/
theorem Has.setSpace_self (h : m.Has id space) (next : RangeSpace) :
    (m.setSpace id next).Has id next := by
  cases id with
  | shared => rfl
  | heap i =>
    obtain ⟨c, length, hc, hbacking⟩ := h
    refine ⟨{ c with backing := .heap next length }, length, ?_, rfl⟩
    simp only [Machine.setSpace, getElem?_mapController, hc, Option.map_some, ↓reduceIte, hbacking]

/-- Changes of a controller that leave its backing alone leave the spaces where they are. -/
theorem has_mapController {i : Nat} {f : Controller → Controller}
    (h : ∀ c, (f c).backing = c.backing) : (m.mapController i f).Has id space ↔ m.Has id space := by
  cases id with
  | shared => rfl
  | heap j =>
    simp only [Has, getElem?_mapController, Option.map_eq_some_iff]
    constructor
    · rintro ⟨c', length, ⟨c, hc, rfl⟩, hbacking⟩
      refine ⟨c, length, hc, ?_⟩
      split at hbacking
      · exact (h c).symm.trans hbacking
      · exact hbacking
    · rintro ⟨c, length, hc, hbacking⟩
      refine ⟨_, length, ⟨c, hc, rfl⟩, ?_⟩
      split
      · exact (h c).trans hbacking
      · exact hbacking

/-- Replacing a space leaves the counts of live objects alone. -/
theorem live_setSpace (m : Machine π) (id : SpaceId) (next : RangeSpace) :
    (m.setSpace id next).controllers.map (·.live) = m.controllers.map (·.live) := by
  cases id with
  | shared => rfl
  | heap i =>
    apply map_mapController
    intro c _
    cases c.backing <;> rfl

/-- Replacing a space leaves the others where they are. -/
theorem has_setSpace_of_ne (h : id ≠ other) :
    (m.setSpace id next).Has other space ↔ m.Has other space := by
  cases id with
  | shared =>
    cases other with
    | shared => exact absurd rfl h
    | heap j => rfl
  | heap i =>
    cases other with
    | shared => rfl
    | heap j =>
      have hij : i ≠ j := fun hij => h (congrArg SpaceId.heap hij)
      simp only [Has, Machine.setSpace, getElem?_mapController, hij, ↓reduceIte, Option.map_id_fun',
        id]

end Machine

/-! ## The frame -/

/-- The backing with an empty heap. -/
def Backing.emptied : Backing → Backing
  | heap space length => .heap space.emptied length
  | iommu => .iommu
  | dma => .dma

/-- The controller without its objects. -/
def Controller.frame (c : Controller) : Controller := { c with backing := c.backing.emptied, live := 0 }

namespace Machine

variable {m : Machine Device} {id : SpaceId} {space next : RangeSpace}

/-- The machine without what is taken of it, and without what is used up on the way. -/
def frame (m : Machine Device) : Machine Device :=
  { m with
    hardware.memory := m.hardware.memory.bare
    hardware.translation := m.hardware.translation.map fun _ => .empty
    shared := m.shared.map (·.emptied)
    controllers := m.controllers.map (·.frame)
    journal := .start m.journal.isOpen }

/-- The mappings that the device still permits. -/
def mappingBudget (m : Machine Device) : Simulator.Budget :=
  (m.hardware.translation.map (·.budget)).getD none

theorem frame_mapController {i : Nat} {f : Controller → Controller}
    (h : ∀ c, m.controllers[i]? = some c → (f c).frame = c.frame) :
    (m.mapController i f).frame = m.frame := by
  have hmap : (m.mapController i f).controllers.map (·.frame) = m.controllers.map (·.frame) :=
    map_mapController h
  simp only [frame, hmap]
  rfl

theorem frame_setSpace (h : m.Has id space) (hemptied : next.emptied = space.emptied) :
    (m.setSpace id next).frame = m.frame := by
  cases id with
  | shared =>
    have hshared : m.shared = some space := h
    simp only [frame, setSpace, hshared, Option.map_some, hemptied]
  | heap i =>
    obtain ⟨c, length, hc, hbacking⟩ := h
    apply frame_mapController
    intro c' hc'
    obtain rfl := Option.some.inj (hc.symm.trans hc')
    simp only [hbacking, Controller.frame, Backing.emptied, hemptied]

/-- The spaces of a machine with nothing out of them. -/
def spaces (m : Machine Device) : Option RangeSpace × List Backing :=
  (m.shared.map (·.emptied), m.controllers.map (·.backing.emptied))

theorem spaces_frame (m : Machine Device) : m.frame.spaces = m.spaces := by
  have hbacking : ∀ b : Backing, b.emptied.emptied = b.emptied := by
    intro b
    cases b <;> rfl
  simp only [spaces, frame, Option.map_map, List.map_map, Function.comp_def, Controller.frame,
    hbacking]
  rfl

/-- Machines with the same spaces have the same names for them, whatever is out of them. -/
theorem Has.of_spaces_eq {m' : Machine Device} (h : m.Has id space) (heq : m'.spaces = m.spaces) :
    ∃ next, m'.Has id next ∧ next.emptied = space.emptied := by
  cases id with
  | shared =>
    have hshared : m.shared = some space := h
    have heq := congrArg (·.1) heq
    simp only [spaces, hshared, Option.map_some, Option.map_eq_some_iff] at heq
    exact heq
  | heap i =>
    obtain ⟨c, length, hc, hbacking⟩ := h
    have heq := congrArg (·.2[i]?) heq
    simp only [spaces, List.getElem?_map, hc, Option.map_some, Option.map_eq_some_iff] at heq
    obtain ⟨c', hc', hsame⟩ := heq
    rw [hbacking] at hsame
    cases hb : c'.backing with
    | heap next length' =>
      rw [hb] at hsame
      injection hsame with hemptied
      exact ⟨next, ⟨c', length', hc', hb⟩, hemptied⟩
    | iommu =>
      rw [hb] at hsame
      cases hsame
    | dma =>
      rw [hb] at hsame
      cases hsame

theorem spaces_of_frame {m' : Machine Device} (h : m'.frame = m.frame) : m'.spaces = m.spaces := by
  rw [← spaces_frame m', h, spaces_frame]

end Machine

/-! ## The account -/

/-- What is taken of a machine is exactly these items. -/
structure Holding (items : List Item) (m : Machine Device) : Prop where
  silent : m.trace.isRecording = false
  memory : m.hardware.memory.Lends (Item.pages items) (Item.buffers items)
  translation : ∀ t, m.hardware.translation = some t → t.Maps (Item.slots items)
  untranslated : m.hardware.translation = none → Item.slots items = []
  spaces : ∀ id space, m.Has id space → space.Lends (Item.rangesIn id items)
  /-- Ranges are held of spaces that there are. -/
  placed : ∀ id, Item.rangesIn id items ≠ [] → ∃ space, m.Has id space

/-- A machine differs from another only in what is taken of it and used up. -/
structure Steady (base m : Machine Device) : Prop where
  frame : m.frame = base.frame
  pagesLeft : base.hardware.memory.pageBudget.Left m.hardware.memory.pageBudget
  mappingsLeft : base.mappingBudget.Left m.mappingBudget

/-- An operation that began at `base` has come to `m` and holds these items there. It counts no
object until it is done. -/
structure During (base : Machine Device) (items : List Item) (m : Machine Device) : Prop where
  steady : Steady base m
  holding : Holding items m
  counts : m.controllers.map (·.live) = base.controllers.map (·.live)

theorem Steady.refl (m : Machine Device) : Steady m m := ⟨rfl, .refl _, .refl _⟩

variable {base m : Machine Device} {items others : List Item}

theorem Steady.mapController {i : Nat} {f : Controller → Controller} (h : Steady base m)
    (hf : ∀ c, (f c).frame = c.frame) : Steady base (m.mapController i f) :=
  ⟨(Machine.frame_mapController fun c _ => hf c).trans h.frame, h.pagesLeft, h.mappingsLeft⟩

/-- Changes of a controller that leave its backing alone leave alone what is held. -/
theorem Holding.mapController {i : Nat} {f : Controller → Controller} (h : Holding items m)
    (hf : ∀ c, (f c).backing = c.backing) : Holding items (m.mapController i f) where
  silent := h.silent
  memory := h.memory
  translation := h.translation
  untranslated := h.untranslated
  spaces id space hid := h.spaces id space ((Machine.has_mapController hf).mp hid)
  placed id hne := by
    obtain ⟨space, hid⟩ := h.placed id hne
    exact ⟨space, (Machine.has_mapController hf).mpr hid⟩

/-- The order of the items does not matter. -/
theorem Holding.perm (h : Holding items m) (hperm : items.Perm others) : Holding others m where
  silent := h.silent
  memory := h.memory.perm (hperm.filterMap _) (hperm.filterMap _)
  translation t ht := (h.translation t ht).perm (hperm.filterMap _)
  untranslated ht := by
    have hslots : (Item.slots items).Perm (Item.slots others) := hperm.filterMap _
    rw [h.untranslated ht] at hslots
    exact hslots.nil_eq.symm
  spaces id space hid := (h.spaces id space hid).perm (hperm.filterMap _)
  placed id hne := h.placed id fun hnil => hne (by
    have hranges : (Item.rangesIn id items).Perm (Item.rangesIn id others) := hperm.filterMap _
    rw [hnil] at hranges
    exact hranges.nil_eq.symm)

theorem During.perm (h : During base items m) (hperm : items.Perm others) : During base others m :=
  ⟨h.steady, h.holding.perm hperm, h.counts⟩

end InstanceMemory
