import InstanceMemory.Proofs.Machine.Holding
import InstanceMemory.Object

/-!
# The items of an object

An object takes the items of its resource (`InstanceObject.items`): a range of the heap of its
controller; or a range of device addresses, some pages and a slot for each of them; or a buffer. The
lemmas of this module sort them out by their kinds, one object at a time and for lists of objects.

A `WellMade` object is as large as what it takes and lies where that is.
-/

set_option autoImplicit false

namespace InstanceMemory

namespace Item

/-- Pages mapped one after the other from a device address on. -/
def slotsFrom : (address : Nat) → (pages : List Nat) → List Item
  | _, [] => []
  | address, p :: rest => .slot address p :: slotsFrom (address + pageSize) rest

variable {address a p : Nat} {ps : List Nat}

theorem slotsFrom_append (address : Nat) (ps : List Nat) (p : Nat) :
    slotsFrom address (ps ++ [p]) =
      slotsFrom address ps ++ [.slot (address + ps.length * pageSize) p] := by
  induction ps generalizing address with
  | nil => simp only [List.nil_append, slotsFrom, List.length_nil, Nat.zero_mul, Nat.add_zero]
  | cons first rest ih =>
    have : address + pageSize + rest.length * pageSize =
        address + (rest.length + 1) * pageSize := by
      rw [Nat.succ_mul]
      omega
    simp only [List.cons_append, slotsFrom, ih, List.length_cons, this]

/-- What is looked for is not found among slots. -/
theorem filterMap_slotsFrom {β : Type} {f : Item → Option β} (h : ∀ a p, f (.slot a p) = none)
    (address : Nat) (ps : List Nat) : (slotsFrom address ps).filterMap f = [] := by
  induction ps generalizing address with
  | nil => rfl
  | cons p rest ih => rw [slotsFrom, List.filterMap_cons_none (h address p), ih]

/-- What is looked for is not found among pages. -/
theorem filterMap_pages {β : Type} {f : Item → Option β} (h : ∀ p, f (.page p) = none)
    (ps : List Nat) : (ps.map Item.page).filterMap f = [] := by
  induction ps with
  | nil => rfl
  | cons p rest ih => rw [List.map_cons, List.filterMap_cons_none (h p), ih]

theorem pages_map_page (ps : List Nat) : pages (ps.map Item.page) = ps := by
  induction ps with
  | nil => rfl
  | cons p rest ih => exact congrArg (p :: ·) ih

/-- The slot of every page is where its place in the row says. -/
theorem mem_slots_slotsFrom :
    (a, p) ∈ slots (slotsFrom address ps) ↔
      ∃ i, ps[i]? = some p ∧ a = address + i * pageSize := by
  induction ps generalizing address with
  | nil => simp only [slotsFrom, slots, List.filterMap_nil, List.not_mem_nil, List.getElem?_nil,
      reduceCtorEq, false_and, exists_false]
  | cons first rest ih =>
    have hcons : slots (slotsFrom address (first :: rest)) =
        (address, first) :: slots (slotsFrom (address + pageSize) rest) := rfl
    rw [hcons, List.mem_cons, ih, Prod.mk.injEq]
    constructor
    · rintro (⟨rfl, rfl⟩ | ⟨i, hi, rfl⟩)
      · exact ⟨0, rfl, by rw [Nat.zero_mul, Nat.add_zero]⟩
      · exact ⟨i + 1, hi, by rw [Nat.succ_mul]; omega⟩
    · rintro ⟨i, hi, rfl⟩
      cases i with
      | zero =>
        obtain rfl := Option.some.inj hi
        exact .inl ⟨by rw [Nat.zero_mul, Nat.add_zero], rfl⟩
      | succ i => exact .inr ⟨i, hi, by rw [Nat.succ_mul]; omega⟩

theorem length_slots_slotsFrom (address : Nat) (ps : List Nat) :
    (slots (slotsFrom address ps)).length = ps.length := by
  induction ps generalizing address with
  | nil => rfl
  | cons p rest ih => exact congrArg (· + 1) (ih _)

end Item

/-! ## What an object takes -/

/-- What the object of a controller takes. -/
def Resource.items (owner : Nat) : Resource → List Item
  | heap range => [.range (.heap owner) range]
  | iommu range pages => Item.slotsFrom range.base pages ++ pages.map .page ++ [.range .shared range]
  | dma buffer => [.buffer buffer]

namespace InstanceObject

/-- What an object takes. -/
def items (o : InstanceObject) : List Item := o.resource.items o.owner

/-- The pages behind an object. -/
def pages (o : InstanceObject) : List Nat :=
  match o.resource with
  | .iommu _ pages => pages
  | .heap _ | .dma _ => []

/-- The buffer of an object. -/
def buffers (o : InstanceObject) : List Buffer :=
  match o.resource with
  | .dma buffer => [buffer]
  | .heap _ | .iommu .. => []

/-- The range of device addresses of an object. -/
def deviceRanges (o : InstanceObject) : List AddressRange :=
  match o.resource with
  | .iommu range _ => [range]
  | .heap _ | .dma _ => []

/-- The range of an object in the heap of a controller. -/
def heapRanges (i : Nat) (o : InstanceObject) : List AddressRange :=
  match o.resource with
  | .heap range => if o.owner = i then [range] else []
  | .iommu .. | .dma _ => []

/-- An object is as large as what it takes and lies where that is. -/
structure WellMade (o : InstanceObject) : Prop where
  paged : pageSize ∣ o.size
  fits : match o.resource with
    | .heap range => range = ⟨o.offset, o.size⟩
    | .iommu range pages =>
      o.offset = setResolveBit range.base ∧ range.length = o.size ∧
        pages.length * pageSize = o.size
    | .dma buffer => buffer = ⟨o.offset, o.size⟩

/-- An object made for a controller, of a size and by a strategy. -/
structure MadeFor (o : InstanceObject) (i size : Nat) (strategy : Strategy) : Prop where
  wellMade : o.WellMade
  owner : o.owner = i
  size : o.size = size
  strategy : o.strategy = strategy

/-! ## The items by their kinds -/

theorem pages_items (o : InstanceObject) : Item.pages o.items = o.pages := by
  obtain ⟨owner, offset, size, isMisaligned, resource⟩ := o
  cases resource with
  | iommu range ps =>
    have hslots := Item.filterMap_slotsFrom (f := Item.page?) (fun _ _ => rfl) range.base ps
    have hpages := Item.pages_map_page ps
    simp only [Item.pages] at hpages
    simp only [items, Resource.items, Item.pages, List.filterMap_append, hslots, hpages,
      List.nil_append]
    exact List.append_nil ps
  | heap range => rfl
  | dma buffer => rfl

theorem buffers_items (o : InstanceObject) : Item.buffers o.items = o.buffers := by
  obtain ⟨owner, offset, size, isMisaligned, resource⟩ := o
  cases resource with
  | iommu range ps =>
    have hslots := Item.filterMap_slotsFrom (f := Item.buffer?) (fun _ _ => rfl) range.base ps
    have hpages := Item.filterMap_pages (f := Item.buffer?) (fun _ => rfl) ps
    simp only [items, Resource.items, Item.buffers, List.filterMap_append, hslots, hpages]
    rfl
  | heap range => rfl
  | dma buffer => rfl

theorem rangesIn_shared_items (o : InstanceObject) :
    Item.rangesIn .shared o.items = o.deviceRanges := by
  obtain ⟨owner, offset, size, isMisaligned, resource⟩ := o
  cases resource with
  | iommu range ps =>
    have hslots :=
      Item.filterMap_slotsFrom (f := Item.rangeIn? .shared) (fun _ _ => rfl) range.base ps
    have hpages := Item.filterMap_pages (f := Item.rangeIn? .shared) (fun _ => rfl) ps
    simp only [items, Resource.items, Item.rangesIn, List.filterMap_append, hslots, hpages]
    rfl
  | heap range => rfl
  | dma buffer => rfl

theorem rangesIn_heap_items (o : InstanceObject) (i : Nat) :
    Item.rangesIn (.heap i) o.items = o.heapRanges i := by
  obtain ⟨owner, offset, size, isMisaligned, resource⟩ := o
  cases resource with
  | iommu range ps =>
    have hslots :=
      Item.filterMap_slotsFrom (f := Item.rangeIn? (.heap i)) (fun _ _ => rfl) range.base ps
    have hpages := Item.filterMap_pages (f := Item.rangeIn? (.heap i)) (fun _ => rfl) ps
    simp only [items, Resource.items, Item.rangesIn, List.filterMap_append, hslots, hpages]
    rfl
  | heap range =>
    by_cases howner : owner = i
    · subst howner
      simp only [items, Resource.items, heapRanges, ↓reduceIte]
      exact Item.rangesIn_cons_self _ _ _
    · simp only [items, Resource.items, heapRanges, howner, ↓reduceIte]
      exact Item.rangesIn_cons_of_ne (fun h => howner (SpaceId.heap.inj h)) _ _
  | dma buffer => rfl

/-- The slots of an object are those of its pages, in a row from its base on. -/
theorem slots_items (o : InstanceObject) :
    Item.slots o.items = match o.resource with
      | .iommu range ps => Item.slots (Item.slotsFrom range.base ps)
      | .heap _ | .dma _ => [] := by
  obtain ⟨owner, offset, size, isMisaligned, resource⟩ := o
  cases resource with
  | iommu range ps =>
    have hpages := Item.filterMap_pages (f := Item.slot?) (fun _ => rfl) ps
    simp only [items, Resource.items, Item.slots, List.filterMap_append, hpages, List.append_nil]
    exact List.append_nil _
  | heap range => rfl
  | dma buffer => rfl

/-! ## The items of all objects -/

variable (live : List InstanceObject)

theorem pages_flatMap_items : Item.pages (live.flatMap (·.items)) = live.flatMap (·.pages) :=
  List.filterMap_flatMap.trans (List.flatMap_congr fun o _ => o.pages_items)

theorem buffers_flatMap_items :
    Item.buffers (live.flatMap (·.items)) = live.flatMap (·.buffers) :=
  List.filterMap_flatMap.trans (List.flatMap_congr fun o _ => o.buffers_items)

theorem rangesIn_shared_flatMap_items :
    Item.rangesIn .shared (live.flatMap (·.items)) = live.flatMap (·.deviceRanges) :=
  List.filterMap_flatMap.trans (List.flatMap_congr fun o _ => o.rangesIn_shared_items)

theorem rangesIn_heap_flatMap_items (i : Nat) :
    Item.rangesIn (.heap i) (live.flatMap (·.items)) = live.flatMap (·.heapRanges i) :=
  List.filterMap_flatMap.trans (List.flatMap_congr fun o _ => o.rangesIn_heap_items i)

/-- A slot is that of a page of a live object, at the place of the page in the object. -/
theorem mem_slots_flatMap_items {address page : Nat} :
    (address, page) ∈ Item.slots (live.flatMap (·.items)) ↔
      ∃ o ∈ live, ∃ range pages i, o.resource = .iommu range pages ∧ pages[i]? = some page ∧
        address = range.base + i * pageSize := by
  have hsplit : Item.slots (live.flatMap (·.items)) = live.flatMap (Item.slots ·.items) :=
    List.filterMap_flatMap
  rw [hsplit, List.mem_flatMap]
  refine exists_congr fun o => and_congr_right ?_
  intro _
  rw [o.slots_items]
  cases o.resource with
  | iommu range pages =>
    rw [Item.mem_slots_slotsFrom]
    constructor
    · rintro ⟨i, hi, ha⟩
      exact ⟨range, pages, i, rfl, hi, ha⟩
    · rintro ⟨_, _, i, hresource, hi, ha⟩
      obtain ⟨rfl, rfl⟩ := Resource.iommu.inj hresource
      exact ⟨i, hi, ha⟩
  | heap range => simp only [List.not_mem_nil, reduceCtorEq, false_and, exists_false]
  | dma buffer => simp only [List.not_mem_nil, reduceCtorEq, false_and, exists_false]

/-- There is a slot for every page. -/
theorem length_slots_flatMap_items :
    (Item.slots (live.flatMap (·.items))).length = (live.flatMap (·.pages)).length := by
  have hsplit : Item.slots (live.flatMap (·.items)) = live.flatMap (Item.slots ·.items) :=
    List.filterMap_flatMap
  rw [hsplit, List.length_flatMap, List.length_flatMap]
  refine congrArg List.sum (List.map_congr_left ?_)
  intro o _
  rw [o.slots_items, pages]
  cases o.resource with
  | iommu range pages => exact Item.length_slots_slotsFrom _ _
  | heap range => rfl
  | dma buffer => rfl

end InstanceObject
end InstanceMemory
