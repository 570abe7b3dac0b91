import InstanceMemory.Proofs.DeviceMap
import InstanceMemory.Proofs.Machine.Accounts
import InstanceMemory.Proofs.Machine.Store
import InstanceMemory.Proofs.Simulator.Device

/-!
# Where objects lie

Every byte of an object has its place in the memory of the device (`InstanceObject.place`): in
dedicated memory where the object says, in system memory where it says, or in the pages that its
device addresses are mapped to. A live object is `Placed`: its device addresses resolve to its places,
the places of its words are words of the memory, and no two of its bytes share one. Live objects share
no place either (`Accounts.apart`), but for objects of different heaps, which lie in the same memory.

Where objects lie can be read from the books, so no access moves an object.
-/

set_option autoImplicit false

namespace InstanceMemory

open Simulator (Device SystemMemory pageRange systemMemoryBase)

/-! ## The books of a device -/

namespace Simulator.Device

variable {d d' : Device}

/-- Where an address lies can be read from the books. -/
theorem resolve_of_books (h : d'.books = d.books) (address : Nat) :
    d'.resolve address = d.resolve address := by
  have hconfig : d'.config = d.config := congrArg (·.config) h
  have htranslation : d'.translation = d.translation := congrArg (·.translation) h
  simp only [resolve, hconfig, htranslation]

/-- Which places have words can be read from the books. -/
theorem hasWord_of_books (h : d'.books = d.books) (place : Nat) :
    d'.HasWord place ↔ d.HasWord place := by
  have hconfig : d'.config = d.config := congrArg (·.config) h
  have hvram : d'.vram.size = d.vram.size := congrArg (·.vram.size) h
  have hmemory : d'.memory.size = d.memory.size := congrArg (·.memory.size) h
  simp only [HasWord, Vram.word?, SystemMemory.word?, hconfig, hvram, hmemory]

end Simulator.Device

/-- Behind a page of device addresses there is one slot for each page. -/
theorem Simulator.Translation.pageOf_add {base : Nat} (h : pageSize ∣ base) (offset : Nat) :
    pageOf (base + offset) = base + offset / pageSize * pageSize := by
  obtain ⟨first, rfl⟩ := h
  rw [pageOf, Nat.mul_add_div (by decide), Nat.add_mul, Nat.mul_comm first]

/-! ## Places -/

namespace InstanceObject

/-- Where in the memory of the device a byte of an object lies. -/
def place (o : InstanceObject) (offset : Nat) : Nat :=
  match o.resource with
  | .heap _ | .dma _ => o.offset + offset
  | .iommu _ pages => pages.getD (offset / pageSize) 0 + offset % pageSize

/-- The blocks of memory that an object lies in. -/
def blocks (o : InstanceObject) : List AddressRange :=
  match o.resource with
  | .heap range => [range]
  | .iommu _ pages => pages.map pageRange
  | .dma buffer => [buffer.range]

/-- Objects that share no place. -/
def Apart (o o' : InstanceObject) : Prop :=
  ∀ a < o.size, ∀ b < o'.size, o.place a ≠ o'.place b

theorem Apart.symm {o o' : InstanceObject} (h : o.Apart o') : o'.Apart o :=
  fun a ha b hb heq => h b hb a ha heq.symm

variable {o o' : InstanceObject} {offset : Nat}

theorem strategy_ne_heap_of_dma {buffer : Buffer} (hresource : o.resource = .dma buffer) :
    o.strategy ≠ .heap := by
  rw [strategy, hresource]
  exact (by decide : Strategy.dma ≠ .heap)

theorem range_mem_blocks {buffer : Buffer} (hresource : o.resource = .dma buffer) :
    buffer.range ∈ o.blocks := by
  rw [blocks, hresource]
  exact List.mem_singleton_self _

theorem range_mem_items {range : AddressRange} (hresource : o.resource = .heap range) :
    Item.range (.heap o.owner) range ∈ o.items := by
  rw [items, hresource]
  exact List.mem_singleton_self _

theorem strategy_ne_heap_of_iommu {range : AddressRange} {pages : List Nat}
    (hresource : o.resource = .iommu range pages) : o.strategy ≠ .heap := by
  rw [strategy, hresource]
  exact (by decide : Strategy.iommu ≠ .heap)

/-- A byte of an object behind the IOMMU lies in the page of its slot. -/
theorem place_of_iommu {range : AddressRange} {pages : List Nat}
    (hresource : o.resource = .iommu range pages) {page : Nat}
    (hpage : pages[offset / pageSize]? = some page) :
    o.place offset = page + offset % pageSize := by
  simp only [place, hresource, List.getD_eq_getElem?_getD, hpage, Option.getD_some]

/-- A byte of an object that is not behind the IOMMU lies where the object says. -/
theorem place_of_ne_iommu (h : o.strategy ≠ .iommu) (offset : Nat) :
    o.place offset = o.offset + offset := by
  unfold place
  cases hresource : o.resource with
  | heap range => rfl
  | dma buffer => rfl
  | iommu range pages => exact absurd (congrArg Resource.strategy hresource) h

/-- There is a page for each byte of an object behind the IOMMU. -/
theorem WellMade.exists_page {range : AddressRange} {pages : List Nat} (h : o.WellMade)
    (hresource : o.resource = .iommu range pages) (hoffset : offset < o.size) :
    ∃ page, pages[offset / pageSize]? = some page := by
  have hfits := h.fits
  rw [hresource] at hfits
  obtain ⟨-, -, hpages⟩ := hfits
  have hindex : offset / pageSize < pages.length :=
    Nat.div_lt_of_lt_mul (by rw [Nat.mul_comm, hpages]; exact hoffset)
  exact ⟨_, List.getElem?_eq_getElem hindex⟩

theorem pageRange_mem_blocks {range : AddressRange} {pages : List Nat} {i page : Nat}
    (hresource : o.resource = .iommu range pages) (hpage : pages[i]? = some page) :
    pageRange page ∈ o.blocks := by
  rw [blocks, hresource]
  exact List.mem_map_of_mem (List.mem_of_getElem? hpage)

/-- A byte of an object behind the IOMMU lies in one of its pages. -/
theorem holds_page (page offset : Nat) : (pageRange page).Holds (page + offset % pageSize) := by
  have hmod : offset % pageSize < pageSize := Nat.mod_lt _ (by decide)
  simp only [AddressRange.Holds, AddressRange.limit, pageRange]
  omega

/-- Every byte of an object lies in one of its blocks. -/
theorem WellMade.place_mem (h : o.WellMade) (hoffset : offset < o.size) :
    ∃ block ∈ o.blocks, block.Holds (o.place offset) := by
  have hfits := h.fits
  unfold blocks
  cases hresource : o.resource with
  | heap range =>
    rw [hresource] at hfits
    refine ⟨range, List.mem_singleton_self _, ?_⟩
    simp only [AddressRange.Holds, AddressRange.limit, place, hresource, hfits]
    omega
  | dma buffer =>
    rw [hresource] at hfits
    refine ⟨buffer.range, List.mem_singleton_self _, ?_⟩
    simp only [AddressRange.Holds, AddressRange.limit, Buffer.range, place, hresource, hfits]
    omega
  | iommu range pages =>
    obtain ⟨page, hpage⟩ := h.exists_page hresource hoffset
    refine ⟨pageRange page, List.mem_map_of_mem (List.mem_of_getElem? hpage), ?_⟩
    rw [place_of_iommu hresource hpage]
    exact holds_page page offset

/-- Objects in different blocks of a space share no place. -/
theorem Apart.of_disjoint {space : RangeSpace} {ranges : List AddressRange}
    (hlends : space.Lends ranges) (h : o.WellMade) (h' : o'.WellMade)
    (hblocks : ∀ block ∈ o.blocks, block ∈ ranges) (hblocks' : ∀ block ∈ o'.blocks, block ∈ ranges)
    (hdisjoint : o.blocks.Disjoint o'.blocks) : o.Apart o' := by
  intro a ha b hb heq
  obtain ⟨block, hblock, hholds⟩ := h.place_mem ha
  obtain ⟨block', hblock', hholds'⟩ := h'.place_mem hb
  have hsame := hlends.eq_of_holds (hblocks block hblock) (hblocks' block' hblock') hholds
    (heq ▸ hholds')
  exact hdisjoint hblock (hsame ▸ hblock')

end InstanceObject

/-- An object lies in the memory of the device, each byte at a place of its own, and can be reached
there. -/
structure Placed (m : Machine Device) (o : InstanceObject) : Prop where
  aligned : wordSize ∣ o.size
  limit : o.offset + o.size < addressLimit
  /-- The device addresses of the object resolve to its places. -/
  resolves : ∀ offset < o.size, m.hardware.resolve (o.offset + offset) = .ok (some (o.place offset))
  hasWord : ∀ offset < o.size, wordSize ∣ offset → m.hardware.HasWord (o.place offset)
  injective : ∀ a < o.size, ∀ b < o.size, o.place a = o.place b → a = b
  /-- The aperture shows the memory that objects on the heap lie in. -/
  heap : o.strategy = .heap → m.hardware.config.hasVram = true
  /-- All other objects can be seen through the window. -/
  windowed : o.strategy ≠ .heap → o.offset + o.size ≤ windowedLimit

/-- The system memory of a machine lies below the resolve bit. -/
def Low (m : Machine Device) : Prop := systemMemoryBase + m.hardware.memory.size ≤ resolveBit

variable {m m' : Machine Device} {roster : List (Option FirmwareObjects)}
  {live : List InstanceObject} {o : InstanceObject}

theorem Low.of_books (h : Low m) (hbooks : m'.books = m.books) : Low m' := by
  have hsize : m'.hardware.memory.size = m.hardware.memory.size :=
    congrArg (·.hardware.memory.size) hbooks
  rw [Low, hsize]
  exact h

theorem Low.of_store (h : Low m) (hstore : m'.store = m.store) : Low m' := by
  have hsize : m'.hardware.memory.size = m.hardware.memory.size :=
    congrArg (·.hardware.memory.size) hstore
  rw [Low, hsize]
  exact h

/-- System memory lends the blocks of the live objects that lie in it. -/
theorem InstanceObject.block_lent (ho : o ∈ live) (hstrategy : o.strategy ≠ .heap)
    {block : AddressRange} (hblock : block ∈ o.blocks) :
    block ∈ (Item.pages (live.flatMap (·.items))).map pageRange ++
      (Item.buffers (live.flatMap (·.items))).map Buffer.range := by
  rw [InstanceObject.pages_flatMap_items, InstanceObject.buffers_flatMap_items, List.mem_append,
    List.mem_map, List.mem_map]
  unfold InstanceObject.blocks at hblock
  cases hresource : o.resource with
  | heap range => exact absurd (congrArg Resource.strategy hresource) hstrategy
  | iommu range pages =>
    rw [hresource, List.mem_map] at hblock
    obtain ⟨page, hpage, rfl⟩ := hblock
    refine .inl ⟨page, List.mem_flatMap.mpr ⟨o, ho, ?_⟩, rfl⟩
    rwa [InstanceObject.pages, hresource]
  | dma buffer =>
    rw [hresource, List.mem_singleton] at hblock
    subst hblock
    refine .inr ⟨buffer, List.mem_flatMap.mpr ⟨o, ho, ?_⟩, rfl⟩
    rw [InstanceObject.buffers, hresource]
    exact List.mem_singleton_self buffer

/-- **No access moves an object.** -/
theorem Placed.of_books (h : Placed m o) (hbooks : m'.books = m.books) : Placed m' o := by
  have hdevice : m'.hardware.books = m.hardware.books := congrArg (·.hardware) hbooks
  refine ⟨h.aligned, h.limit, ?_, ?_, h.injective, ?_, h.windowed⟩
  · intro offset hoffset
    rw [Device.resolve_of_books hdevice]
    exact h.resolves offset hoffset
  · intro offset hoffset hword
    exact (Device.hasWord_of_books hdevice _).mpr (h.hasWord offset hoffset hword)
  · intro hheap
    exact (congrArg (·.config.hasVram) hdevice).trans (h.heap hheap)

namespace Accounts

theorem hasVram_iff (m : Machine Device) : m.strategy = .heap ↔ m.hardware.config.hasVram = true := by
  unfold Machine.strategy
  constructor
  · intro h
    by_contra hvram
    rw [if_neg hvram] at h
    split at h <;> cases h
  · intro h
    rw [if_pos h]

/-- Objects of a device with dedicated memory all lie on heaps. -/
theorem not_hasVram (h : Accounts roster live m) (ho : o ∈ live) (hstrategy : o.strategy ≠ .heap) :
    ¬ m.hardware.config.hasVram = true := by
  rw [← hasVram_iff, ← (h.made o ho).2.2]
  exact hstrategy

/-- What a live object holds is lent. -/
theorem range_lent {id : SpaceId} {range : AddressRange} (h : Accounts roster live m) (ho : o ∈ live)
    (hr : .range id range ∈ o.items) : ∃ space ranges, m.Has id space ∧ space.Lends ranges ∧
      range ∈ ranges := by
  obtain ⟨space, hid, hlends, hmem⟩ := h.holding.range_lent (List.mem_flatMap.mpr ⟨o, ho, hr⟩)
  exact ⟨space, _, hid, hlends, hmem⟩

/-- A block of system memory lies in it in whole pages. -/
theorem block_inside (h : Accounts roster live m) (ho : o ∈ live) (hstrategy : o.strategy ≠ .heap)
    {block : AddressRange} (hblock : block ∈ o.blocks) :
    pageSize ∣ block.base ∧ pageSize ∣ block.length ∧ systemMemoryBase ≤ block.base ∧
      block.limit ≤ systemMemoryBase + m.hardware.memory.size := by
  obtain ⟨hbase, hlength, -, hlow, hhigh⟩ :=
    h.holding.memory.space.inside (InstanceObject.block_lent ho hstrategy hblock)
  obtain ⟨hspace, hsize⟩ := h.geometry.memory
  rw [hspace] at hlow hhigh
  rw [hsize] at hhigh
  exact ⟨hbase, hlength, hlow, hhigh⟩

/-- The places of an object in system memory have words. -/
theorem hasWord (h : Accounts roster live m) (ho : o ∈ live) (hstrategy : o.strategy ≠ .heap)
    {place : Nat} {block : AddressRange} (hblock : block ∈ o.blocks) (hholds : block.Holds place)
    (hword : wordSize ∣ place) : m.hardware.HasWord place := by
  obtain ⟨⟨first, hfirst⟩, ⟨count, hcount⟩, hlow, hhigh⟩ := h.block_inside ho hstrategy hblock
  obtain ⟨hbase, hlimit⟩ := hholds
  obtain ⟨word, rfl⟩ := hword
  unfold Device.HasWord
  rw [if_neg (h.not_hasVram ho hstrategy), SystemMemory.word?, if_pos]
  · rfl
  · unfold AddressRange.limit wordSize pageSize systemMemoryBase at *
    omega

theorem placed_on_heap {range : AddressRange} (h : Accounts roster live m) (ho : o ∈ live)
    (hresource : o.resource = .heap range) : Placed m o := by
  obtain ⟨⟨hpaged, hfits⟩, -, hstrategy⟩ := h.made o ho
  rw [hresource] at hfits
  have hheap : o.strategy = .heap := congrArg Resource.strategy hresource
  have hvram : m.hardware.config.hasVram = true := by
    rw [← hasVram_iff, ← hstrategy]
    exact hheap
  have hplace := InstanceObject.place_of_ne_iommu (hheap.trans_ne (by decide))
  obtain ⟨space, ranges, hid, hlends, hmem⟩ :=
    h.range_lent ho (InstanceObject.range_mem_items hresource)
  obtain ⟨⟨first, hfirst⟩, -, -, -, hlimit⟩ := hlends.inside hmem
  have haddress := hlends.limit_lt hmem
  obtain ⟨hbase, hlength⟩ := h.geometry.heap o.owner space hid
  simp only [hfits, AddressRange.limit] at hfirst hlimit haddress
  obtain ⟨pages, hsize⟩ := hpaged
  refine ⟨?_, haddress, ?_, ?_,
    ?_, fun _ => hvram, fun hne => absurd hheap hne⟩
  · exact Dvd.dvd.trans (by decide) ⟨pages, hsize⟩
  · intro offset _
    rw [Device.resolve, if_pos hvram, hplace]
  · intro offset hoffset hword
    obtain ⟨word, rfl⟩ := hword
    unfold Device.HasWord
    rw [if_pos hvram, Simulator.Vram.word?, hplace, if_pos]
    · rfl
    · unfold Simulator.Vram.length at hlength
      unfold wordSize pageSize at *
      omega
  · intro a _ b _ heq
    rw [hplace, hplace] at heq
    exact Nat.add_left_cancel heq

theorem placed_in_buffer {buffer : Buffer} (h : Accounts roster live m) (hlow : Low m) (ho : o ∈ live)
    (hresource : o.resource = .dma buffer) : Placed m o := by
  have hmade := (h.made o ho).1
  have hdma : o.strategy = .dma := congrArg Resource.strategy hresource
  have hnotHeap := InstanceObject.strategy_ne_heap_of_dma hresource
  have hvram := h.not_hasVram ho hnotHeap
  have hplace := InstanceObject.place_of_ne_iommu (hdma.trans_ne (by decide))
  have hblock := InstanceObject.range_mem_blocks hresource
  have hfits := hmade.fits
  rw [hresource] at hfits
  obtain ⟨hfirst, -, -, hhigh⟩ := h.block_inside ho hnotHeap hblock
  simp only [hfits, Buffer.range, AddressRange.limit] at hfirst hhigh
  have hresolve : o.offset + o.size ≤ resolveBit := Nat.le_trans hhigh hlow
  refine ⟨Dvd.dvd.trans (by decide) hmade.paged,
    Nat.lt_of_le_of_lt hresolve (by decide), ?_,
    ?_, ?_,
    fun hheap => absurd hheap hnotHeap, fun _ => Nat.le_trans hresolve (by decide)⟩
  · intro offset hoffset
    have hunresolved : isResolved (o.offset + offset) = false := isResolved_of_lt (by omega)
    rw [Device.resolve, if_neg hvram, hunresolved, hplace]
    rfl
  · intro offset hoffset hword
    refine h.hasWord ho hnotHeap hblock ?_ ?_
    · rw [hplace]
      simp only [hfits, Buffer.range, AddressRange.Holds, AddressRange.limit]
      omega
    · rw [hplace]
      exact Nat.dvd_add (Dvd.dvd.trans (by decide) hfirst) hword
  · intro a _ b _ heq
    rw [hplace, hplace] at heq
    exact Nat.add_left_cancel heq

/-- An object behind the IOMMU takes the addresses of its range with the resolve bit, which the range
itself lies below. -/
theorem behind_iommu {range : AddressRange} {pages : List Nat} (h : Accounts roster live m)
    (ho : o ∈ live) (hresource : o.resource = .iommu range pages) :
    ∃ space ranges, m.shared = some space ∧ space.Lends ranges ∧ range ∈ ranges ∧
      o.offset = range.base + resolveBit ∧ range.length = o.size ∧
      range.limit ≤ space.length ∧ space.length ≤ resolveBit := by
  have hfits := (h.made o ho).1.fits
  rw [hresource] at hfits
  obtain ⟨haddress, hlength, -⟩ := hfits
  have hitem : Item.range .shared range ∈ o.items := by
    rw [InstanceObject.items, hresource]
    exact List.mem_append_right _ (List.mem_singleton_self _)
  obtain ⟨space, ranges, hid, hlends, hmem⟩ := h.range_lent ho hitem
  obtain ⟨-, -, hpositive, -, hlimit⟩ := hlends.inside hmem
  obtain ⟨hbase, hspace⟩ := h.geometry.shared space hid
  rw [hbase, Nat.zero_add] at hlimit
  have hbelow : range.base < resolveBit := by
    unfold AddressRange.limit at hlimit
    omega
  rw [setResolveBit_of_lt hbelow] at haddress
  exact ⟨space, ranges, hid, hlends, hmem, haddress, hlength, hlimit, hspace⟩

section

variable {range : AddressRange} {pages : List Nat} (h : Accounts roster live m) (ho : o ∈ live)
  (hresource : o.resource = .iommu range pages)

include h ho hresource

/-- The range of an object lies below the resolve bit, so the addresses of the object carry it. -/
theorem addresses_behind_iommu : m.shared.isSome ∧ pageSize ∣ range.base ∧
    o.offset = range.base + resolveBit ∧ range.base + o.size ≤ resolveBit := by
  obtain ⟨space, ranges, hid, hlends, hmem, haddress, hlength, hlimit, hspace⟩ :=
    h.behind_iommu ho hresource
  refine ⟨Option.isSome_iff_exists.mpr ⟨space, hid⟩, (hlends.inside hmem).1, haddress, ?_⟩
  rw [← hlength]
  exact Nat.le_trans hlimit hspace

/-- Every address of an object has the resolve bit, and the IOMMU translates it without. -/
theorem translated_behind_iommu {offset : Nat} (hoffset : offset < o.size) :
    isResolved (o.offset + offset) = true ∧
      stripResolveBit (o.offset + offset) = range.base + offset ∧
      ∃ t, m.hardware.translation = some t ∧
        m.hardware.resolve (o.offset + offset) = t.translate (range.base + offset) := by
  have hvram := h.not_hasVram ho (InstanceObject.strategy_ne_heap_of_iommu hresource)
  obtain ⟨hshared, -, haddress, hbelow⟩ := h.addresses_behind_iommu ho hresource
  have hsum : o.offset + offset = range.base + offset + resolveBit := by omega
  have hlt : range.base + offset < resolveBit := by omega
  obtain ⟨t, ht⟩ := Option.isSome_iff_exists.mp (h.geometry.translation.trans hshared)
  refine ⟨hsum ▸ isResolved_add hlt, hsum ▸ stripResolveBit_add hlt, t, ht, ?_⟩
  rw [Device.resolve, if_neg hvram, hsum, isResolved_add hlt, if_pos rfl, ht, stripResolveBit_add hlt]

/-- A page ends below the address limit. -/
theorem page_limit_lt {i page : Nat} (hi : pages[i]? = some page) (offset : Nat) :
    page + offset % pageSize < addressLimit := by
  have hnotHeap := InstanceObject.strategy_ne_heap_of_iommu hresource
  have hblock := InstanceObject.pageRange_mem_blocks hresource hi
  have hlimit := h.holding.memory.space.limit_lt (InstanceObject.block_lent ho hnotHeap hblock)
  exact Nat.lt_trans (InstanceObject.holds_page page offset).2 hlimit

/-- The IOMMU translates each address of an object to its place. -/
theorem resolves_behind_iommu {offset : Nat} (hoffset : offset < o.size) :
    m.hardware.resolve (o.offset + offset) = .ok (some (o.place offset)) := by
  obtain ⟨page, hi⟩ := (h.made o ho).1.exists_page hresource hoffset
  obtain ⟨-, hfirst, -, -⟩ := h.addresses_behind_iommu ho hresource
  obtain ⟨-, -, t, ht, hresolve⟩ := h.translated_behind_iommu ho hresource hoffset
  have hslot : t.table[range.base + offset / pageSize * pageSize]? = some page :=
    ((h.holding.translation t ht).lookup _ _).mpr
      ((InstanceObject.mem_slots_flatMap_items live).mpr ⟨o, ho, range, pages, _, hresource, hi, rfl⟩)
  have hpageOf := Simulator.Translation.pageOf_add hfirst offset
  have hmod : (range.base + offset) % pageSize = offset % pageSize := by
    obtain ⟨first, hfirst⟩ := hfirst
    rw [hfirst, Nat.mul_add_mod]
  have hfits := checkedAdd_of_lt (h.page_limit_lt ho hresource hi offset)
  rw [hresolve, InstanceObject.place_of_iommu hresource hi]
  simp only [Simulator.Translation.translate, hpageOf, hslot, hmod, hfits]
  rfl

/-- The pages of an object are words of system memory. -/
theorem hasWord_behind_iommu {offset : Nat} (hoffset : offset < o.size) (hword : wordSize ∣ offset) :
    m.hardware.HasWord (o.place offset) := by
  have hnotHeap := InstanceObject.strategy_ne_heap_of_iommu hresource
  obtain ⟨page, hi⟩ := (h.made o ho).1.exists_page hresource hoffset
  have hblock := InstanceObject.pageRange_mem_blocks hresource hi
  obtain ⟨⟨first, hpageBase⟩, -⟩ := h.block_inside ho hnotHeap hblock
  rw [InstanceObject.place_of_iommu hresource hi]
  refine h.hasWord ho hnotHeap hblock (InstanceObject.holds_page page offset) ?_
  obtain ⟨word, rfl⟩ := hword
  simp only [pageRange] at hpageBase
  unfold wordSize pageSize at *
  omega

/-- No page is mapped twice for an object. -/
theorem nodup_pages : pages.Nodup := by
  have hlive := (List.nodup_append.mp h.holding.memory.space.nodup).1
  rw [InstanceObject.pages_flatMap_items] at hlive
  have hobject := (List.nodup_flatMap.mp (List.Nodup.of_map pageRange hlive)).1 o ho
  rwa [InstanceObject.pages, hresource] at hobject

/-- Bytes at one place lie in one page, which backs one slot only. -/
theorem eq_of_place_eq_behind_iommu {a b : Nat} (ha : a < o.size) (hb : b < o.size)
    (heq : o.place a = o.place b) : a = b := by
  have hnotHeap := InstanceObject.strategy_ne_heap_of_iommu hresource
  obtain ⟨page, hi⟩ := (h.made o ho).1.exists_page hresource ha
  obtain ⟨page', hj⟩ := (h.made o ho).1.exists_page hresource hb
  rw [InstanceObject.place_of_iommu hresource hi, InstanceObject.place_of_iommu hresource hj] at heq
  have hsame := h.holding.memory.space.eq_of_holds
    (InstanceObject.block_lent ho hnotHeap (InstanceObject.pageRange_mem_blocks hresource hi))
    (InstanceObject.block_lent ho hnotHeap (InstanceObject.pageRange_mem_blocks hresource hj))
    (InstanceObject.holds_page page a) (heq ▸ InstanceObject.holds_page page' b)
  obtain rfl : page = page' := congrArg AddressRange.base hsame
  have hindex : a / pageSize = b / pageSize :=
    (List.getElem?_inj (List.getElem?_eq_some_iff.mp hi).1 (h.nodup_pages ho hresource)).mp
      (hi.trans hj.symm)
  calc a = pageSize * (a / pageSize) + a % pageSize := (Nat.div_add_mod a pageSize).symm
    _ = pageSize * (b / pageSize) + b % pageSize := by rw [hindex, Nat.add_left_cancel heq]
    _ = b := Nat.div_add_mod b pageSize

theorem placed_behind_iommu : Placed m o := by
  have hnotHeap := InstanceObject.strategy_ne_heap_of_iommu hresource
  obtain ⟨-, -, haddress, hbelow⟩ := h.addresses_behind_iommu ho hresource
  have htop : o.offset + o.size ≤ resolveBit + resolveBit := by omega
  exact {
    aligned := Dvd.dvd.trans (by decide) (h.made o ho).1.paged
    limit := Nat.lt_of_le_of_lt htop (by decide)
    resolves := fun _ hoffset => h.resolves_behind_iommu ho hresource hoffset
    hasWord := fun _ hoffset hword => h.hasWord_behind_iommu ho hresource hoffset hword
    injective := fun _ ha _ hb heq => h.eq_of_place_eq_behind_iommu ho hresource ha hb heq
    heap := fun hheap => absurd hheap hnotHeap
    windowed := fun _ => Nat.le_trans htop (by decide) }

end

/-- **Every live object is placed.** -/
theorem placed (h : Accounts roster live m) (hlow : Low m) (ho : o ∈ live) : Placed m o := by
  cases hresource : o.resource with
  | heap range => exact h.placed_on_heap ho hresource
  | iommu range pages => exact h.placed_behind_iommu ho hresource
  | dma buffer => exact h.placed_in_buffer hlow ho hresource

/-- The blocks of live objects in system memory are those that it lends. -/
theorem flatMap_blocks (h : Accounts roster live m) (hstrategy : m.strategy ≠ .heap) :
    (live.flatMap (·.blocks)).Perm ((Item.pages (live.flatMap (·.items))).map pageRange ++
      (Item.buffers (live.flatMap (·.items))).map Buffer.range) := by
  have hblocks : ∀ o ∈ live, o.blocks = o.pages.map pageRange ++ o.buffers.map Buffer.range := by
    intro o ho
    unfold InstanceObject.blocks InstanceObject.pages InstanceObject.buffers
    cases hresource : o.resource with
    | heap range =>
      exact absurd ((h.made o ho).2.2.symm.trans (congrArg Resource.strategy hresource)) hstrategy
    | iommu range pages => exact (List.append_nil _).symm
    | dma buffer => rfl
  rw [InstanceObject.pages_flatMap_items, InstanceObject.buffers_flatMap_items,
    List.flatMap_congr hblocks, List.map_flatMap, List.map_flatMap]
  exact List.flatMap_append_perm live _ _ |>.symm

/-- Objects of one heap share no place. -/
theorem apart_on_heap (h : Accounts roster live m) (hheap : m.strategy = .heap) (i : Nat) :
    live.Pairwise fun o o' => o.owner = i → o'.owner = i → o.Apart o' := by
  have hblocks : ∀ o ∈ live, o.owner = i → o.blocks = o.heapRanges i := by
    intro o ho howner
    unfold InstanceObject.blocks InstanceObject.heapRanges
    have hstrategy := (h.made o ho).2.2.trans hheap
    cases hresource : o.resource with
    | heap range => exact (if_pos howner).symm
    | iommu range pages => cases (congrArg Resource.strategy hresource).symm.trans hstrategy
    | dma buffer => cases (congrArg Resource.strategy hresource).symm.trans hstrategy
  by_cases hempty : Item.rangesIn (.heap i) (live.flatMap (·.items)) = []
  · -- objects of a heap that lends nothing would be empty
    apply List.pairwise_of_forall_mem_list
    intro o ho o' ho' howner howner' a ha
    obtain ⟨block, hblock, -⟩ := (h.made o ho).1.place_mem ha
    rw [InstanceObject.rangesIn_heap_flatMap_items, List.flatMap_eq_nil_iff] at hempty
    rw [hblocks o ho howner, hempty o ho] at hblock
    cases hblock
  · obtain ⟨space, hid⟩ := h.holding.placed _ hempty
    have hlends := h.holding.spaces _ space hid
    rw [InstanceObject.rangesIn_heap_flatMap_items] at hlends
    refine (List.nodup_flatMap.mp hlends.nodup).2.imp_of_mem fun ho ho' hdisjoint howner howner' => ?_
    have hmem : ∀ o ∈ live, o.owner = i → ∀ block ∈ o.blocks,
        block ∈ live.flatMap (·.heapRanges i) := fun o ho howner block hblock =>
      List.mem_flatMap.mpr ⟨o, ho, hblocks o ho howner ▸ hblock⟩
    refine .of_disjoint hlends (h.made _ ho).1 (h.made _ ho').1 (hmem _ ho howner)
      (hmem _ ho' howner') ?_
    rw [hblocks _ ho howner, hblocks _ ho' howner']
    exact hdisjoint

/-- Objects in system memory share no place. -/
theorem apart_in_memory (h : Accounts roster live m) (hheap : m.strategy ≠ .heap) :
    live.Pairwise InstanceObject.Apart := by
  have hlends := h.holding.memory.space.perm (h.flatMap_blocks hheap).symm
  refine (List.nodup_flatMap.mp hlends.nodup).2.imp_of_mem fun ho ho' hdisjoint => ?_
  exact .of_disjoint hlends (h.made _ ho).1 (h.made _ ho').1
    (fun block hblock => List.mem_flatMap.mpr ⟨_, ho, hblock⟩)
    (fun block hblock => List.mem_flatMap.mpr ⟨_, ho', hblock⟩) hdisjoint

/-- **Live objects share no place**, unless they lie on different heaps. -/
theorem apart (h : Accounts roster live m) :
    live.Pairwise fun o o' => (o.strategy = .heap → o.owner = o'.owner) → o.Apart o' := by
  by_cases hheap : m.strategy = .heap
  · apply List.pairwise_iff_getElem.mpr
    intro j k hj hk hjk howner
    have hsame := howner ((h.made _ (List.getElem_mem hj)).2.2.trans hheap)
    exact List.pairwise_iff_getElem.mp (h.apart_on_heap hheap live[j].owner) j k hj hk hjk rfl
      hsame.symm
  · apply (h.apart_in_memory hheap).imp
    exact fun hapart _ => hapart

end Accounts
end InstanceMemory
