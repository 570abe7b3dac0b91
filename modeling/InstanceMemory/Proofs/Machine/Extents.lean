import InstanceMemory.Proofs.Machine.Clearance

/-!
# The device addresses of live objects

A space lends ranges that are clear of each other (`RangeSpace.Lends.clear`), in whole pages. A live
object takes the device addresses of a range that is lent to it: on a heap and in system memory just
these, and behind the IOMMU these with the resolve bit. So it takes whole pages (`Accounts.paged`), and
live objects are clear of each other whatever they are made of and whichever controllers they belong to
(`Accounts.clear`). Only objects of different heaps may lie over each other.
-/

set_option autoImplicit false

namespace InstanceMemory

open Simulator (Device)

variable {m : Machine Device} {roster : List (Option FirmwareObjects)} {live : List InstanceObject}
  {o : InstanceObject} {r s : AddressRange}

/-! ## Ranges clear of each other -/

/-- Ranges that take something and are not clear of each other share an address. -/
theorem AddressRange.exists_holds_of_not_clear (hr : 0 < r.length) (hs : 0 < s.length)
    (h : ¬ r.Clear s) : ∃ x, r.Holds x ∧ s.Holds x := by
  unfold Clear limit at h
  unfold Holds limit
  exact ⟨max r.base s.base, by omega, by omega⟩

/-- **Ranges that are out are clear of each other.** -/
theorem RangeSpace.Lends.clear {space : RangeSpace} {ranges : List AddressRange}
    (h : space.Lends ranges) : ranges.Pairwise AddressRange.Clear := by
  refine h.nodup.imp_of_mem fun {r s} hr hs hne => ?_
  obtain ⟨-, -, hrpos, -⟩ := h.inside hr
  obtain ⟨-, -, hspos, -⟩ := h.inside hs
  by_contra hclear
  obtain ⟨x, hrx, hsx⟩ := AddressRange.exists_holds_of_not_clear hrpos hspos hclear
  exact hne (h.eq_of_holds hr hs hrx hsx)

/-- A bit that is set on both of two ranges does not bring them closer. -/
theorem AddressRange.Clear.shift {b b' n n' : Nat} (h : Clear ⟨b, n⟩ ⟨b', n'⟩) (bit : Nat) :
    Clear ⟨b + bit, n⟩ ⟨b' + bit, n'⟩ := by
  unfold Clear limit at *
  dsimp only at *
  omega

namespace Accounts

/-! ## Whole pages -/

/-- A live object takes the device addresses of a range that is lent, or these with the resolve bit. -/
theorem exists_lent (h : Accounts roster live m) (ho : o ∈ live) :
    ∃ (space : RangeSpace) (ranges : List AddressRange) (range : AddressRange),
      space.Lends ranges ∧ range ∈ ranges ∧ range.length = o.size ∧
        (o.offset = range.base ∨ o.offset = range.base + resolveBit) := by
  have hfits := (h.made o ho).1.fits
  cases hresource : o.resource with
  | heap range =>
    rw [hresource] at hfits
    obtain ⟨space, ranges, -, hlends, hmem⟩ :=
      h.range_lent ho (InstanceObject.range_mem_items hresource)
    exact ⟨space, ranges, range, hlends, hmem, hfits ▸ rfl, .inl (hfits ▸ rfl)⟩
  | iommu range pages =>
    obtain ⟨space, ranges, -, hlends, hmem, hoffset, hlength, -⟩ := h.behind_iommu ho hresource
    exact ⟨space, ranges, range, hlends, hmem, hlength, .inr hoffset⟩
  | dma buffer =>
    rw [hresource] at hfits
    have hstrategy := InstanceObject.strategy_ne_heap_of_dma hresource
    have hblock := InstanceObject.range_mem_blocks hresource
    exact ⟨_, _, buffer.range, h.holding.memory.space, InstanceObject.block_lent ho hstrategy hblock,
      hfits ▸ rfl, .inl (hfits ▸ rfl)⟩

/-- **A live object takes whole pages** of device addresses, and at least one. -/
theorem paged (h : Accounts roster live m) (ho : o ∈ live) :
    pageSize ∣ o.offset ∧ pageSize ∣ o.size ∧ 0 < o.size := by
  obtain ⟨space, ranges, range, hlends, hmem, hlength, hoffset⟩ := h.exists_lent ho
  obtain ⟨hbase, hpaged, hpos, -⟩ := hlends.inside hmem
  rw [hlength] at hpaged hpos
  refine ⟨?_, hpaged, hpos⟩
  rcases hoffset with hoffset | hoffset <;> rw [hoffset]
  · exact hbase
  · exact Nat.dvd_add hbase (by decide)

/-! ## Objects clear of each other -/

/-- Ranges that a space would lend are clear of each other, also if there is no such space. -/
theorem clear_rangesIn (h : Accounts roster live m) (id : SpaceId) :
    (Item.rangesIn id (live.flatMap (·.items))).Pairwise AddressRange.Clear := by
  by_cases hempty : Item.rangesIn id (live.flatMap (·.items)) = []
  · rw [hempty]
    exact .nil
  · obtain ⟨space, hid⟩ := h.holding.placed id hempty
    exact (h.holding.spaces id space hid).clear

/-- Objects of one heap are clear of each other. -/
theorem clear_on_heap (h : Accounts roster live m) (i : Nat) :
    live.Pairwise fun o o' => o.strategy = .heap → o'.strategy = .heap → o.owner = i → o'.owner = i →
      o.extent.Clear o'.extent := by
  have hranges : ∀ o ∈ live, o.strategy = .heap → o.owner = i → o.extent ∈ o.heapRanges i := by
    intro o ho hstrategy howner
    have hfits := (h.made o ho).1.fits
    unfold InstanceObject.strategy at hstrategy
    unfold InstanceObject.heapRanges
    cases hresource : o.resource with
    | heap range =>
      rw [hresource] at hfits
      obtain rfl : range = o.extent := hfits
      dsimp only
      rw [if_pos howner]
      exact List.mem_singleton_self _
    | iommu range pages => rw [hresource] at hstrategy; cases hstrategy
    | dma buffer => rw [hresource] at hstrategy; cases hstrategy
  have hclear := h.clear_rangesIn (.heap i)
  rw [InstanceObject.rangesIn_heap_flatMap_items] at hclear
  refine (List.pairwise_flatMap.mp hclear).2.imp_of_mem ?_
  intro o o' ho ho' hclear hheap hheap' howner howner'
  exact hclear _ (hranges o ho hheap howner) _ (hranges o' ho' hheap' howner')

/-- Objects behind the IOMMU are clear of each other. -/
theorem clear_behind_iommu (h : Accounts roster live m) :
    live.Pairwise fun o o' => o.strategy = .iommu → o'.strategy = .iommu →
      o.extent.Clear o'.extent := by
  have hranges : ∀ o ∈ live, o.strategy = .iommu →
      ∃ range ∈ o.deviceRanges, o.extent = ⟨range.base + resolveBit, range.length⟩ := by
    intro o ho hstrategy
    unfold InstanceObject.strategy at hstrategy
    unfold InstanceObject.deviceRanges InstanceObject.extent
    cases hresource : o.resource with
    | heap range => rw [hresource] at hstrategy; cases hstrategy
    | dma buffer => rw [hresource] at hstrategy; cases hstrategy
    | iommu range pages =>
      obtain ⟨space, ranges, -, -, -, hoffset, hlength, -⟩ := h.behind_iommu ho hresource
      exact ⟨range, List.mem_singleton_self _, by rw [hoffset, hlength]⟩
  have hclear := h.clear_rangesIn .shared
  rw [InstanceObject.rangesIn_shared_flatMap_items] at hclear
  refine (List.pairwise_flatMap.mp hclear).2.imp_of_mem ?_
  intro o o' ho ho' hclear hiommu hiommu'
  obtain ⟨range, hrange, hextent⟩ := hranges o ho hiommu
  obtain ⟨range', hrange', hextent'⟩ := hranges o' ho' hiommu'
  rw [hextent, hextent']
  exact (hclear range hrange range' hrange').shift resolveBit

/-- Objects in buffers are clear of each other. -/
theorem clear_in_buffers (h : Accounts roster live m) :
    live.Pairwise fun o o' => o.strategy = .dma → o'.strategy = .dma → o.extent.Clear o'.extent := by
  have hranges : ∀ o ∈ live, o.strategy = .dma → o.extent ∈ o.buffers.map Buffer.range := by
    intro o ho hstrategy
    have hfits := (h.made o ho).1.fits
    unfold InstanceObject.strategy at hstrategy
    unfold InstanceObject.buffers
    cases hresource : o.resource with
    | heap range => rw [hresource] at hstrategy; cases hstrategy
    | iommu range pages => rw [hresource] at hstrategy; cases hstrategy
    | dma buffer =>
      rw [hresource] at hfits
      obtain rfl : buffer = ⟨o.offset, o.size⟩ := hfits
      exact List.mem_singleton_self _
  have hclear := (List.pairwise_append.mp h.holding.memory.space.clear).2.1
  rw [InstanceObject.buffers_flatMap_items, List.map_flatMap] at hclear
  refine (List.pairwise_flatMap.mp hclear).2.imp_of_mem ?_
  intro o o' ho ho' hclear hdma hdma'
  exact hclear _ (hranges o ho hdma) _ (hranges o' ho' hdma')

/-- **Live objects are clear of each other**, unless they lie on different heaps. -/
theorem clear (h : Accounts roster live m) :
    live.Pairwise fun o o' => (o.strategy = .heap → o.owner = o'.owner) →
      o.extent.Clear o'.extent := by
  apply List.pairwise_iff_getElem.mpr
  intro j k hj hk hjk howner
  have hstrategy := (h.made _ (List.getElem_mem hj)).2.2
  have hstrategy' := (h.made _ (List.getElem_mem hk)).2.2
  cases hplaces : m.strategy with
  | heap =>
    have hsame := howner (hstrategy.trans hplaces)
    exact List.pairwise_iff_getElem.mp (h.clear_on_heap live[j].owner) j k hj hk hjk
      (hstrategy.trans hplaces) (hstrategy'.trans hplaces) rfl hsame.symm
  | iommu =>
    exact List.pairwise_iff_getElem.mp h.clear_behind_iommu j k hj hk hjk (hstrategy.trans hplaces)
      (hstrategy'.trans hplaces)
  | dma =>
    exact List.pairwise_iff_getElem.mp h.clear_in_buffers j k hj hk hjk (hstrategy.trans hplaces)
      (hstrategy'.trans hplaces)

end Accounts
end InstanceMemory
