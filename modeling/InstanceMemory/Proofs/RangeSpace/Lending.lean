import InstanceMemory.Proofs.RangeSpace.Partition
import InstanceMemory.DeviceMap
import Mathlib.Algebra.BigOperators.Group.List.Basic

/-!
# Spaces that lend pages

System memory, the device addresses behind the IOMMU and the reserved heaps are all range spaces in
steps of a page. `space.Lends ranges` says what the rest of a machine needs to know of such a space:
that it is sound, and which ranges are out, in whatever order they were lent. A reservation adds one
range to them and a release takes one away; the space between is settled by `Sound.eq_of_perm`.
-/

set_option autoImplicit false

namespace InstanceMemory

/-- A value that is a multiple already is the least multiple from itself on. -/
theorem LeastMultiple.eq_of_dvd {value step m : Nat} (h : LeastMultiple value step m)
    (hdvd : step ∣ value) : m = value :=
  Nat.le_antisymm (h.least value hdvd (Nat.le_refl value)) h.le

namespace RangeSpace

variable {space : RangeSpace} {ranges others : List AddressRange} {range : AddressRange}

/-- A space in steps of a page from which some ranges are out. -/
structure Lends (space : RangeSpace) (ranges : List AddressRange) : Prop where
  sound : space.Sound
  granularity : space.granularity = pageSize
  allocated : space.allocated.Perm ranges

namespace Lends

theorem perm (h : space.Lends ranges) (hperm : ranges.Perm others) : space.Lends others :=
  ⟨h.sound, h.granularity, h.allocated.trans hperm⟩

/-- A space that was created in steps of a page lends nothing. -/
theorem of_create {name : String} {base length : Nat}
    (h : create name base length pageSize = .ok space) : space.Lends [] := by
  obtain ⟨rfl, hsound⟩ := create_eq_ok h
  exact ⟨hsound, rfl, List.Perm.refl _⟩

/-- What is out lies in the space, in whole pages. -/
theorem inside (h : space.Lends ranges) (hr : range ∈ ranges) :
    pageSize ∣ range.base ∧ pageSize ∣ range.length ∧ 0 < range.length ∧
      space.base ≤ range.base ∧ range.limit ≤ space.base + space.length := by
  have hmem := h.allocated.mem_iff.mpr hr
  obtain ⟨hbase, hlength⟩ := (Holes.onGrid_append.mp h.sound.onGrid).2 range hmem
  rw [h.granularity] at hbase hlength
  exact ⟨hbase, hlength, h.sound.allocated.positive range hmem, h.sound.range_inside hmem⟩

theorem limit_lt (h : space.Lends ranges) (hr : range ∈ ranges) : range.limit < addressLimit :=
  h.sound.range_limit_lt (h.allocated.mem_iff.mpr hr)

/-- The address limit is in whole pages, so an address is left beyond what is out. -/
theorem succ_limit_lt (h : space.Lends ranges) (hr : range ∈ ranges) :
    range.limit + 1 < addressLimit := by
  obtain ⟨hbase, hlength, -⟩ := h.inside hr
  have hlimit := h.limit_lt hr
  have hpaged : pageSize ∣ range.limit := Nat.dvd_add hbase hlength
  unfold pageSize at hpaged
  unfold addressLimit at hlimit ⊢
  omega

theorem nodup (h : space.Lends ranges) : ranges.Nodup :=
  h.allocated.nodup_iff.mp h.sound.allocated.nodup

/-- Ranges that are out and share an address are one range. -/
theorem eq_of_holds {other : AddressRange} {x : Nat} (h : space.Lends ranges) (hr : range ∈ ranges)
    (ho : other ∈ ranges) (hrx : range.Holds x) (hox : other.Holds x) : range = other :=
  h.sound.allocated.eq_of_holds (h.allocated.mem_iff.mpr hr) (h.allocated.mem_iff.mpr ho) hrx hox

/-- There are fewer ranges out than there are addresses. -/
theorem length_lt (h : space.Lends ranges) : ranges.length < addressLimit := by
  have htotal := h.sound.freeBytes_add_totalLength
  have hcount : space.allocated.length ≤ totalLength space.allocated := by
    refine Nat.le_trans (Nat.le_of_eq (List.length_map _).symm) (List.length_le_sum_of_one_le _ ?_)
    intro n hn
    obtain ⟨r, hr, rfl⟩ := List.mem_map.mp hn
    exact h.sound.allocated.positive r hr
  have hlimit := h.sound.limit
  rw [h.allocated.length_eq] at hcount
  unfold capacity at htotal
  omega

/-- **A reservation** is refused, or adds its range to those that are out. -/
theorem reserve (h : space.Lends ranges) (size align : Nat) :
    (∃ cause, space.reserve size align = .ok (.error cause)) ∨
      ∃ range next, space.reserve size align = .ok (.ok (range, next)) ∧
        next.Lends (range :: ranges) ∧ next.emptied = space.emptied ∧
        LeastMultiple size pageSize range.length := by
  obtain ⟨answer, hanswer, hreserved⟩ := h.sound.reserve size align
  cases answer with
  | error cause => exact .inl ⟨cause, hanswer⟩
  | ok granted =>
    obtain ⟨range, next⟩ := granted
    obtain ⟨hsound, hemptied, hperm, hleast, -⟩ := hreserved.granted_spec h.sound
    have hgranularity : next.granularity = pageSize :=
      (congrArg (·.granularity) hemptied).trans h.granularity
    rw [h.granularity] at hleast
    exact .inr ⟨range, next, hanswer,
      ⟨hsound, hgranularity, hperm.trans (h.allocated.cons range)⟩, hemptied, hleast⟩

/-- **A release** of a range that is out takes it from those that are out and notes nothing. -/
theorem release (h : space.Lends (range :: ranges)) (journal : Journal) :
    ∃ next, space.release range journal = .ok (next, journal) ∧ next.Lends ranges ∧
      next.emptied = space.emptied := by
  have hmem := h.allocated.mem_iff.mpr List.mem_cons_self
  obtain ⟨next, hnext, hsound, hemptied, hallocated⟩ := h.sound.release hmem journal
  refine ⟨next, hnext, ⟨hsound, ?_, ?_⟩, hemptied⟩
  · exact (congrArg (·.granularity) hemptied).trans h.granularity
  · have hperm := h.allocated.erase range
    rw [List.erase_cons_head] at hperm
    exact hallocated ▸ hperm

/-- Two spaces of the same bounds from which the same ranges are out are equal. -/
theorem eq {other : RangeSpace} (h : space.Lends ranges) (ho : other.Lends ranges)
    (hemptied : other.emptied = space.emptied) : other = space :=
  h.sound.eq_of_perm ho.sound hemptied (ho.allocated.trans h.allocated.symm)

end Lends
end RangeSpace
end InstanceMemory
