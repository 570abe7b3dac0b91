import InstanceMemory.Proofs.RangeSpace.FirstFit
import InstanceMemory.Proofs.RangeSpace.Lending

/-!
# Room for whole pages

A space that lends pages has its holes on the grid of pages. So it has room for one more page as soon
as a page's worth of it is free, however scattered that is (`RangeSpace.Lends.hasRoom_page`), and
a run of whole pages that fits anywhere fits at the start of a page (`RangeSpace.Lends.hasRoom_paged`).
A reservation of whole pages needs no rounding, so it is made exactly at a vacant start
(`RangeSpace.Lends.reserve_vacant`).
-/

set_option autoImplicit false

namespace InstanceMemory.RangeSpace

/-- From some start on, the request is vacant. -/
def HasRoom (space : RangeSpace) (size align : Nat) : Prop :=
  ∃ start, Vacant space.bounds space.allocated size align start

namespace Lends

variable {space next : RangeSpace} {ranges : List AddressRange} {range : AddressRange}
  {size : Nat}

/-- **A reservation of whole pages** is made at a vacant start, or no start is vacant. -/
theorem reserve_vacant (h : space.Lends ranges) (hsize : 0 < size) (hpaged : pageSize ∣ size)
    (align : Nat) (hpow : (max align pageSize).isPowerOfTwo) :
    (∃ start next, space.reserve size align = .ok (.ok (⟨start, size⟩, next)) ∧
        Vacant space.bounds space.allocated size (max align pageSize) start) ∨
      space.reserve size align = .ok (.error (.outOfAddressSpace size (max align pageSize))) ∧
        ¬ space.HasRoom size (max align pageSize) := by
  have hrounded : LeastMultiple size space.granularity size :=
    ⟨h.granularity ▸ hpaged, Nat.le_refl size, fun n _ hle => hle⟩
  have hleast := h.sound.reserve_least hsize (h.granularity ▸ hpow) hrounded
  rw [h.granularity, ite_self] at hleast
  rcases hleast with ⟨start, next, hok, hstart⟩ | ⟨herror, hno⟩
  · exact .inl ⟨start, next, hok, hstart.1⟩
  · exact .inr ⟨herror, not_exists.mpr hno⟩

/-- What is free and what is out add up to the space. -/
theorem freeBytes_add (h : space.Lends ranges) :
    space.freeBytes + totalLength ranges = space.capacity := by
  rw [← totalLength_perm h.allocated]
  exact h.sound.freeBytes_add_totalLength

/-- What joins those that are out is no longer free. -/
theorem freeBytes_of_cons (h : space.Lends ranges) (hnext : next.Lends (range :: ranges))
    (hemptied : next.emptied = space.emptied) : next.freeBytes + range.length = space.freeBytes := by
  have hcapacity : next.capacity = space.capacity := congrArg (·.length) hemptied
  have hbefore := h.freeBytes_add
  have hafter := hnext.freeBytes_add
  rw [totalLength, List.map_cons, List.sum_cons, ← totalLength] at hafter
  omega

/-- Holes are whole pages. -/
theorem hole_paged (h : space.Lends ranges) {hole : AddressRange} (hhole : hole ∈ space.free) :
    pageSize ∣ hole.base ∧ pageSize ∣ hole.length ∧ 0 < hole.length := by
  obtain ⟨hbase, hlength⟩ := (Holes.onGrid_append.mp h.sound.onGrid).1 hole hhole
  rw [h.granularity] at hbase hlength
  exact ⟨hbase, hlength, h.sound.holes.positive hole hhole⟩

/-- **Where anything is free there is a page.** -/
theorem hasRoom_page (h : space.Lends ranges) (hfree : 0 < space.freeBytes) :
    space.HasRoom pageSize pageSize := by
  have hholes : space.free ≠ [] := by
    intro hempty
    rw [freeBytes, hempty] at hfree
    exact Nat.lt_irrefl 0 hfree
  obtain ⟨hole, hhole⟩ := List.exists_mem_of_ne_nil _ hholes
  obtain ⟨hbase, hlength, hpos⟩ := h.hole_paged hhole
  refine ⟨hole.base, (h.sound.vacant_iff_fits (by decide)).mpr ⟨hole, hhole, hbase, Nat.le_refl _, ?_⟩⟩
  exact Nat.add_le_add_left (Nat.le_of_dvd hpos hlength) _

/-- **Whole pages that fit anywhere fit at the start of a page.** -/
theorem hasRoom_paged (h : space.Lends ranges) (hsize : 0 < size) :
    space.HasRoom size pageSize ↔ space.HasRoom size 1 := by
  constructor
  · rintro ⟨s, hs⟩
    exact ⟨s, Nat.one_dvd s, hs.base_le, hs.le_limit, hs.free⟩
  · rintro ⟨s, hs⟩
    obtain ⟨hole, hhole, hfits⟩ := (h.sound.vacant_iff_fits hsize).mp hs
    refine ⟨hole.base, (h.sound.vacant_iff_fits hsize).mpr
      ⟨hole, hhole, (h.hole_paged hhole).1, Nat.le_refl _, ?_⟩⟩
    exact Nat.le_trans (Nat.add_le_add_right hfits.base_le _) hfits.le_limit

end Lends
end InstanceMemory.RangeSpace
