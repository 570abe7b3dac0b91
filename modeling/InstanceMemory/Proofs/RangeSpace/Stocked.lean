import InstanceMemory.DeviceMap
import InstanceMemory.Proofs.RangeSpace.FirstFit

/-!
# Filling a space from its start

A space is `Stocked` up to an address if it starts at zero and its allocated ranges cover exactly the
addresses below. First fit then grants whole pages **from the end of the stock on**, and refuses them
only if they do not fit behind it (`Stocked.reserve`). What is free is the rest of the space, in one
piece (`Stocked.free_eq`).
-/

set_option autoImplicit false

namespace InstanceMemory

/-- A heap of which all addresses below one are allocated, and none above. -/
structure Stocked (below : Nat) (space : RangeSpace) : Prop where
  sound : space.Sound
  granularity : space.granularity = pageSize
  base : space.base = 0
  covers : ∀ x, Covers space.allocated x ↔ x < below

namespace Stocked

variable {below size : Nat} {space : RangeSpace}

theorem of_create {name : String} {length : Nat}
    (h : RangeSpace.create name 0 length pageSize = .ok space) : Stocked 0 space := by
  obtain ⟨rfl, hsound⟩ := RangeSpace.create_eq_ok h
  exact ⟨hsound, rfl, rfl, fun x => iff_of_false covers_nil (Nat.not_lt_zero x)⟩

/-- Whole pages below the address limit make a space with nothing in it. -/
theorem create (name : String) {length : Nat} (hpos : 0 < length) (hpages : pageSize ∣ length)
    (hlimit : length < addressLimit) : ∃ space,
      RangeSpace.create name 0 length pageSize = .ok space ∧ Stocked 0 space ∧ space.length = length := by
  have hcreate : RangeSpace.create name 0 length pageSize =
      .ok ⟨name, 0, length, pageSize, [⟨0, length⟩], []⟩ := by
    have hpow : pageSize.isPowerOfTwo := ⟨12, rfl⟩
    have hbelow : ¬ addressLimit ≤ 0 + length := by omega
    have hgrid : ¬ (0 % pageSize ≠ 0 ∨ length % pageSize ≠ 0) := by
      rw [Nat.mod_eq_zero_of_dvd hpages]
      decide
    unfold RangeSpace.create
    rw [if_neg (Nat.ne_of_gt hpos), if_neg (not_not.mpr hpow), if_neg hbelow, if_neg hgrid]
  exact ⟨_, hcreate, of_create hcreate, rfl⟩

/-- The first vacant start is the end of the stock. -/
theorem vacant_iff {align start : Nat} (h : Stocked below space) (hpos : 0 < size) :
    Vacant space.bounds space.allocated size align start ↔
      align ∣ start ∧ below ≤ start ∧ start + size ≤ space.length := by
  have hlimit : space.bounds.limit = space.length :=
    (congrArg (· + space.length) h.base).trans (Nat.zero_add _)
  constructor
  · rintro ⟨hdvd, -, hle, hfree⟩
    refine ⟨hdvd, ?_, hlimit ▸ hle⟩
    by_contra hlt
    exact hfree start (Nat.le_refl _) (Nat.lt_add_of_pos_right hpos)
      ((h.covers start).mpr (Nat.lt_of_not_le hlt))
  · rintro ⟨hdvd, hge, hle⟩
    refine ⟨hdvd, Nat.le_trans (Nat.le_of_eq h.base) (Nat.zero_le _), hlimit ▸ hle, ?_⟩
    intro x hx _ hcovers
    exact absurd ((h.covers x).mp hcovers) (Nat.not_lt.mpr (Nat.le_trans hge hx))

/-- **A stocked heap grants the addresses from the end of its stock on**, unless the heap ends before
they do. -/
theorem reserve (h : Stocked below space) (hbelow : pageSize ∣ below) (hsize : pageSize ∣ size)
    (hpos : 0 < size) :
    (space.length < below + size ∧ ∃ cause, space.reserve size pageSize = .ok (.error cause)) ∨
      ∃ next, space.reserve size pageSize = .ok (.ok (⟨below, size⟩, next)) ∧
        Stocked (below + size) next ∧ next.length = space.length := by
  have hmax : max pageSize space.granularity = pageSize := by
    rw [h.granularity]
    exact Nat.max_self pageSize
  have hrounded : LeastMultiple size space.granularity size :=
    h.granularity.symm ▸ ⟨hsize, Nat.le_refl _, fun _ _ hle => hle⟩
  have hpow : (max pageSize space.granularity).isPowerOfTwo := hmax.symm ▸ ⟨12, rfl⟩
  rcases h.sound.reserve_least hpos hpow hrounded with ⟨start, next, hok, hfirst⟩ | ⟨herror, hno⟩
  · obtain ⟨hvacant, hlowest⟩ := hfirst
    rw [hmax] at hvacant hlowest
    obtain ⟨-, hge, hle⟩ := (h.vacant_iff hpos).mp hvacant
    have hend : Vacant space.bounds space.allocated size pageSize below :=
      (h.vacant_iff hpos).mpr
        ⟨hbelow, Nat.le_refl _, Nat.le_trans (Nat.add_le_add_right hge size) hle⟩
    obtain rfl : start = below := Nat.le_antisymm (hlowest hend) hge
    obtain ⟨answer, hanswer, hreserved⟩ := h.sound.reserve size pageSize
    obtain rfl := Except.ok.inj (hanswer.symm.trans hok)
    obtain ⟨hsound, hemptied, hperm, -, -, -⟩ := hreserved.granted_spec h.sound
    refine .inr ⟨next, hok, ⟨hsound, ?_, ?_, ?_⟩, congrArg (·.length) hemptied⟩
    · exact (congrArg (·.granularity) hemptied).trans h.granularity
    · exact (congrArg (·.base) hemptied).trans h.base
    · intro x
      rw [covers_perm hperm, covers_cons, h.covers]
      simp only [AddressRange.Holds, AddressRange.limit]
      omega
  · refine .inl ⟨?_, _, herror⟩
    by_contra hroom
    refine hno below ((h.vacant_iff hpos).mpr ⟨?_, Nat.le_refl _, Nat.le_of_not_lt hroom⟩)
    rw [hmax]
    exact hbelow

/-- **What is free of a stocked heap is the rest of it**, in one piece. -/
theorem free_eq (h : Stocked below space) (hlt : below < space.length) :
    space.free = [⟨below, space.length - below⟩] := by
  have hone : Canonical [⟨below, space.length - below⟩] :=
    .cons (Nat.sub_pos_of_lt hlt) canonical_nil fun x hx => absurd hx covers_nil
  refine h.sound.holes.ext hone fun x => ?_
  rw [h.sound.free_iff, h.covers, h.base, covers_cons]
  have hnil : ¬ Covers [] x := covers_nil
  simp only [hnil, or_false, AddressRange.Holds, AddressRange.limit]
  omega

end Stocked
end InstanceMemory
