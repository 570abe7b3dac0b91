import InstanceMemory.Proofs.RangeSpace.Holes
import InstanceMemory.RangeSpace.Basic

/-!
# Range spaces in use

`RangeSpace.Sound` is what every operation keeps: the holes are canonical, the allocated ranges are
ascending and inside the space, and an address of the space is free exactly if no allocated range
holds it. So the holes are settled by the allocated ranges: **two sound spaces with the same bounds
and the same allocated ranges are equal** (`Sound.eq_of_perm`), however they came about.

`Sound.reserve` and `Sound.release` say all there is to know about the two operations. A reservation
never faults; `Reserved` lists its five outcomes. A release of an outstanding reservation never
faults and notes nothing.
-/

set_option autoImplicit false

namespace InstanceMemory

variable {r range : AddressRange} {ranges : List AddressRange}

/-! ## The list of allocated ranges -/

namespace RangeSpace

/-- Putting a range among others adds it and nothing else. -/
theorem insertAscending_perm (range : AddressRange) (ranges : List AddressRange) :
    (insertAscending range ranges).Perm (range :: ranges) := by
  induction ranges with
  | nil => exact List.Perm.refl _
  | cons r rest ih =>
    unfold insertAscending
    split
    · exact List.Perm.refl _
    · exact (ih.cons r).trans (List.Perm.swap range r rest)

/-- A range that meets none of the others goes to its place. -/
theorem ascending_insertAscending (h : Ascending ranges) (hpos : 0 < range.length)
    (hfree : ∀ x, range.Holds x → ¬ Covers ranges x) :
    Ascending (insertAscending range ranges) := by
  induction ranges with
  | nil => exact ascending_cons.mpr ⟨hpos, fun _ h => absurd h List.not_mem_nil, h⟩
  | cons r rest ih =>
    have ⟨hr, hord, hrest⟩ := ascending_cons.mp h
    have hside : r.limit ≤ range.base ∨ range.limit ≤ r.base :=
      AddressRange.before_or_behind hpos hr fun x hx hrx => hfree x hx (covers_cons.mpr (.inl hrx))
    have hlt : r.base < r.limit := Nat.lt_add_of_pos_right hr
    unfold insertAscending
    split
    · have hle : range.limit ≤ r.base := by omega
      refine ascending_cons.mpr ⟨hpos, List.forall_mem_cons.mpr ⟨hle, ?_⟩, h⟩
      intro s hs
      have := hord s hs
      omega
    · have hle : r.limit ≤ range.base := by
        have : range.base < range.limit := Nat.lt_add_of_pos_right hpos
        omega
      refine ascending_cons.mpr ⟨hr, ?_, ih hrest ?_⟩
      · intro s hs
        rcases List.mem_cons.mp ((insertAscending_perm range rest).mem_iff.mp hs) with rfl | hs
        · exact hle
        · exact hord s hs
      · intro x hx hcov
        exact hfree x hx (covers_cons.mpr (.inr hcov))

/-! ## The invariant -/

/-- What every operation on a range space keeps. -/
structure Sound (space : RangeSpace) : Prop where
  granularity : space.granularity.isPowerOfTwo
  limit : space.base + space.length < addressLimit
  holes : Canonical space.free
  allocated : Ascending space.allocated
  onGrid : OnGrid space.granularity (space.free ++ space.allocated)
  inside : ∀ x, Covers space.allocated x → space.base ≤ x ∧ x < space.base + space.length
  free_iff : ∀ x, Covers space.free x ↔
    (space.base ≤ x ∧ x < space.base + space.length) ∧ ¬ Covers space.allocated x

/-- The space without its ranges: its name, bounds and granularity. -/
def emptied (space : RangeSpace) : RangeSpace := { space with free := [], allocated := [] }

variable {space next : RangeSpace}

/-- A space is created sound, with one hole and nothing allocated. -/
theorem create_eq_ok {name : String} {base length granularity : Nat}
    (h : create name base length granularity = .ok space) :
    space = ⟨name, base, length, granularity, [⟨base, length⟩], []⟩ ∧ space.Sound := by
  unfold create at h
  split at h
  · cases h
  · split at h
    · cases h
    · split at h
      · cases h
      · split at h
        · cases h
        · rename_i hlength hpow hlimit hgrid
          cases h
          refine ⟨rfl, ?_⟩
          constructor
          · exact not_not.mp hpow
          · exact Nat.lt_of_not_le hlimit
          · exact canonical_cons.mpr ⟨Nat.pos_of_ne_zero hlength,
              fun _ h => absurd h List.not_mem_nil, canonical_nil⟩
          · exact ascending_nil
          · intro r hr
            obtain rfl := List.mem_singleton.mp hr
            obtain ⟨hbase, hlen⟩ := not_or.mp hgrid
            exact ⟨Nat.dvd_of_mod_eq_zero (not_not.mp hbase),
              Nat.dvd_of_mod_eq_zero (not_not.mp hlen)⟩
          · intro x hx
            exact absurd hx covers_nil
          · intro x
            simp only [covers_cons, covers_nil, or_false, not_false_eq_true, and_true,
              AddressRange.Holds, AddressRange.limit]

namespace Sound

/-- Holes end below the address limit. -/
theorem hole_limit (h : space.Sound) (hr : r ∈ space.free) :
    space.base ≤ r.base ∧ r.limit ≤ space.base + space.length := by
  have hpos := h.holes.positive r hr
  have hbase := ((h.free_iff r.base).mp (covers_base hr hpos)).1
  have hlast := ((h.free_iff (r.limit - 1)).mp ⟨r, hr, by
    simp only [AddressRange.Holds, AddressRange.limit]
    omega⟩).1
  simp only [AddressRange.limit] at hlast ⊢
  omega

/-- Allocated ranges lie in the space. -/
theorem range_inside (h : space.Sound) (hr : r ∈ space.allocated) :
    space.base ≤ r.base ∧ r.limit ≤ space.base + space.length := by
  have hpos := h.allocated.positive r hr
  have hbase := h.inside r.base (covers_base hr hpos)
  have hlast := h.inside (r.limit - 1) ⟨r, hr, by
    simp only [AddressRange.Holds, AddressRange.limit]
    omega⟩
  simp only [AddressRange.limit] at hlast ⊢
  omega

theorem hole_limit_lt (h : space.Sound) (hr : r ∈ space.free) : r.limit < addressLimit :=
  Nat.lt_of_le_of_lt (h.hole_limit hr).2 h.limit

theorem range_limit_lt (h : space.Sound) (hr : r ∈ space.allocated) : r.limit < addressLimit :=
  Nat.lt_of_le_of_lt (h.range_inside hr).2 h.limit

/-- **The allocated ranges settle the space.** -/
theorem eq_of_perm (hs : space.Sound) (hn : next.Sound) (hframe : next.emptied = space.emptied)
    (h : next.allocated.Perm space.allocated) : next = space := by
  have hallocated := hn.allocated.eq_of_perm hs.allocated h
  have hfree : next.free = space.free := by
    apply hn.holes.ext hs.holes
    intro x
    have hbase : next.base = space.base := congrArg (·.base) hframe
    have hlength : next.length = space.length := congrArg (·.length) hframe
    rw [hn.free_iff, hs.free_iff, hallocated, hbase, hlength]
  obtain ⟨name, base, length, granularity, free, allocated⟩ := space
  obtain ⟨name', base', length', granularity', free', allocated'⟩ := next
  simp only [emptied, RangeSpace.mk.injEq, and_true] at hframe hallocated hfree ⊢
  exact ⟨hframe.1, hframe.2.1, hframe.2.2.1, hframe.2.2.2, hfree, hallocated⟩

end Sound

/-! ## Reserving -/

/-- The outcomes of a reservation. -/
inductive Reserved (space : RangeSpace) (size align : Nat) :
    Except Error (AddressRange × RangeSpace) → Prop
  | empty : size = 0 →
    Reserved space size align (.error (.invalidArgument (.emptyReservation space.name)))
  | misaligned : size ≠ 0 → ¬ (max align space.granularity).isPowerOfTwo →
    Reserved space size align
      (.error (.invalidArgument (.reservationAlignment space.name (max align space.granularity))))
  /-- No multiple of the granularity from the size on is an address. -/
  | tooLarge : size ≠ 0 → (max align space.granularity).isPowerOfTwo →
    (∀ n, space.granularity ∣ n → size ≤ n → addressLimit ≤ n) →
    Reserved space size align (.error (.outOfAddressSpace size (max align space.granularity)))
  | noRoom {rounded : Nat} : size ≠ 0 → (max align space.granularity).isPowerOfTwo →
    LeastMultiple size space.granularity rounded → rounded < addressLimit →
    (∀ hole ∈ space.free, ∀ s, ¬ Holes.Fits rounded (max align space.granularity) hole s) →
    Reserved space size align (.error (.outOfAddressSpace rounded (max align space.granularity)))
  | granted {rounded start : Nat} {left : List AddressRange} : size ≠ 0 →
    (max align space.granularity).isPowerOfTwo →
    LeastMultiple size space.granularity rounded → rounded < addressLimit →
    Holes.take rounded (max align space.granularity) space.free = .ok (some (start, left)) →
    Holes.Taken rounded (max align space.granularity) space.free start left →
    Reserved space size align (.ok (⟨start, rounded⟩,
      { space with free := left, allocated := insertAscending ⟨start, rounded⟩ space.allocated }))

/-- **A reservation answers** with one of its outcomes. -/
theorem Sound.reserve (h : space.Sound) (size align : Nat) :
    ∃ answer, space.reserve size align = .ok answer ∧ Reserved space size align answer := by
  unfold RangeSpace.reserve
  by_cases hsize : size = 0
  · exact ⟨_, by rw [if_pos hsize], .empty hsize⟩
  · rw [if_neg hsize]
    by_cases hpow : (max align space.granularity).isPowerOfTwo
    · simp only [hpow, not_true_eq_false, ↓reduceIte]
      have hgrain := pos_of_isPowerOfTwo h.granularity
      cases hrounded : nextMultiple? size space.granularity with
      | none =>
        exact ⟨_, rfl, .tooLarge hsize hpow ((nextMultiple?_eq_none_iff hgrain).mp hrounded)⟩
      | some rounded =>
        obtain ⟨-, hleast, hlt⟩ := nextMultiple?_eq_some_iff.mp hrounded
        have hpos : 0 < rounded := Nat.lt_of_lt_of_le (Nat.pos_of_ne_zero hsize) hleast.le
        rcases Holes.take_spec h.holes (fun r hr => h.hole_limit_lt hr)
          (pos_of_isPowerOfTwo hpow) hpos with ⟨hnone, hno⟩ | ⟨start, left, hsome, htaken⟩
        · refine ⟨_, ?_, .noRoom hsize hpow hleast hlt hno⟩
          simp only [hnone, ok_bind]
          rfl
        · refine ⟨_, ?_, .granted hsize hpow hleast hlt hsome htaken⟩
          simp only [hsome, ok_bind]
          rfl
    · refine ⟨_, ?_, .misaligned hsize hpow⟩
      simp only [hpow, not_false_eq_true, ↓reduceIte]

/-- A granted reservation keeps the space sound and adds its range to the allocated ones. -/
theorem Reserved.granted_spec {size align : Nat}
    (h : Reserved space size align (.ok (range, next))) (hs : space.Sound) :
    next.Sound ∧ next.emptied = space.emptied ∧
      next.allocated.Perm (range :: space.allocated) ∧
      LeastMultiple size space.granularity range.length ∧
      max align space.granularity ∣ range.base ∧ ∀ x, range.Holds x → Covers space.free x := by
  cases h with
  | @granted rounded start left hsize hpow hleast hlt htake htaken =>
    have hpos : 0 < rounded := Nat.lt_of_lt_of_le (Nat.pos_of_ne_zero hsize) hleast.le
    obtain ⟨hole, hhole, hfits⟩ := htaken.fits
    have hdvd : space.granularity ∣ start :=
      Nat.dvd_trans (dvd_of_isPowerOfTwo hs.granularity hpow (Nat.le_max_right _ _)) hfits.dvd
    have hcovered : ∀ x, AddressRange.Holds ⟨start, rounded⟩ x → Covers space.free x := by
      rintro x ⟨hle, hx⟩
      have hlimit := hfits.le_limit
      have hbase := hfits.base_le
      simp only [AddressRange.limit] at hle hx
      exact ⟨hole, hhole, by omega, by omega⟩
    have hfree : ∀ x, AddressRange.Holds ⟨start, rounded⟩ x → ¬ Covers space.allocated x :=
      fun x hx => ((hs.free_iff x).mp (hcovered x hx)).2
    have hperm := insertAscending_perm ⟨start, rounded⟩ space.allocated
    obtain ⟨hgridFree, hgridAllocated⟩ := Holes.onGrid_append.mp hs.onGrid
    refine ⟨?_, rfl, hperm, hleast, hfits.dvd, hcovered⟩
    constructor
    · exact hs.granularity
    · exact hs.limit
    · exact htaken.canonical
    · exact ascending_insertAscending hs.allocated hpos hfree
    · refine Holes.onGrid_append.mpr ⟨Holes.onGrid_take htake hgridFree hdvd hleast.dvd, ?_⟩
      intro r hr
      rcases List.mem_cons.mp (hperm.mem_iff.mp hr) with rfl | hr
      · exact ⟨hdvd, hleast.dvd⟩
      · exact hgridAllocated r hr
    · intro x hx
      rcases covers_cons.mp ((covers_perm hperm).mp hx) with hx | hx
      · exact ((hs.free_iff x).mp (hcovered x hx)).1
      · exact hs.inside x hx
    · intro x
      rw [htaken.covers, hs.free_iff, covers_perm hperm, covers_cons, not_or, and_assoc]
      refine and_congr_right fun _ => and_comm

/-! ## Releasing -/

/-- **A release of an outstanding reservation** takes exactly that range back and notes nothing. -/
theorem Sound.release (h : space.Sound) (hr : range ∈ space.allocated) (journal : Journal) :
    ∃ next, space.release range journal = .ok (next, journal) ∧ next.Sound ∧
      next.emptied = space.emptied ∧ next.allocated = space.allocated.erase range := by
  have hpos := h.allocated.positive range hr
  have hperm := List.perm_cons_erase hr
  obtain ⟨hgridFree, hgridAllocated⟩ := Holes.onGrid_append.mp h.onGrid
  obtain ⟨free, hfree, hcanonical, hcovers⟩ := Holes.insert_spec h.holes
    (fun r hr => h.hole_limit_lt hr) hpos (h.range_limit_lt hr) fun x hle hlt hx =>
      ((h.free_iff x).mp hx).2 ⟨range, hr, hle, hlt⟩
  -- the range shares no address with the other allocated ones
  have hapart : ∀ x, range.Holds x → ¬ Covers (space.allocated.erase range) x := by
    rintro x hx ⟨s, hs, hsx⟩
    obtain rfl := h.allocated.eq_of_holds hr (List.mem_of_mem_erase hs) hx hsx
    exact h.allocated.nodup.not_mem_erase hs
  refine ⟨{ space with free, allocated := space.allocated.erase range }, ?_, ?_, rfl, rfl⟩
  · simp only [RangeSpace.release, hr, ↓reduceIte, hfree, ok_bind]
    rfl
  · constructor
    · exact h.granularity
    · exact h.limit
    · exact hcanonical
    · exact h.allocated.sublist List.erase_sublist
    · refine Holes.onGrid_append.mpr ⟨?_, fun s hs => hgridAllocated s (List.mem_of_mem_erase hs)⟩
      exact Holes.onGrid_insert hfree hgridFree (hgridAllocated range hr).1
        (hgridAllocated range hr).2
    · intro x hx
      exact h.inside x ((covers_perm hperm).mpr (covers_cons.mpr (.inr hx)))
    · intro x
      have hiff := covers_perm (x := x) hperm
      have hin := h.inside x
      have hno := hapart x
      rw [hcovers, h.free_iff]
      simp only [covers_cons, AddressRange.Holds, AddressRange.limit] at hiff hno ⊢
      tauto

/-- A release of anything else leaves the space alone. -/
theorem release_of_not_mem (hr : range ∉ space.allocated) (journal : Journal) :
    space.release range journal =
      (journal.note (.untrackedRelease space.name range)).map fun journal => (space, journal) := by
  simp only [RangeSpace.release, hr, ↓reduceIte]
  cases journal.note (.untrackedRelease space.name range) <;> rfl

end RangeSpace
end InstanceMemory
