import InstanceMemory.AddressRange
import Mathlib.Algebra.Ring.Nat
import Mathlib.Data.List.Sort

/-!
# What lists of ranges cover

A list of ranges **covers** the addresses that lie in one of them. The two lists of a range space
keep two orders: allocated ranges are `Ascending`, each ending no later than the next begins, and
holes are `Canonical`, each ending strictly before the next begins. Two canonical lists that cover
the same addresses are equal (`Canonical.ext`), so a list of holes is nothing but a set of free
addresses; an ascending list is settled by its members alone (`Ascending.eq_of_perm`).

`Tiles lo hi ranges` says that ranges follow one another from `lo` to `hi` without a gap and without
an overlap, and none of them empty. Ascending ranges that cover exactly `[lo, hi)` tile it
(`Ascending.tiles`), and tiles are ascending (`Tiles.ascending`), hence disjoint.
-/

set_option autoImplicit false

namespace InstanceMemory

/-- The range holds an address. -/
def AddressRange.Holds (r : AddressRange) (x : Nat) : Prop := r.base ≤ x ∧ x < r.limit

/-- The ranges have no address in common. -/
def AddressRange.Disjoint (r s : AddressRange) : Prop := ∀ x, r.Holds x → ¬ s.Holds x

/-- Some range of the list holds the address. -/
def Covers (ranges : List AddressRange) (x : Nat) : Prop := ∃ r ∈ ranges, r.Holds x

/-- Ranges in ascending order, none empty and none overlapping the next. -/
structure Ascending (ranges : List AddressRange) : Prop where
  positive : ∀ r ∈ ranges, 0 < r.length
  ordered : ranges.Pairwise fun r s => r.limit ≤ s.base

/-- Ranges in ascending order, none empty and none touching the next. -/
structure Canonical (ranges : List AddressRange) : Prop where
  positive : ∀ r ∈ ranges, 0 < r.length
  apart : ranges.Pairwise fun r s => r.limit < s.base

/-- The ranges follow one another from `lo` to `hi`, none of them empty. -/
def Tiles (lo hi : Nat) : List AddressRange → Prop
  | [] => lo = hi
  | r :: rest => r.base = lo ∧ 0 < r.length ∧ Tiles r.limit hi rest

/-- The sum of the lengths. -/
def totalLength (ranges : List AddressRange) : Nat := (ranges.map (·.length)).sum

variable {r s : AddressRange} {ranges rest : List AddressRange} {x lo hi : Nat}

/-! ## Covering -/

@[simp] theorem covers_nil : ¬ Covers [] x := by
  rintro ⟨r, hr, -⟩
  cases hr

@[simp] theorem covers_cons : Covers (r :: rest) x ↔ r.Holds x ∨ Covers rest x :=
  List.exists_mem_cons_iff _ r rest

@[simp] theorem covers_append {first second : List AddressRange} :
    Covers (first ++ second) x ↔ Covers first x ∨ Covers second x := by
  simp only [Covers, List.mem_append, or_and_right, exists_or]

/-- The order of a list does not matter to what it covers. -/
theorem covers_perm {first second : List AddressRange} (h : first.Perm second) :
    Covers first x ↔ Covers second x := by
  simp only [Covers, h.mem_iff]

theorem AddressRange.holds_base (h : 0 < r.length) : r.Holds r.base :=
  ⟨Nat.le_refl _, Nat.lt_add_of_pos_right h⟩

/-- The first address of a nonempty range of the list is covered. -/
theorem covers_base (hr : r ∈ ranges) (h : 0 < r.length) : Covers ranges r.base :=
  ⟨r, hr, r.holds_base h⟩

/-- Of two nonempty ranges without a common address, one lies before the other. -/
theorem AddressRange.before_or_behind (hr : 0 < r.length) (hs : 0 < s.length)
    (h : ∀ x, r.Holds x → ¬ s.Holds x) : s.limit ≤ r.base ∨ r.limit ≤ s.base := by
  by_contra hno
  refine h (max r.base s.base) ⟨Nat.le_max_left _ _, ?_⟩ ⟨Nat.le_max_right _ _, ?_⟩ <;>
    (simp only [AddressRange.limit] at hno ⊢; omega)

/-- Nonempty ranges are disjoint exactly if one lies before the other. -/
theorem AddressRange.disjoint_iff (hr : 0 < r.length) (hs : 0 < s.length) :
    r.Disjoint s ↔ r.limit ≤ s.base ∨ s.limit ≤ r.base := by
  constructor
  · intro h
    exact (before_or_behind hr hs h).symm
  · rintro h x ⟨hbase, hlimit⟩ ⟨hbase', hlimit'⟩
    omega

/-! ## Ascending lists -/

theorem ascending_nil : Ascending [] :=
  ⟨fun _ h => absurd h List.not_mem_nil, List.Pairwise.nil⟩

theorem ascending_cons : Ascending (r :: rest) ↔
    0 < r.length ∧ (∀ s ∈ rest, r.limit ≤ s.base) ∧ Ascending rest := by
  constructor
  · rintro ⟨hpos, hord⟩
    obtain ⟨hr, hrest⟩ := List.pairwise_cons.mp hord
    exact ⟨hpos r List.mem_cons_self, hr, fun s hs => hpos s (List.mem_cons_of_mem _ hs), hrest⟩
  · rintro ⟨hr, hord, hrest⟩
    refine ⟨?_, List.pairwise_cons.mpr ⟨hord, hrest.ordered⟩⟩
    intro s hs
    rcases List.mem_cons.mp hs with rfl | hs
    · exact hr
    · exact hrest.positive s hs

/-- Everything behind the head of an ascending list lies behind the head. -/
theorem Ascending.limit_le_of_covers (h : Ascending (r :: rest)) (hx : Covers rest x) :
    r.limit ≤ x := by
  obtain ⟨s, hs, hle, -⟩ := hx
  exact Nat.le_trans ((ascending_cons.mp h).2.1 s hs) hle

/-- No range stands twice in an ascending list. -/
theorem Ascending.nodup (h : Ascending ranges) : ranges.Nodup :=
  h.ordered.imp_of_mem fun {r s} hr _ hord heq => by
    have := h.positive r hr
    simp only [← heq, AddressRange.limit] at hord
    omega

/-- Ascending ranges are pairwise disjoint. -/
theorem Ascending.disjoint (h : Ascending ranges) : ranges.Pairwise AddressRange.Disjoint :=
  h.ordered.imp_of_mem fun hr hs hle =>
    (AddressRange.disjoint_iff (h.positive _ hr) (h.positive _ hs)).mpr (.inl hle)

/-- A part of an ascending list is ascending. -/
theorem Ascending.sublist {part : List AddressRange} (h : Ascending ranges)
    (hpart : part.Sublist ranges) : Ascending part :=
  ⟨fun r hr => h.positive r (hpart.subset hr), h.ordered.sublist hpart⟩

/-- **An ascending list is settled by its members.** -/
theorem Ascending.eq_of_perm {first second : List AddressRange} (hf : Ascending first)
    (hs : Ascending second) (h : first.Perm second) : first = second := by
  refine h.eq_of_pairwise ?_ hf.ordered hs.ordered
  intro r s hr _ hrs hsr
  have := hf.positive r hr
  have hs' : 0 < s.length := hs.positive s ‹_›
  simp only [AddressRange.limit] at hrs hsr
  omega

/-- Ranges of an ascending list that hold a common address are one range. -/
theorem Ascending.eq_of_holds (h : Ascending ranges) (hr : r ∈ ranges) (hs : s ∈ ranges)
    (hxr : r.Holds x) (hxs : s.Holds x) : r = s := by
  induction ranges with
  | nil => cases hr
  | cons head rest ih =>
    have hrest := (ascending_cons.mp h).2.2
    rcases List.mem_cons.mp hr with hr | hr <;> rcases List.mem_cons.mp hs with hs | hs
    · exact hr.trans hs.symm
    · have := h.limit_le_of_covers ⟨s, hs, hxs⟩
      exact absurd (hr ▸ hxr.2) (Nat.not_lt.mpr this)
    · have := h.limit_le_of_covers ⟨r, hr, hxr⟩
      exact absurd (hs ▸ hxs.2) (Nat.not_lt.mpr this)
    · exact ih hrest hr hs

/-! ## Canonical lists -/

theorem canonical_nil : Canonical [] :=
  ⟨fun _ h => absurd h List.not_mem_nil, List.Pairwise.nil⟩

theorem canonical_cons : Canonical (r :: rest) ↔
    0 < r.length ∧ (∀ s ∈ rest, r.limit < s.base) ∧ Canonical rest := by
  constructor
  · rintro ⟨hpos, hord⟩
    obtain ⟨hr, hrest⟩ := List.pairwise_cons.mp hord
    exact ⟨hpos r List.mem_cons_self, hr, fun s hs => hpos s (List.mem_cons_of_mem _ hs), hrest⟩
  · rintro ⟨hr, hord, hrest⟩
    refine ⟨?_, List.pairwise_cons.mpr ⟨hord, hrest.apart⟩⟩
    intro s hs
    rcases List.mem_cons.mp hs with rfl | hs
    · exact hr
    · exact hrest.positive s hs

theorem Canonical.ascending (h : Canonical ranges) : Ascending ranges :=
  ⟨h.positive, h.apart.imp fun h => Nat.le_of_lt h⟩

/-- Everything behind the head of a canonical list lies beyond the head's end. -/
theorem Canonical.limit_lt_of_covers (h : Canonical (r :: rest)) (hx : Covers rest x) :
    r.limit < x := by
  obtain ⟨s, hs, hle, -⟩ := hx
  exact Nat.lt_of_lt_of_le ((canonical_cons.mp h).2.1 s hs) hle

/-- The head of a canonical list has the least covered address. -/
theorem Canonical.base_le_of_covers (h : Canonical (r :: rest)) (hx : Covers (r :: rest) x) :
    r.base ≤ x := by
  rcases covers_cons.mp hx with hr | hrest
  · exact hr.1
  · exact Nat.le_trans (Nat.le_add_right _ _) (Nat.le_of_lt (h.limit_lt_of_covers hrest))

/-- The address at which the head of a canonical list ends is not covered. -/
theorem Canonical.not_covers_limit (h : Canonical (r :: rest)) : ¬ Covers (r :: rest) r.limit := by
  intro hx
  rcases covers_cons.mp hx with hr | hrest
  · exact Nat.lt_irrefl _ hr.2
  · exact Nat.lt_irrefl _ (h.limit_lt_of_covers hrest)

/-- No address at which a range of a canonical list ends is covered. -/
theorem Canonical.not_covers_limit_of_mem (h : Canonical ranges) (hr : r ∈ ranges) :
    ¬ Covers ranges r.limit := by
  induction ranges with
  | nil => cases hr
  | cons head rest ih =>
    rcases List.mem_cons.mp hr with rfl | hr
    · exact h.not_covers_limit
    · obtain ⟨-, hord, hrest⟩ := canonical_cons.mp h
      intro hx
      rcases covers_cons.mp hx with hhead | hx
      · have hbehind : head.limit < r.base := hord r hr
        have hlt : r.limit < head.limit := hhead.2
        simp only [AddressRange.limit] at hbehind hlt
        omega
      · exact ih hrest hr hx

/-- **An interval that a canonical list covers lies in one of its ranges.** -/
theorem Canonical.exists_of_covers_interval (h : Canonical ranges) (hlt : lo < hi)
    (hcovers : ∀ x, lo ≤ x → x < hi → Covers ranges x) :
    ∃ r ∈ ranges, r.base ≤ lo ∧ hi ≤ r.limit := by
  obtain ⟨r, hr, hbase, hlimit⟩ := hcovers lo (Nat.le_refl _) hlt
  refine ⟨r, hr, hbase, ?_⟩
  -- the range that holds the first address would otherwise end at a covered one
  by_contra hshort
  exact h.not_covers_limit_of_mem hr (hcovers r.limit (Nat.le_of_lt hlimit) (by omega))

/-- A head in front of ranges that all lie beyond its end keeps a list canonical. -/
theorem Canonical.cons (hr : 0 < r.length) (hrest : Canonical rest)
    (h : ∀ x, Covers rest x → r.limit < x) : Canonical (r :: rest) :=
  canonical_cons.mpr
    ⟨hr, fun s hs => h s.base (covers_base hs (hrest.positive s hs)), hrest⟩

/-- Canonical lists of which one lies before the other make one canonical list. -/
theorem Canonical.append {first second : List AddressRange} (hf : Canonical first)
    (hs : Canonical second) (h : ∀ r ∈ first, ∀ s ∈ second, r.limit < s.base) :
    Canonical (first ++ second) := by
  refine ⟨?_, List.pairwise_append.mpr ⟨hf.apart, hs.apart, h⟩⟩
  intro r hr
  rcases List.mem_append.mp hr with hr | hr
  · exact hf.positive r hr
  · exact hs.positive r hr

/-- Heads of canonical lists that cover the same addresses agree. -/
theorem Canonical.head_eq {first second : List AddressRange} (hf : Canonical (r :: first))
    (hs : Canonical (s :: second)) (h : ∀ x, Covers (r :: first) x ↔ Covers (s :: second) x) :
    r = s := by
  have hr := (canonical_cons.mp hf).1
  have hs' := (canonical_cons.mp hs).1
  have hbase : r.base = s.base := Nat.le_antisymm
    (hf.base_le_of_covers ((h _).mpr (covers_base List.mem_cons_self hs')))
    (hs.base_le_of_covers ((h _).mp (covers_base List.mem_cons_self hr)))
  -- the shorter head ends at an address that the longer one still holds
  have hle : r.limit ≤ s.limit := by
    by_contra hlt
    refine hs.not_covers_limit ((h _).mp (covers_cons.mpr (.inl ⟨?_, by omega⟩)))
    simp only [AddressRange.limit]
    omega
  have hge : s.limit ≤ r.limit := by
    by_contra hlt
    refine hf.not_covers_limit ((h _).mpr (covers_cons.mpr (.inl ⟨?_, by omega⟩)))
    simp only [AddressRange.limit]
    omega
  obtain ⟨base, length⟩ := r
  obtain ⟨base', length'⟩ := s
  simp only [AddressRange.limit] at hbase hle hge
  simp only [AddressRange.mk.injEq]
  omega

/-- **A canonical list is settled by what it covers.** -/
theorem Canonical.ext {first second : List AddressRange} (hf : Canonical first)
    (hs : Canonical second) (h : ∀ x, Covers first x ↔ Covers second x) : first = second := by
  induction first generalizing second with
  | nil =>
    cases second with
    | nil => rfl
    | cons s second =>
      have hbase : Covers (s :: second) s.base :=
        covers_base List.mem_cons_self (canonical_cons.mp hs).1
      exact absurd ((h s.base).mpr hbase) covers_nil
  | cons r first ih =>
    cases second with
    | nil =>
      have hbase : Covers (r :: first) r.base :=
        covers_base List.mem_cons_self (canonical_cons.mp hf).1
      exact absurd ((h r.base).mp hbase) covers_nil
    | cons s second =>
      obtain rfl := hf.head_eq hs h
      congr 1
      apply ih (canonical_cons.mp hf).2.2 (canonical_cons.mp hs).2.2
      intro x
      -- an address beyond the common head is covered by a tail or not at all
      constructor
      · intro hx
        have hlt := hf.limit_lt_of_covers hx
        rcases covers_cons.mp ((h x).mp (covers_cons.mpr (.inr hx))) with hr | hx
        · exact absurd hr.2 (Nat.not_lt.mpr (Nat.le_of_lt hlt))
        · exact hx
      · intro hx
        have hlt := hs.limit_lt_of_covers hx
        rcases covers_cons.mp ((h x).mpr (covers_cons.mpr (.inr hx))) with hr | hx
        · exact absurd hr.2 (Nat.not_lt.mpr (Nat.le_of_lt hlt))
        · exact hx

/-! ## Tilings -/

/-- **Ascending ranges that cover exactly an interval tile it.** -/
theorem Ascending.tiles (h : Ascending ranges) (hle : lo ≤ hi)
    (hcovers : ∀ x, Covers ranges x ↔ lo ≤ x ∧ x < hi) : Tiles lo hi ranges := by
  induction ranges generalizing lo with
  | nil =>
    have := (hcovers lo).not.mp covers_nil
    simp only [Tiles]
    omega
  | cons r rest ih =>
    obtain ⟨hpos, hord, hrest⟩ := ascending_cons.mp h
    have hbase := (hcovers r.base).mp (covers_base List.mem_cons_self hpos)
    have hlast := (hcovers (r.limit - 1)).mp (covers_cons.mpr (.inl (by
      simp only [AddressRange.Holds, AddressRange.limit]
      omega)))
    have hlo : r.base = lo := by
      rcases covers_cons.mp ((hcovers lo).mpr (by omega)) with hr | hx
      · exact Nat.le_antisymm hr.1 hbase.1
      · have := h.limit_le_of_covers hx
        simp only [AddressRange.limit] at this
        omega
    refine ⟨hlo, hpos, ih hrest (by simp only [AddressRange.limit] at hlast ⊢; omega) ?_⟩
    intro x
    constructor
    · intro hx
      exact ⟨h.limit_le_of_covers hx, ((hcovers x).mp (covers_cons.mpr (.inr hx))).2⟩
    · rintro ⟨hge, hlt⟩
      have : lo ≤ x := by
        simp only [AddressRange.limit] at hge
        omega
      rcases covers_cons.mp ((hcovers x).mpr ⟨this, hlt⟩) with hr | hx
      · exact absurd hr.2 (Nat.not_lt.mpr hge)
      · exact hx

/-- The tiles of an interval are ascending, from its start on. -/
theorem Tiles.ascending (h : Tiles lo hi ranges) : Ascending ranges ∧ ∀ r ∈ ranges, lo ≤ r.base := by
  induction ranges generalizing lo with
  | nil => exact ⟨ascending_nil, fun _ h => absurd h List.not_mem_nil⟩
  | cons r rest ih =>
    obtain ⟨rfl, hpos, hrest⟩ := h
    obtain ⟨hascending, hbehind⟩ := ih hrest
    refine ⟨ascending_cons.mpr ⟨hpos, hbehind, hascending⟩, ?_⟩
    refine List.forall_mem_cons.mpr ⟨Nat.le_refl _, fun s hs => ?_⟩
    exact Nat.le_trans (Nat.le_add_right _ _) (hbehind s hs)

/-- The lengths of a tiling add up to the interval. -/
theorem Tiles.total (h : Tiles lo hi ranges) : lo + totalLength ranges = hi := by
  induction ranges generalizing lo with
  | nil => simpa only [Tiles, totalLength, List.map_nil, List.sum_nil, Nat.add_zero] using h
  | cons r rest ih =>
    obtain ⟨hbase, -, hrest⟩ := h
    have := ih hrest
    simp only [totalLength, List.map_cons, List.sum_cons] at this ⊢
    simp only [AddressRange.limit] at this
    omega

theorem totalLength_append (first second : List AddressRange) :
    totalLength (first ++ second) = totalLength first + totalLength second := by
  simp only [totalLength, List.map_append, List.sum_append]

theorem totalLength_perm {first second : List AddressRange} (h : first.Perm second) :
    totalLength first = totalLength second :=
  (h.map _).sum_nat

/-! ## Sorting -/

/-- Nonempty ranges of which no two overlap are ascending once sorted. -/
theorem ascending_sort (hpos : ∀ r ∈ ranges, 0 < r.length)
    (hdisjoint : ranges.Pairwise fun r s => r.limit ≤ s.base ∨ s.limit ≤ r.base) :
    Ascending (AddressRange.sort ranges) := by
  have hperm : (AddressRange.sort ranges).Perm ranges := List.mergeSort_perm _ _
  have hsorted : (AddressRange.sort ranges).Pairwise fun r s => r.precedes s = true := by
    refine List.pairwise_mergeSort ?_ ?_ ranges
    · intro a b c hab hbc
      simp only [AddressRange.precedes, Bool.or_eq_true, Bool.and_eq_true, decide_eq_true_eq,
        beq_iff_eq] at hab hbc ⊢
      omega
    · intro a b
      simp only [AddressRange.precedes, Bool.or_eq_true, Bool.and_eq_true, decide_eq_true_eq,
        beq_iff_eq]
      omega
  have hpos' : ∀ r ∈ AddressRange.sort ranges, 0 < r.length :=
    fun r hr => hpos r (hperm.mem_iff.mp hr)
  refine ⟨hpos', ?_⟩
  have hdisjoint' := (hperm.pairwise_iff fun h => h.symm).mpr hdisjoint
  refine (hsorted.and hdisjoint').imp_of_mem fun {r s} _ hs h => ?_
  have := hpos' s hs
  obtain ⟨hprec, hor⟩ := h
  simp only [AddressRange.precedes, Bool.or_eq_true, Bool.and_eq_true, decide_eq_true_eq,
    beq_iff_eq] at hprec
  simp only [AddressRange.limit] at hor ⊢
  omega

end InstanceMemory
