import InstanceMemory.Proofs.Alignment
import InstanceMemory.Proofs.Fault
import InstanceMemory.Proofs.RangeSpace.Covering
import InstanceMemory.RangeSpace.Holes

/-!
# Taking from holes and giving back

`Holes.take` and `Holes.insert` on canonical lists of holes, said through the addresses the lists
cover. Neither faults where the holes end below the address limit. `insert_spec`: giving a range
back covers what was covered and the range. `take_spec`: a request is refused only if it fits in no
hole; a granted one starts at the least address at which it fits, and the left holes cover what was
covered without it. Both keep the list canonical, which is where joining and splitting are correct.
-/

set_option autoImplicit false

namespace InstanceMemory

/-- Every range starts at a multiple of the granularity and has a multiple of it as its length. -/
def OnGrid (granularity : Nat) (ranges : List AddressRange) : Prop :=
  ∀ r ∈ ranges, granularity ∣ r.base ∧ granularity ∣ r.length

namespace Holes

variable {hole : AddressRange} {free above left : List AddressRange}
variable {base length size align start granularity : Nat}

/-! ## Giving back -/

/-- A range in front of holes is put there, joined with the first of them if they touch. -/
theorem joinNext_spec (hc : Canonical above) (hlim : ∀ r ∈ above, r.limit < addressLimit)
    (hpos : 0 < length) (hlt : base + length < addressLimit)
    (habove : ∀ r ∈ above, base + length ≤ r.base) :
    ∃ out, joinNext base length above = .ok out ∧ Canonical out ∧
      ∀ x, Covers out x ↔ (base ≤ x ∧ x < base + length) ∨ Covers above x := by
  cases above with
  | nil =>
    refine ⟨[⟨base, length⟩], ?_, ?_, fun x => covers_cons⟩
    · rw [joinNext, checkedAdd_of_lt hlt]
      rfl
    · exact canonical_cons.mpr ⟨hpos, fun _ h => absurd h List.not_mem_nil, canonical_nil⟩
  | cons hole rest =>
    obtain ⟨hhole, hrest, hcrest⟩ := canonical_cons.mp hc
    have hle := habove hole List.mem_cons_self
    have hholeLim : hole.base + hole.length < addressLimit := hlim hole List.mem_cons_self
    by_cases htouch : hole.base = base + length
    · refine ⟨⟨base, length + hole.length⟩ :: rest, ?_, ?_, ?_⟩
      · have hsum : length + hole.length < addressLimit := by omega
        rw [joinNext, checkedAdd_of_lt hlt, ok_bind]
        simp only [htouch, ↓reduceIte, checkedAdd_of_lt hsum]
        rfl
      · refine canonical_cons.mpr ⟨Nat.add_pos_left hpos _, ?_, hcrest⟩
        intro s hs
        have := hrest s hs
        simp only [AddressRange.limit] at this ⊢
        omega
      · intro x
        simp only [covers_cons, AddressRange.Holds, AddressRange.limit, ← or_assoc]
        apply or_congr_left
        omega
    · refine ⟨⟨base, length⟩ :: hole :: rest, ?_, ?_, fun x => covers_cons⟩
      · rw [joinNext, checkedAdd_of_lt hlt, ok_bind]
        simp only [htouch, ↓reduceIte]
        rfl
      · refine canonical_cons.mpr ⟨hpos, ?_, hc⟩
        intro s hs
        rcases List.mem_cons.mp hs with rfl | hs
        · simp only [AddressRange.limit]
          omega
        · have := hrest s hs
          simp only [AddressRange.limit] at this ⊢
          omega

/-- **Giving a range back covers it again** and nothing else, whatever it touches. -/
theorem insert_spec (hc : Canonical free) (hlim : ∀ r ∈ free, r.limit < addressLimit)
    (hpos : 0 < length) (hlt : base + length < addressLimit)
    (hfree : ∀ x, base ≤ x → x < base + length → ¬ Covers free x) :
    ∃ out, insert base length free = .ok out ∧ Canonical out ∧
      ∀ x, Covers out x ↔ (base ≤ x ∧ x < base + length) ∨ Covers free x := by
  induction free with
  | nil => exact joinNext_spec canonical_nil hlim hpos hlt (fun _ h => absurd h List.not_mem_nil)
  | cons hole rest ih =>
    have ⟨hhole, hrest, hcrest⟩ := canonical_cons.mp hc
    have hlimRest : ∀ r ∈ rest, r.limit < addressLimit :=
      fun r hr => hlim r (List.mem_cons_of_mem _ hr)
    have hholeLim := hlim hole List.mem_cons_self
    have hfreeRest : ∀ x, base ≤ x → x < base + length → ¬ Covers rest x :=
      fun x hle hlt hx => hfree x hle hlt (covers_cons.mpr (.inr hx))
    have hside (r : AddressRange) (hr : r ∈ hole :: rest) :
        r.limit ≤ base ∨ base + length ≤ r.base :=
      AddressRange.before_or_behind (r := ⟨base, length⟩) hpos (hc.positive r hr)
        fun x hx hrx => hfree x hx.1 hx.2 ⟨r, hr, hrx⟩
    rw [insert]
    by_cases hbelow : hole.base < base
    · have hbefore : hole.limit ≤ base := by
        rcases hside hole List.mem_cons_self with h | h <;> omega
      simp only [hbelow, ↓reduceIte, AddressRange.stop_eq hholeLim, ok_bind]
      by_cases htouch : hole.limit = base
      · -- the range begins where the hole ends: the two are joined before the next hole is looked at
        have hsum : length + hole.length < addressLimit := by
          simp only [AddressRange.limit] at htouch
          omega
        have hstop : hole.base + (length + hole.length) = base + length := by
          simp only [AddressRange.limit] at htouch
          omega
        have habove : ∀ r ∈ rest, hole.base + (length + hole.length) ≤ r.base := by
          intro r hr
          have := hrest r hr
          have hpos' := hcrest.positive r hr
          rcases hside r (List.mem_cons_of_mem _ hr) with h | h
          · simp only [AddressRange.limit] at h this htouch
            omega
          · omega
        obtain ⟨out, hout, hcout, hcov⟩ := joinNext_spec hcrest hlimRest
          (Nat.add_pos_left hpos hole.length) (hstop ▸ hlt) habove
        refine ⟨out, ?_, hcout, ?_⟩
        · simp only [htouch, ↓reduceIte, checkedAdd_of_lt hsum, ok_bind, hout]
        · intro x
          rw [hcov, covers_cons, ← or_assoc]
          apply or_congr_left
          simp only [AddressRange.Holds, AddressRange.limit] at htouch ⊢
          omega
      · obtain ⟨out, hout, hcout, hcov⟩ := ih hcrest hlimRest hfreeRest
        refine ⟨hole :: out, ?_, Canonical.cons hhole hcout ?_, ?_⟩
        · simp only [htouch, ↓reduceIte, hout, ok_bind]
          rfl
        · intro x hx
          rcases (hcov x).mp hx with h | h
          · omega
          · exact hc.limit_lt_of_covers h
        · intro x
          rw [covers_cons, hcov, covers_cons, or_left_comm]
    · have hbehind (r : AddressRange) (hr : r ∈ hole :: rest) : base + length ≤ r.base := by
        rcases hside r hr with h | h
        · have := hc.base_le_of_covers (covers_base hr (hc.positive r hr))
          have hpos' := hc.positive r hr
          simp only [AddressRange.limit] at h
          omega
        · exact h
      simp only [hbelow, ↓reduceIte]
      exact joinNext_spec hc hlim hpos hlt hbehind

/-! ## The grid -/

theorem onGrid_cons {ranges : List AddressRange} :
    OnGrid granularity (hole :: ranges) ↔
      (granularity ∣ hole.base ∧ granularity ∣ hole.length) ∧ OnGrid granularity ranges :=
  List.forall_mem_cons

/-- Joining keeps the ranges on the grid. -/
theorem onGrid_joinNext (h : joinNext base length above = .ok left)
    (habove : OnGrid granularity above) (hbase : granularity ∣ base)
    (hlength : granularity ∣ length) : OnGrid granularity left := by
  obtain ⟨stop, -, h⟩ := bind_eq_ok.mp h
  cases above with
  | nil =>
    cases h
    exact onGrid_cons.mpr ⟨⟨hbase, hlength⟩, habove⟩
  | cons hole rest =>
    have ⟨hhole, hrest⟩ := onGrid_cons.mp habove
    dsimp only at h
    split at h
    · obtain ⟨sum, hsum, h⟩ := bind_eq_ok.mp h
      cases h
      rw [(checkedAdd_eq_ok_iff.mp hsum).1]
      exact onGrid_cons.mpr ⟨⟨hbase, Nat.dvd_add hlength hhole.2⟩, hrest⟩
    · cases h
      exact onGrid_cons.mpr ⟨⟨hbase, hlength⟩, habove⟩

/-- Giving a range on the grid back keeps the holes on the grid. -/
theorem onGrid_insert (h : insert base length free = .ok left) (hfree : OnGrid granularity free)
    (hbase : granularity ∣ base) (hlength : granularity ∣ length) : OnGrid granularity left := by
  induction free generalizing left with
  | nil => exact onGrid_joinNext h hfree hbase hlength
  | cons hole rest ih =>
    have ⟨hhole, hrest⟩ := onGrid_cons.mp hfree
    rw [insert] at h
    split at h
    · obtain ⟨stop, -, h⟩ := bind_eq_ok.mp h
      split at h
      · obtain ⟨sum, hsum, h⟩ := bind_eq_ok.mp h
        rw [(checkedAdd_eq_ok_iff.mp hsum).1] at h
        exact onGrid_joinNext h hrest hhole.1 (Nat.dvd_add hlength hhole.2)
      · obtain ⟨out, hout, h⟩ := bind_eq_ok.mp h
        cases h
        exact onGrid_cons.mpr ⟨hhole, ih hout hrest⟩
    · exact onGrid_joinNext h hfree hbase hlength

/-! ## First fit -/

/-- A start from which a request lies in a hole, aligned. -/
structure Fits (size align : Nat) (hole : AddressRange) (start : Nat) : Prop where
  dvd : align ∣ start
  base_le : hole.base ≤ start
  le_limit : start + size ≤ hole.limit

/-- The least start in a hole, if the request fits in the hole at all. -/
theorem startIn_spec (size : Nat) (halign : 0 < align) (hlim : hole.limit < addressLimit) :
    (startIn size align hole = .ok none ∧ ∀ s, ¬ Fits size align hole s) ∨
      ∃ start, startIn size align hole = .ok (some start) ∧ Fits size align hole start ∧
        ∀ s, Fits size align hole s → start ≤ s := by
  unfold startIn
  cases hnext : nextMultiple? hole.base align with
  | none =>
    refine .inl ⟨rfl, ?_⟩
    intro s hs
    have := (nextMultiple?_eq_none_iff halign).mp hnext s hs.dvd hs.base_le
    have := hs.le_limit
    omega
  | some start =>
    obtain ⟨-, hleast, -⟩ := nextMultiple?_eq_some_iff.mp hnext
    by_cases hfits : start + size ≤ hole.limit
    · refine .inr ⟨start, ?_, ⟨hleast.dvd, hleast.le, hfits⟩, ?_⟩
      · have hlt : start + size < addressLimit := Nat.lt_of_le_of_lt hfits hlim
        simp only [hlt, ↓reduceIte, AddressRange.stop_eq hlim, ok_bind, hfits]
        rfl
      · intro s hs
        exact hleast.least s hs.dvd hs.base_le
    · refine .inl ⟨?_, ?_⟩
      · dsimp only
        split
        · simp only [AddressRange.stop_eq hlim, ok_bind, hfits, ↓reduceIte]
          rfl
        · rfl
      · intro s hs
        have := hleast.least s hs.dvd hs.base_le
        have := hs.le_limit
        omega

/-- The range from one address to another, if that is not empty. -/
def fragment (first stop : Nat) : List AddressRange :=
  if first < stop then [⟨first, stop - first⟩] else []

theorem remainder_eq_fragments (stop : Nat) :
    remainder hole stop start size = fragment hole.base start ++ fragment (start + size) stop :=
  rfl

theorem mem_fragment {r : AddressRange} {first stop : Nat} :
    r ∈ fragment first stop ↔ r.base = first ∧ r.limit = stop ∧ first < stop := by
  obtain ⟨b, l⟩ := r
  unfold fragment
  by_cases h : first < stop
  · simp only [h, ↓reduceIte, List.mem_singleton, AddressRange.mk.injEq, AddressRange.limit,
      and_true]
    omega
  · simp only [h, ↓reduceIte, List.not_mem_nil, and_false]

theorem covers_fragment {first stop x : Nat} :
    Covers (fragment first stop) x ↔ first ≤ x ∧ x < stop := by
  constructor
  · rintro ⟨r, hr, hle, hlt⟩
    obtain ⟨rfl, rfl, -⟩ := mem_fragment.mp hr
    exact ⟨hle, hlt⟩
  · rintro ⟨hle, hlt⟩
    refine ⟨⟨first, stop - first⟩, mem_fragment.mpr ⟨rfl, ?_, by omega⟩, hle, ?_⟩ <;>
      (simp only [AddressRange.limit]; omega)

theorem canonical_fragment {first stop : Nat} : Canonical (fragment first stop) := by
  unfold fragment
  split
  · exact canonical_cons.mpr
      ⟨by dsimp only; omega, fun s hs => absurd hs List.not_mem_nil, canonical_nil⟩
  · exact canonical_nil

/-- What is left of a hole covers the hole without the request. -/
theorem covers_remainder (hbase : hole.base ≤ start) (hle : start + size ≤ hole.limit) (x : Nat) :
    Covers (remainder hole hole.limit start size) x ↔
      hole.Holds x ∧ ¬ (start ≤ x ∧ x < start + size) := by
  rw [remainder_eq_fragments, covers_append, covers_fragment, covers_fragment]
  simp only [AddressRange.Holds]
  omega

/-- What is left of a hole is canonical, for a request that is not empty. -/
theorem canonical_remainder (hsize : 0 < size) (stop : Nat) :
    Canonical (remainder hole stop start size) := by
  apply canonical_fragment.append canonical_fragment
  intro r hr s hs
  obtain ⟨-, hr, -⟩ := mem_fragment.mp hr
  obtain ⟨hs, -, -⟩ := mem_fragment.mp hs
  omega

/-- What is left of a hole ends no later than the hole. -/
theorem limit_le_of_mem_remainder {r : AddressRange} (hle : start + size ≤ hole.limit)
    (hr : r ∈ remainder hole hole.limit start size) : r.limit ≤ hole.limit := by
  rcases List.mem_append.mp hr with hr | hr
  · obtain ⟨-, hr, -⟩ := mem_fragment.mp hr
    omega
  · obtain ⟨-, hr, -⟩ := mem_fragment.mp hr
    omega

/-- What a request leaves of holes when it is taken from a start on. -/
structure Taken (size align : Nat) (free : List AddressRange) (start : Nat)
    (left : List AddressRange) : Prop where
  fits : ∃ hole ∈ free, Fits size align hole start
  /-- No hole holds the request from a lower address on. -/
  least : ∀ hole ∈ free, ∀ s, Fits size align hole s → start ≤ s
  canonical : Canonical left
  covers : ∀ x, Covers left x ↔ Covers free x ∧ ¬ (start ≤ x ∧ x < start + size)

/-- **First fit is exact**: a request is refused only if it fits nowhere, and is granted at the
least address where it fits. -/
theorem take_spec (hc : Canonical free) (hlim : ∀ r ∈ free, r.limit < addressLimit)
    (halign : 0 < align) (hsize : 0 < size) :
    (take size align free = .ok none ∧ ∀ hole ∈ free, ∀ s, ¬ Fits size align hole s) ∨
      ∃ start left, take size align free = .ok (some (start, left)) ∧
        Taken size align free start left := by
  induction free with
  | nil => exact .inl ⟨rfl, fun _ h => absurd h List.not_mem_nil⟩
  | cons hole rest ih =>
    have ⟨hhole, hrest, hcrest⟩ := canonical_cons.mp hc
    have hholeLim := hlim hole List.mem_cons_self
    -- whatever fits behind the head starts behind all of it
    have hbehind : ∀ r ∈ rest, ∀ s, Fits size align r s → hole.limit ≤ s := by
      intro r hr s hs
      exact Nat.le_trans (Nat.le_of_lt (hrest r hr)) hs.base_le
    rw [take]
    rcases startIn_spec size halign hholeLim with ⟨hnone, hno⟩ | ⟨start, hsome, hfits, hleast⟩
    · simp only [hnone, ok_bind]
      rcases ih hcrest fun r hr => hlim r (List.mem_cons_of_mem _ hr) with
        ⟨hrestNone, hrestNo⟩ | ⟨start, left, hrestSome, htaken⟩
      · refine .inl ⟨?_, List.forall_mem_cons.mpr ⟨hno, hrestNo⟩⟩
        simp only [hrestNone, ok_bind]
        rfl
      · refine .inr ⟨start, hole :: left, ?_, ?_⟩
        · simp only [hrestSome, ok_bind]
          rfl
        · obtain ⟨r, hr, hfits⟩ := htaken.fits
          have hstart := hbehind r hr start hfits
          refine ⟨⟨r, List.mem_cons_of_mem _ hr, hfits⟩, ?_, ?_, ?_⟩
          · exact List.forall_mem_cons.mpr
              ⟨fun s hs => absurd hs (hno s), htaken.least⟩
          · exact Canonical.cons hhole htaken.canonical fun x hx =>
              hc.limit_lt_of_covers ((htaken.covers x).mp hx).1
          · intro x
            rw [covers_cons, covers_cons, htaken.covers, or_and_right]
            refine or_congr_left ⟨fun h => ⟨h, ?_⟩, fun h => h.1⟩
            have := h.2
            omega
    · refine .inr ⟨start, remainder hole hole.limit start size ++ rest, ?_, ?_⟩
      · simp only [hsome, ok_bind, AddressRange.stop_eq hholeLim]
        rfl
      · have hle := hfits.le_limit
        refine ⟨⟨hole, List.mem_cons_self, hfits⟩, ?_, ?_, ?_⟩
        · refine List.forall_mem_cons.mpr ⟨hleast, ?_⟩
          intro r hr s hs
          have := hbehind r hr s hs
          omega
        · apply (canonical_remainder hsize _).append hcrest
          intro r hr s hs
          exact Nat.lt_of_le_of_lt (limit_le_of_mem_remainder hle hr) (hrest s hs)
        · intro x
          rw [covers_append, covers_cons, covers_remainder hfits.base_le hle, or_and_right]
          refine or_congr_right ⟨fun h => ⟨h, ?_⟩, fun h => h.1⟩
          have := hc.limit_lt_of_covers h
          omega

theorem onGrid_append {first second : List AddressRange} :
    OnGrid granularity (first ++ second) ↔
      OnGrid granularity first ∧ OnGrid granularity second :=
  List.forall_mem_append

theorem onGrid_fragment {first stop : Nat} (hfirst : granularity ∣ first)
    (hstop : granularity ∣ stop) : OnGrid granularity (fragment first stop) := by
  intro r hr
  obtain ⟨rfl, hlimit, -⟩ := mem_fragment.mp hr
  refine ⟨hfirst, (Nat.dvd_add_right hfirst).mp ?_⟩
  rwa [← hlimit] at hstop

/-- Taking a request on the grid leaves the holes on the grid. -/
theorem onGrid_take (h : take size align free = .ok (some (start, left)))
    (hfree : OnGrid granularity free) (hstart : granularity ∣ start)
    (hsize : granularity ∣ size) : OnGrid granularity left := by
  induction free generalizing left with
  | nil => cases h
  | cons hole rest ih =>
    have ⟨hhole, hrest⟩ := onGrid_cons.mp hfree
    obtain ⟨found, -, h⟩ := bind_eq_ok.mp h
    cases found with
    | some first =>
      obtain ⟨stop, hstop, h⟩ := bind_eq_ok.mp h
      cases h
      rw [(AddressRange.stop_eq_ok_iff.mp hstop).1]
      refine onGrid_append.mpr ⟨onGrid_append.mpr ⟨?_, ?_⟩, hrest⟩
      · exact onGrid_fragment hhole.1 hstart
      · exact onGrid_fragment (Nat.dvd_add hstart hsize) (Nat.dvd_add hhole.1 hhole.2)
    | none =>
      obtain ⟨taken, htaken, h⟩ := bind_eq_ok.mp h
      cases taken with
      | none => cases h
      | some taken =>
        cases h
        exact onGrid_cons.mpr ⟨hhole, ih htaken hrest⟩

end Holes
end InstanceMemory
