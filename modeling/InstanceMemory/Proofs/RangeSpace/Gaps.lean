import InstanceMemory.Proofs.RangeSpace.FirstFit

/-!
# The holes are the gaps

Which reservations are outstanding settles everything else about a space. `Gap` says of a range, in
terms of the allocated ranges alone, that it is a maximal run of vacant addresses; `gaps` lists
these runs from one end of the space to the other. The holes of a sound space are this list
(`Sound.free_eq_gaps`), so how the space came to its allocated ranges leaves no trace in it.

`SpaceSession.run_history_free` is the account for a space in use: the holes are the maximal gaps
and never touch; any other run that ends with the same ranges outstanding ends with the same holes;
releases commute; a reservation that is taken back at once leaves no trace; and once everything is
taken back the space is as it was created. The releases of several ranges are steps of the session
one after the other (`SpaceSession.releaseAll`), and none of them faults.
-/

set_option autoImplicit false

namespace InstanceMemory

/-- A **gap** between allocated ranges: a run of vacant addresses that lies in no longer one. -/
structure Gap (bounds : AddressRange) (allocated : List AddressRange) (r : AddressRange) :
    Prop where
  positive : 0 < r.length
  vacant : Vacant bounds allocated r.length 1 r.base
  maximal : ∀ start size, Vacant bounds allocated size 1 start → start ≤ r.base →
    r.limit ≤ start + size → start = r.base ∧ size = r.length

/-- What ranges in ascending order leave free from one address to another. -/
def gaps (first stop : Nat) : List AddressRange → List AddressRange
  | [] => Holes.fragment first stop
  | r :: rest => Holes.fragment first r.base ++ gaps r.limit stop rest

variable {ranges : List AddressRange} {first stop : Nat}

/-! ## Listing the gaps -/

theorem length_fragment_le (first stop : Nat) : (Holes.fragment first stop).length ≤ 1 := by
  unfold Holes.fragment
  split
  · exact Nat.le_refl 1
  · exact Nat.zero_le 1

/-- There is at most one gap more than there are ranges. -/
theorem length_gaps_le (first stop : Nat) (ranges : List AddressRange) :
    (gaps first stop ranges).length ≤ ranges.length + 1 := by
  induction ranges generalizing first with
  | nil => exact length_fragment_le first stop
  | cons r rest ih =>
    have hhead := length_fragment_le first r.base
    have hrest := ih r.limit
    rw [gaps, List.length_append, List.length_cons]
    omega

/-- No gap begins before the interval does. -/
theorem le_base_of_mem_gaps (h : Ascending ranges) (hfirst : ∀ r ∈ ranges, first ≤ r.base)
    {gap : AddressRange} (hgap : gap ∈ gaps first stop ranges) : first ≤ gap.base := by
  induction ranges generalizing first with
  | nil =>
    obtain ⟨hbase, -, -⟩ := Holes.mem_fragment.mp hgap
    exact Nat.le_of_eq hbase.symm
  | cons r rest ih =>
    obtain ⟨-, hord, hrest⟩ := ascending_cons.mp h
    rcases List.mem_append.mp hgap with hgap | hgap
    · obtain ⟨hbase, -, -⟩ := Holes.mem_fragment.mp hgap
      exact Nat.le_of_eq hbase.symm
    · have hle : first ≤ r.base := hfirst r List.mem_cons_self
      have hbehind : r.limit ≤ gap.base := ih hrest hord hgap
      exact Nat.le_trans hle (Nat.le_trans (Nat.le_add_right _ _) hbehind)

/-- Gaps never touch: there is a range between any two of them. -/
theorem canonical_gaps (h : Ascending ranges) : Canonical (gaps first stop ranges) := by
  induction ranges generalizing first with
  | nil => exact Holes.canonical_fragment
  | cons r rest ih =>
    obtain ⟨hpos, hord, hrest⟩ := ascending_cons.mp h
    apply Holes.canonical_fragment.append (ih hrest)
    intro before hbefore behind hbehind
    obtain ⟨-, hlimit, -⟩ := Holes.mem_fragment.mp hbefore
    have hbase : r.limit ≤ behind.base := le_base_of_mem_gaps hrest hord hbehind
    rw [hlimit]
    exact Nat.lt_of_lt_of_le (Nat.lt_add_of_pos_right hpos) hbase

/-- The gaps cover what no range does. -/
theorem covers_gaps (h : Ascending ranges) (hle : first ≤ stop)
    (hinside : ∀ r ∈ ranges, first ≤ r.base ∧ r.limit ≤ stop) (x : Nat) :
    Covers (gaps first stop ranges) x ↔ (first ≤ x ∧ x < stop) ∧ ¬ Covers ranges x := by
  induction ranges generalizing first with
  | nil => simp only [gaps, Holes.covers_fragment, covers_nil, not_false_eq_true, and_true]
  | cons r rest ih =>
    obtain ⟨hpos, hord, hrest⟩ := ascending_cons.mp h
    obtain ⟨hbase, hlimit⟩ := hinside r List.mem_cons_self
    have hrestInside : ∀ s ∈ rest, r.limit ≤ s.base ∧ s.limit ≤ stop :=
      fun s hs => ⟨hord s hs, (hinside s (List.mem_cons_of_mem _ hs)).2⟩
    have hbehind : Covers rest x → r.limit ≤ x := fun hx => h.limit_le_of_covers hx
    rw [gaps, covers_append, Holes.covers_fragment, ih hrest hlimit hrestInside, covers_cons]
    simp only [AddressRange.Holds]
    -- an address lies before the range, in it, or behind it, where the other ranges are
    have hwidth : r.base < r.limit := Nat.lt_add_of_pos_right hpos
    by_cases hcovers : Covers rest x
    · have := hbehind hcovers
      simp only [hcovers, not_true_eq_false, and_false, or_true, or_false, iff_false]
      omega
    · simp only [hcovers, not_false_eq_true, and_true, or_false]
      omega

namespace RangeSpace.Sound

variable {space : RangeSpace} {r : AddressRange}

/-! ## The holes of a sound space -/

/-- **The holes are the gaps** that the allocated ranges leave. -/
theorem free_eq_gaps (h : space.Sound) :
    space.free = gaps space.base (space.base + space.length) space.allocated := by
  apply h.holes.ext (canonical_gaps h.allocated)
  intro x
  rw [h.free_iff, covers_gaps h.allocated (Nat.le_add_right _ _) fun r hr => h.range_inside hr]

/-- All of a hole is vacant. -/
theorem vacant_of_mem (h : space.Sound) (hr : r ∈ space.free) :
    Vacant space.bounds space.allocated r.length 1 r.base :=
  (h.vacant_iff_fits (h.holes.positive r hr)).mpr
    ⟨r, hr, Nat.one_dvd _, Nat.le_refl _, Nat.le_refl _⟩

/-- **A range is a hole exactly if it is a maximal gap.** -/
theorem mem_free_iff_gap (h : space.Sound) :
    r ∈ space.free ↔ Gap space.bounds space.allocated r := by
  constructor
  · intro hr
    have hpos := h.holes.positive r hr
    refine ⟨hpos, h.vacant_of_mem hr, ?_⟩
    intro start size hvacant hstart hlimit
    have hsize : 0 < size := by
      simp only [AddressRange.limit] at hlimit
      omega
    obtain ⟨hole, hhole, hfits⟩ := (h.vacant_iff_fits hsize).mp hvacant
    have hbase := hfits.base_le
    have hend := hfits.le_limit
    -- the hole around the longer run shares an address with the range, so it is the range
    obtain rfl : r = hole := by
      apply h.holes.ascending.eq_of_holds hr hhole (r.holds_base hpos)
      have := Nat.lt_add_of_pos_right (n := r.base) hpos
      exact ⟨Nat.le_trans hbase hstart, Nat.lt_of_lt_of_le this (Nat.le_trans hlimit hend)⟩
    simp only [AddressRange.limit] at hlimit hend
    omega
  · rintro ⟨hpos, hvacant, hmaximal⟩
    obtain ⟨hole, hhole, hfits⟩ := (h.vacant_iff_fits hpos).mp hvacant
    obtain ⟨hbase, hlength⟩ :=
      hmaximal _ _ (h.vacant_of_mem hhole) hfits.base_le hfits.le_limit
    obtain ⟨base, length⟩ := hole
    dsimp only at hbase hlength
    subst hbase hlength
    exact hhole

/-- Two sound spaces of the same bounds with the same ranges outstanding have the same holes. -/
theorem free_eq {other : RangeSpace} (h : space.Sound) (ho : other.Sound)
    (hbase : other.base = space.base) (hlength : other.length = space.length)
    (hallocated : ∀ r, r ∈ other.allocated ↔ r ∈ space.allocated) :
    other.allocated = space.allocated ∧ other.free = space.free := by
  have hperm : other.allocated.Perm space.allocated :=
    (List.perm_ext_iff_of_nodup ho.allocated.nodup h.allocated.nodup).mpr hallocated
  have heq := ho.allocated.eq_of_perm h.allocated hperm
  refine ⟨heq, ?_⟩
  rw [ho.free_eq_gaps, h.free_eq_gaps, heq, hbase, hlength]

end RangeSpace.Sound

/-! ## Releasing several ranges -/

namespace SpaceSession

variable {session : SpaceSession}

/-- The session after the releases of some ranges, one after the other. -/
def releaseAll : List AddressRange → SpaceSession → Except Fault SpaceSession
  | [], session => .ok session
  | range :: rest, session => do releaseAll rest (← session.release range)

/-- Releases of outstanding ranges are all answered, and take exactly these ranges back. -/
theorem releaseAll_of_subset {order : List AddressRange} (hsound : session.space.Sound)
    (hnodup : order.Nodup) (hout : ∀ r ∈ order, r ∈ session.space.allocated) :
    ∃ next, releaseAll order session = .ok { session with space := next } ∧ next.Sound ∧
      next.emptied = session.space.emptied ∧
      next.allocated = session.space.allocated.diff order := by
  induction order generalizing session with
  | nil => exact ⟨session.space, rfl, hsound, rfl, rfl⟩
  | cons range rest ih =>
    obtain ⟨hrange, hrest⟩ := List.forall_mem_cons.mp hout
    obtain ⟨hnot, hnodup⟩ := List.nodup_cons.mp hnodup
    obtain ⟨between, hrelease, hbetween, hemptied, hallocated⟩ :=
      hsound.release hrange session.journal
    have hstep : session.release range = .ok { session with space := between } := by
      simp only [release, hrelease, ok_bind]
      rfl
    have hleft : ∀ r ∈ rest, r ∈ between.allocated := by
      intro r hr
      have hne : r ≠ range := fun heq => hnot (heq ▸ hr)
      rw [hallocated]
      exact (List.mem_erase_of_ne hne).mpr (hrest r hr)
    obtain ⟨next, hall, hnext, hnextEmptied, hnextAllocated⟩ :=
      @ih { session with space := between } hbetween hnodup hleft
    refine ⟨next, ?_, hnext, hnextEmptied.trans hemptied, ?_⟩
    · rw [releaseAll, hstep, ok_bind, hall]
    · rw [hnextAllocated, hallocated, List.diff_cons]

/-- **Releases commute**: in another order they lead to the same session. -/
theorem releaseAll_comm {order other : List AddressRange} (hsound : session.space.Sound)
    (hnodup : order.Nodup) (hout : ∀ r ∈ order, r ∈ session.space.allocated)
    (hperm : other.Perm order) : releaseAll other session = releaseAll order session := by
  obtain ⟨next, hnext, hs, hemptied, hallocated⟩ := releaseAll_of_subset hsound hnodup hout
  obtain ⟨next', hnext', hs', hemptied', hallocated'⟩ := releaseAll_of_subset hsound
    (hperm.nodup_iff.mpr hnodup) fun r hr => hout r (hperm.mem_iff.mp hr)
  have heq : next' = next := by
    apply hs.eq_of_perm hs' (hemptied'.trans hemptied.symm)
    rw [hallocated, hallocated', hperm.diff_left]
  rw [hnext, hnext', heq]

/-- **A reservation that is taken back at once leaves no trace** in the space or the journal. -/
theorem release_reserved {size align : Nat} {range : AddressRange} {next : SpaceSession}
    (hsound : session.space.Sound)
    (hreserve : session.step (.reserve size align) = .ok (.range range, next)) :
    next.step (.release range) = .ok (.nothing, { next with space := session.space }) ∧
      next.journal = session.journal := by
  obtain ⟨answer, hanswer, hreserved⟩ := hsound.reserve size align
  cases answer with
  | error cause =>
    simp only [step, hanswer, ok_bind] at hreserve
    cases hreserve
  | ok granted =>
    obtain ⟨granted, between⟩ := granted
    obtain ⟨hbetween, hemptied, hperm, -⟩ := hreserved.granted_spec hsound
    simp only [step, hanswer, ok_bind] at hreserve
    cases hreserve
    have hmem : range ∈ between.allocated := hperm.mem_iff.mpr List.mem_cons_self
    obtain ⟨last, hlast, hlastSound, hlastEmptied, hallocated⟩ :=
      hbetween.release hmem session.journal
    have hback : last = session.space := by
      apply hsound.eq_of_perm hlastSound (hlastEmptied.trans hemptied)
      rw [hallocated]
      have := hperm.erase range
      rwa [List.erase_cons_head] at this
    refine ⟨?_, rfl⟩
    simp only [step, release, hlast, hback, ok_bind]
    rfl

end SpaceSession

/-- A session whose space keeps nothing of its history but the ranges outstanding, in the bounds of
the space that it began with. -/
structure HistoryFree (initial : RangeSpace) (session : SpaceSession) : Prop where
  /-- No hole touches the next. -/
  apart : session.space.free.Pairwise fun r s => r.limit < s.base
  gap_iff : ∀ r, r ∈ session.space.free ↔ Gap initial.bounds session.space.allocated r
  count : session.space.free.length ≤ session.space.allocated.length + 1
  /-- Any other run in the same bounds that ends with the same ranges outstanding ends with the same
  holes. -/
  history : ∀ (name : String) (granularity : Nat) (space : RangeSpace) (journalOpen : Bool)
    (steps : List SpaceStep),
    RangeSpace.create name initial.base initial.length granularity = .ok space →
    (∀ r, r ∈ (SpaceSession.run steps (.start space journalOpen, [])).1.space.allocated ↔
      r ∈ session.space.allocated) →
    (SpaceSession.run steps (.start space journalOpen, [])).1.space.free = session.space.free
  /-- Releases of outstanding ranges are answered, whatever their order, and lead to one session. -/
  commute : ∀ order : List AddressRange, order.Nodup →
    (∀ r ∈ order, r ∈ session.space.allocated) →
    ∃ next, SpaceSession.releaseAll order session = .ok { session with space := next } ∧
      next.allocated = session.space.allocated.diff order ∧
      ∀ other, other.Perm order →
        SpaceSession.releaseAll other session = .ok { session with space := next }
  undone : ∀ size align range next,
    session.step (.reserve size align) = .ok (.range range, next) →
    next.step (.release range) = .ok (.nothing, { next with space := session.space }) ∧
      next.journal = session.journal
  /-- Once everything is taken back, the space is as it was created. -/
  restored : ∀ order : List AddressRange, order.Perm session.space.allocated →
    SpaceSession.releaseAll order session = .ok { session with space := initial }

namespace SpaceSession

/-- **A space in use has no history**: after any steps on a space that was created, the holes are
exactly the maximal gaps between the allocated ranges, in order and without touching, so they are
those of any other run that ends with the same ranges outstanding; releases commute; a reservation
taken back at once is undone; and releasing everything leaves the one hole of the beginning. -/
theorem run_history_free {name : String} {base length granularity : Nat} {initial : RangeSpace}
    (h : RangeSpace.create name base length granularity = .ok initial) (journalOpen : Bool)
    (steps : List SpaceStep) :
    initial.free = [⟨base, length⟩] ∧ initial.allocated = [] ∧
      HistoryFree initial (run steps (start initial journalOpen, [])).1 := by
  obtain ⟨rfl, hcreated⟩ := RangeSpace.create_eq_ok h
  have hstart : Balanced _ (start _ journalOpen) [] := ⟨hcreated, rfl, List.Perm.refl _⟩
  obtain ⟨hsound, hemptied, -⟩ := hstart.run steps
  generalize (run steps (start _ journalOpen, [])).1 = session at hsound hemptied ⊢
  have hbase : session.space.base = base := congrArg (·.base) hemptied
  have hlength : session.space.length = length := congrArg (·.length) hemptied
  have hbounds : session.space.bounds = ⟨base, length⟩ := congrArg RangeSpace.bounds hemptied
  refine ⟨rfl, rfl, ?_⟩
  constructor
  · exact hsound.holes.apart
  · intro r
    rw [hsound.mem_free_iff_gap, hbounds]
    rfl
  · rw [hsound.free_eq_gaps]
    exact length_gaps_le _ _ _
  · intro name' granularity' space journalOpen' steps' hcreate hallocated
    obtain ⟨rfl, hcreated'⟩ := RangeSpace.create_eq_ok hcreate
    have hstart' : Balanced _ (start _ journalOpen') [] := ⟨hcreated', rfl, List.Perm.refl _⟩
    obtain ⟨hsound', hemptied', -⟩ := hstart'.run steps'
    have hbase' := congrArg (·.base) hemptied'
    have hlength' := congrArg (·.length) hemptied'
    exact (hsound.free_eq hsound' (hbase'.trans hbase.symm) (hlength'.trans hlength.symm)
      hallocated).2
  · intro order hnodup hout
    obtain ⟨next, hnext, -, -, hallocated⟩ := releaseAll_of_subset hsound hnodup hout
    exact ⟨next, hnext, hallocated, fun other hperm =>
      (releaseAll_comm hsound hnodup hout hperm).trans hnext⟩
  · intro size align range next hreserve
    exact release_reserved hsound hreserve
  · intro order hperm
    obtain ⟨next, hnext, hnextSound, hnextEmptied, hallocated⟩ := releaseAll_of_subset hsound
      (hperm.nodup_iff.mpr hsound.allocated.nodup) fun r hr => hperm.mem_iff.mp hr
    have hback : next = ⟨name, base, length, granularity, [⟨base, length⟩], []⟩ := by
      apply hcreated.eq_of_perm hnextSound (hnextEmptied.trans hemptied)
      rw [hallocated, List.perm_nil, List.eq_nil_iff_forall_not_mem]
      intro r hr
      obtain ⟨hmem, hnot⟩ := hsound.allocated.nodup.mem_sdiff_iff.mp hr
      exact hnot (hperm.mem_iff.mpr hmem)
    rw [hnext, hback]

/-- Of four pages the first and the third are held after the second was taken back. -/
theorem run_history_free_two_holes :
    let space : RangeSpace := ⟨"heap", 0x8000, 0x4000, 0x1000, [⟨0x8000, 0x4000⟩], []⟩
    let steps : List SpaceStep := [.reserve 1 0, .reserve 1 0, .reserve 1 0, .releaseMade 1]
    RangeSpace.create "heap" 0x8000 0x4000 0x1000 = .ok space ∧
      (run steps (start space true, [])).1.space.free = [⟨0x9000, 0x1000⟩, ⟨0xb000, 0x1000⟩] ∧
      HistoryFree space (run steps (start space true, [])).1 :=
  have hcreate : RangeSpace.create "heap" 0x8000 0x4000 0x1000 =
      .ok ⟨"heap", 0x8000, 0x4000, 0x1000, [⟨0x8000, 0x4000⟩], []⟩ := by decide +kernel
  ⟨hcreate, by decide +kernel, (run_history_free hcreate true _).2.2⟩

end SpaceSession
end InstanceMemory
