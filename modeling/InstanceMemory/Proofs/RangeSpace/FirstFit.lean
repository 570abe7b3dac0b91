import InstanceMemory.Proofs.RangeSpace.Partition
import Mathlib.Order.Bounds.Defs

/-!
# Reservations are exact

A reservation is asked for an alignment and a size. `Vacant` says, in numbers without bound and
without a word about holes, that it could be made from some start: the start is aligned, and the
addresses from it on lie in the space and meet no allocated range. The holes are the maximal gaps, so
an interval without an allocated address lies in one of them (`Sound.vacant_iff_fits`), and looking
through the holes in order misses no start.

`SpaceSession.reserve_first_fit` is the account for a space in use: a reservation succeeds if and only
if some start is vacant, it is then made at the **least** vacant start, and otherwise it is refused for
want of address space and the session stays as it is.
-/

set_option autoImplicit false

namespace InstanceMemory

/-- From a start on, a request is aligned, lies in the space, and meets no allocated range. -/
structure Vacant (bounds : AddressRange) (allocated : List AddressRange) (size align start : Nat) :
    Prop where
  dvd : align ∣ start
  base_le : bounds.base ≤ start
  le_limit : start + size ≤ bounds.limit
  free : ∀ x, start ≤ x → x < start + size → ¬ Covers allocated x

namespace RangeSpace.Sound

variable {space : RangeSpace} {size align start rounded : Nat}

/-- **A start is vacant exactly if the request fits in a hole from there on.** -/
theorem vacant_iff_fits (h : space.Sound) (hsize : 0 < size) :
    Vacant space.bounds space.allocated size align start ↔
      ∃ hole ∈ space.free, Holes.Fits size align hole start := by
  constructor
  · rintro ⟨hdvd, hbase, hlimit, hfree⟩
    have hcovers : ∀ x, start ≤ x → x < start + size → Covers space.free x := by
      intro x hle hlt
      exact (h.free_iff x).mpr
        ⟨⟨Nat.le_trans hbase hle, Nat.lt_of_lt_of_le hlt hlimit⟩, hfree x hle hlt⟩
    obtain ⟨hole, hhole, hle, hge⟩ :=
      h.holes.exists_of_covers_interval (Nat.lt_add_of_pos_right hsize) hcovers
    exact ⟨hole, hhole, hdvd, hle, hge⟩
  · rintro ⟨hole, hhole, hdvd, hbase, hlimit⟩
    obtain ⟨hlow, hhigh⟩ := h.hole_limit hhole
    refine ⟨hdvd, Nat.le_trans hlow hbase, Nat.le_trans hlimit hhigh, ?_⟩
    intro x hle hlt
    exact ((h.free_iff x).mp
      ⟨hole, hhole, Nat.le_trans hbase hle, Nat.lt_of_lt_of_le hlt hlimit⟩).2

/-- No start is vacant for more than an address can count. -/
theorem not_vacant_of_addressLimit_le (h : space.Sound) (hsize : addressLimit ≤ size) :
    ¬ Vacant space.bounds space.allocated size align start := by
  intro hvacant
  have hlimit : start + size ≤ space.base + space.length := hvacant.le_limit
  have := h.limit
  omega

/-- **First fit in a sound space**: a reservation is made at the least vacant start, or no start is
vacant and there is no address space for it. -/
theorem reserve_least (h : space.Sound) (hsize : 0 < size)
    (hpow : (max align space.granularity).isPowerOfTwo)
    (hrounded : LeastMultiple size space.granularity rounded) :
    (∃ start next, space.reserve size align = .ok (.ok (⟨start, rounded⟩, next)) ∧
      IsLeast {s | Vacant space.bounds space.allocated rounded (max align space.granularity) s}
        start) ∨
    space.reserve size align = .ok (.error (.outOfAddressSpace
        (if rounded < addressLimit then rounded else size) (max align space.granularity))) ∧
      ∀ s, ¬ Vacant space.bounds space.allocated rounded (max align space.granularity) s := by
  have hpos : 0 < rounded := Nat.lt_of_lt_of_le hsize hrounded.le
  obtain ⟨answer, hanswer, hreserved⟩ := h.reserve size align
  cases hreserved with
  | empty hempty => exact absurd hempty (Nat.ne_of_gt hsize)
  | misaligned _ hmisaligned => exact absurd hpow hmisaligned
  | tooLarge _ _ hlarge =>
    have hlimit := hlarge rounded hrounded.dvd hrounded.le
    refine .inr ⟨?_, fun s => h.not_vacant_of_addressLimit_le hlimit⟩
    rw [hanswer, if_neg (Nat.not_lt.mpr hlimit)]
  | noRoom _ _ hleast hlt hno =>
    obtain rfl := hleast.unique hrounded
    refine .inr ⟨?_, ?_⟩
    · rw [hanswer, if_pos hlt]
    · intro s hvacant
      obtain ⟨hole, hhole, hfits⟩ := (h.vacant_iff_fits hpos).mp hvacant
      exact hno hole hhole s hfits
  | granted _ _ hleast _ _ htaken =>
    obtain rfl := hleast.unique hrounded
    refine .inl ⟨_, _, hanswer, (h.vacant_iff_fits hpos).mpr htaken.fits, ?_⟩
    intro s hvacant
    obtain ⟨hole, hhole, hfits⟩ := (h.vacant_iff_fits hpos).mp hvacant
    exact htaken.least hole hhole s hfits

end RangeSpace.Sound

/-- A session answers a reservation by **exact first fit**: it succeeds if and only if some start is
vacant for the rounded size, it is then made at the least vacant start, and otherwise it is refused
for want of address space and nothing changes. -/
structure FirstFit (bounds : AddressRange) (granularity : Nat) (session : SpaceSession)
    (size align rounded : Nat) : Prop where
  succeeds_iff : (∃ range next, session.step (.reserve size align) = .ok (.range range, next)) ↔
    ∃ s, Vacant bounds session.space.allocated rounded (max align granularity) s
  least : ∀ range next, session.step (.reserve size align) = .ok (.range range, next) →
    range.length = rounded ∧
      IsLeast {s | Vacant bounds session.space.allocated rounded (max align granularity) s} range.base
  refused : (¬ ∃ s, Vacant bounds session.space.allocated rounded (max align granularity) s) →
    session.step (.reserve size align) = .ok (.error (.outOfAddressSpace
      (if rounded < addressLimit then rounded else size) (max align granularity)), session)

namespace SpaceSession

/-- **A space in use reserves by exact first fit**: after any steps on a space that was created, for
every size but zero and every alignment that is a power of two once raised to the granularity. The
rounded size need not be an address. -/
theorem reserve_first_fit {name : String} {base length granularity : Nat} {space : RangeSpace}
    (h : RangeSpace.create name base length granularity = .ok space) (journalOpen : Bool)
    (steps : List SpaceStep) {size align rounded : Nat} (hsize : 0 < size)
    (hpow : (max align granularity).isPowerOfTwo)
    (hrounded : LeastMultiple size granularity rounded) :
    FirstFit ⟨base, length⟩ granularity (run steps (start space journalOpen, [])).1
      size align rounded := by
  obtain ⟨rfl, hcreated⟩ := RangeSpace.create_eq_ok h
  have hstart : Balanced _ (start _ journalOpen) [] := ⟨hcreated, rfl, List.Perm.refl _⟩
  have hbalanced := hstart.run steps
  generalize (run steps (start _ journalOpen, [])).1 = session at hbalanced ⊢
  have hgranularity : session.space.granularity = granularity :=
    congrArg (·.granularity) hbalanced.emptied
  have hbounds : session.space.bounds = ⟨base, length⟩ :=
    congrArg RangeSpace.bounds hbalanced.emptied
  have hleast := @RangeSpace.Sound.reserve_least _ _ align rounded hbalanced.sound hsize
    (hgranularity ▸ hpow) (hgranularity ▸ hrounded)
  rw [hbounds, hgranularity] at hleast
  rcases hleast with ⟨first, next, hok, hfirst⟩ | ⟨herror, hno⟩
  · have hstep : session.step (.reserve size align) = .ok (.range ⟨first, rounded⟩,
        { session with space := next, made := session.made.push ⟨first, rounded⟩ }) := by
      simp only [step, hok, ok_bind]
      rfl
    refine ⟨⟨fun _ => ⟨first, hfirst.1⟩, fun _ => ⟨_, _, hstep⟩⟩, ?_, ?_⟩
    · intro range next' hrange
      cases hstep.symm.trans hrange
      exact ⟨rfl, hfirst⟩
    · intro hempty
      exact absurd ⟨first, hfirst.1⟩ hempty
  · have hstep : session.step (.reserve size align) = .ok (.error (.outOfAddressSpace
        (if rounded < addressLimit then rounded else size) (max align granularity)), session) := by
      simp only [step, herror, ok_bind]
      rfl
    refine ⟨⟨?_, fun ⟨s, hs⟩ => absurd hs (hno s)⟩, ?_, fun _ => hstep⟩
    · rintro ⟨range, next, hrange⟩
      cases hstep.symm.trans hrange
    · intro range next hrange
      cases hstep.symm.trans hrange

/-- Of five pages the second is held and the first was given back: a page and a half at an alignment
of two pages fits neither in the hole below nor at the first aligned address. -/
theorem reserve_first_fit_behind_hole :
    let space : RangeSpace := ⟨"heap", 0x8000, 0x5000, 0x1000, [⟨0x8000, 0x5000⟩], []⟩
    let steps : List SpaceStep := [.reserve 1 0, .reserve 1 0, .releaseMade 0]
    RangeSpace.create "heap" 0x8000 0x5000 0x1000 = .ok space ∧
      0 < 0x1800 ∧ (max 0x2000 0x1000).isPowerOfTwo ∧ LeastMultiple 0x1800 0x1000 0x2000 ∧
      FirstFit ⟨0x8000, 0x5000⟩ 0x1000 (run steps (start space true, [])).1 0x1800 0x2000 0x2000 :=
  have hcreate : RangeSpace.create "heap" 0x8000 0x5000 0x1000 =
      .ok ⟨"heap", 0x8000, 0x5000, 0x1000, [⟨0x8000, 0x5000⟩], []⟩ := by decide +kernel
  have hpow : (max 0x2000 0x1000).isPowerOfTwo := ⟨13, by decide⟩
  have hrounded : LeastMultiple 0x1800 0x1000 0x2000 := leastMultiple_div_mul 0x1800 (by decide)
  ⟨hcreate, by decide, hpow, hrounded,
    reserve_first_fit hcreate true _ (by decide) hpow hrounded⟩

end SpaceSession
end InstanceMemory
