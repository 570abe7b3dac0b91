import InstanceMemory.Proofs.RangeSpace.Sound
import InstanceMemory.RangeSpace.Session

/-!
# A space in use stays partitioned

A session with a range space takes any steps: reservations that are granted or refused, releases of
what is outstanding and of anything else, and releases that fault while they are noted. Beside the
session runs a **ledger** of the reservations outstanding, kept from the answers alone
(`SpaceStep.settle`).

`run_partitions` is the account: after every run the free and the allocated ranges, sorted by their
bases, tile the space, all on the grid of the granularity; their lengths add up to the capacity; and
the allocated ranges are those of the ledger. One step keeps the books (`Balanced.step`), so every
run does (`Balanced.run`).
-/

set_option autoImplicit false

namespace InstanceMemory

/-- The reservations outstanding after a step, as its answer tells: a granted reservation is added,
and a release takes the range out if it is outstanding. -/
def SpaceStep.settle (ledger : List AddressRange) :
    SpaceStep → Except Fault SpaceAnswer → List AddressRange
  | .reserve .., .ok (.range range) => range :: ledger
  | .release range, _ => ledger.erase range
  | .releaseMade _, .ok (.range range) => ledger.erase range
  | _, _ => ledger

namespace SpaceSession

/-- The session after a step. A step that faults leaves the session as it is. -/
def after (session : SpaceSession) (step : SpaceStep) : SpaceSession :=
  match session.step step with
  | .ok (_, next) => next
  | .error _ => session

/-- The session after some steps, with the ledger of what is outstanding. -/
def run : List SpaceStep → SpaceSession × List AddressRange → SpaceSession × List AddressRange
  | [], state => state
  | step :: rest, (session, ledger) =>
    run rest (session.after step, step.settle ledger ((session.step step).map (·.1)))

end SpaceSession

variable {space : RangeSpace} {session : SpaceSession} {ledger : List AddressRange}

/-- A session whose space is sound, within the bounds it began with, and allocated as the ledger
says. -/
structure Balanced (space : RangeSpace) (session : SpaceSession) (ledger : List AddressRange) :
    Prop where
  sound : session.space.Sound
  emptied : session.space.emptied = space.emptied
  allocated : session.space.allocated.Perm ledger

namespace Balanced

/-- A release of any range settles the ledger, whether it answers or faults. -/
theorem release (h : Balanced space session ledger) (range : AddressRange) :
    (∃ next, session.release range = .ok next ∧ Balanced space next (ledger.erase range)) ∨
      (∃ f, session.release range = .error f) ∧ Balanced space session (ledger.erase range) := by
  unfold SpaceSession.release
  by_cases hr : range ∈ session.space.allocated
  · obtain ⟨next, hnext, hsound, hemptied, hallocated⟩ := h.sound.release hr session.journal
    refine .inl ⟨{ session with space := next, journal := session.journal }, ?_, hsound,
      hemptied.trans h.emptied, ?_⟩
    · rw [hnext]
      rfl
    · exact hallocated ▸ h.allocated.erase range
  · have hledger : ledger.erase range = ledger :=
      List.erase_of_not_mem fun hmem => hr (h.allocated.mem_iff.mpr hmem)
    rw [RangeSpace.release_of_not_mem hr, hledger]
    cases hnote : session.journal.note (.untrackedRelease session.space.name range) with
    | ok journal => exact .inl ⟨{ session with journal }, rfl, h.sound, h.emptied, h.allocated⟩
    | error f => exact .inr ⟨⟨f, rfl⟩, h⟩

/-- **One step keeps the books.** -/
theorem step (h : Balanced space session ledger) (step : SpaceStep) :
    Balanced space (session.after step)
      (step.settle ledger ((session.step step).map (·.1))) := by
  unfold SpaceSession.after SpaceSession.step
  cases step with
  | reserve size align =>
    obtain ⟨answer, hanswer, hreserved⟩ := h.sound.reserve size align
    cases answer with
    | error cause =>
      simp only [hanswer, ok_bind]
      exact h
    | ok granted =>
      obtain ⟨range, next⟩ := granted
      obtain ⟨hsound, hemptied, hperm, -⟩ := hreserved.granted_spec h.sound
      simp only [hanswer, ok_bind]
      exact ⟨hsound, hemptied.trans h.emptied, hperm.trans (h.allocated.cons range)⟩
  | release range =>
    rcases h.release range with ⟨next, hnext, hbalanced⟩ | ⟨⟨f, hf⟩, hbalanced⟩
    · simp only [hnext, ok_bind]
      exact hbalanced
    · simp only [hf]
      exact hbalanced
  | releaseMade number =>
    dsimp only
    cases session.made[number % session.made.size]? with
    | none => exact h
    | some range =>
      rcases h.release range with ⟨next, hnext, hbalanced⟩ | ⟨⟨f, hf⟩, hbalanced⟩
      · simp only [hnext, ok_bind]
        exact hbalanced
      · simp only [hf]
        exact h
  | describe => exact h

/-- **Every run keeps the books.** -/
theorem run (h : Balanced space session ledger) (steps : List SpaceStep) :
    Balanced space (SpaceSession.run steps (session, ledger)).1
      (SpaceSession.run steps (session, ledger)).2 := by
  induction steps generalizing session ledger with
  | nil => exact h
  | cons step rest ih => exact ih (h.step step)

/-- A space that was created keeps its name, its bounds and its granularity through every run. -/
theorem of_create {name : String} {base length granularity : Nat}
    (h : RangeSpace.create name base length granularity = .ok space) (journalOpen : Bool)
    (steps : List SpaceStep) :
    Balanced ⟨name, base, length, granularity, [⟨base, length⟩], []⟩
      (SpaceSession.run steps (.start space journalOpen, [])).1
      (SpaceSession.run steps (.start space journalOpen, [])).2 := by
  obtain ⟨rfl, hsound⟩ := RangeSpace.create_eq_ok h
  have hstart : Balanced _ (.start _ journalOpen) [] := ⟨hsound, rfl, List.Perm.refl _⟩
  exact hstart.run steps

end Balanced

/-! ## The partition -/

namespace RangeSpace.Sound

/-- No free range overlaps an allocated one, and none overlaps its like. -/
theorem disjoint (h : space.Sound) :
    (space.free ++ space.allocated).Pairwise fun r s => r.limit ≤ s.base ∨ s.limit ≤ r.base := by
  refine List.pairwise_append.mpr ⟨?_, ?_, ?_⟩
  · exact h.holes.ascending.ordered.imp .inl
  · exact h.allocated.ordered.imp .inl
  · intro r hr s hs
    refine (AddressRange.before_or_behind (h.holes.positive r hr) (h.allocated.positive s hs)
      ?_).symm
    intro x hrx hsx
    exact ((h.free_iff x).mp ⟨r, hr, hrx⟩).2 ⟨s, hs, hsx⟩

/-- **The free and the allocated ranges tile the space.** -/
theorem tiles (h : space.Sound) :
    Tiles space.base (space.base + space.length)
      (AddressRange.sort (space.free ++ space.allocated)) := by
  have hperm : (AddressRange.sort (space.free ++ space.allocated)).Perm
      (space.free ++ space.allocated) := List.mergeSort_perm _ _
  have hpos : ∀ r ∈ space.free ++ space.allocated, 0 < r.length := by
    intro r hr
    rcases List.mem_append.mp hr with hr | hr
    · exact h.holes.positive r hr
    · exact h.allocated.positive r hr
  apply (ascending_sort hpos h.disjoint).tiles (Nat.le_add_right _ _)
  intro x
  have hinside := h.inside x
  rw [covers_perm hperm, covers_append, h.free_iff]
  tauto

/-- What is free and what is allocated add up to the capacity. -/
theorem freeBytes_add_totalLength (h : space.Sound) :
    space.freeBytes + totalLength space.allocated = space.capacity := by
  have hperm : (AddressRange.sort (space.free ++ space.allocated)).Perm
      (space.free ++ space.allocated) := List.mergeSort_perm _ _
  have htotal := h.tiles.total
  rw [totalLength_perm hperm, totalLength_append] at htotal
  have hfree : space.freeBytes = totalLength space.free := by
    simp only [freeBytes, totalLength, List.sum, List.foldr_map]
  unfold capacity
  omega

end RangeSpace.Sound

/-- A space of some bounds and granularity in which the reservations of a ledger are outstanding. -/
structure Partitioned (base length granularity : Nat) (space : RangeSpace)
    (ledger : List AddressRange) : Prop where
  tiles : Tiles base (base + length) (AddressRange.sort (space.free ++ space.allocated))
  onGrid : OnGrid granularity (space.free ++ space.allocated)
  capacity : space.capacity = length
  total : space.freeBytes + totalLength space.allocated = space.capacity
  outstanding : space.allocated.Perm ledger

namespace SpaceSession

/-- **A space in use stays partitioned.** After any steps on a space that was created, the free and
the allocated ranges tile the space, each on the grid; free and allocated lengths add up to the
capacity; and the allocated ranges are the reservations granted and not yet taken back. -/
theorem run_partitions {name : String} {base length granularity : Nat}
    (h : RangeSpace.create name base length granularity = .ok space) (journalOpen : Bool)
    (steps : List SpaceStep) :
    Partitioned base length granularity (run steps (start space journalOpen, [])).1.space
      (run steps (start space journalOpen, [])).2 := by
  obtain ⟨rfl, hsound⟩ := RangeSpace.create_eq_ok h
  have hstart : Balanced _ (start _ journalOpen) [] := ⟨hsound, rfl, List.Perm.refl _⟩
  obtain ⟨hfinal, hemptied, hperm⟩ := hstart.run steps
  have hbase := congrArg (·.base) hemptied
  have hlength := congrArg (·.length) hemptied
  have hgranularity := congrArg (·.granularity) hemptied
  dsimp only [RangeSpace.emptied] at hbase hlength hgranularity
  have htiles := hfinal.tiles
  have hgrid := hfinal.onGrid
  rw [hbase, hlength] at htiles
  rw [hgranularity] at hgrid
  exact ⟨htiles, hgrid, hlength, hfinal.freeBytes_add_totalLength, hperm⟩

/-- Three pages, of which two are reserved, one is taken back, and a range without a stop is released
into an open journal, which faults. -/
theorem run_partitions_three_pages :
    let space : RangeSpace := ⟨"heap", 0x8000, 0x3000, 0x1000, [⟨0x8000, 0x3000⟩], []⟩
    let steps : List SpaceStep := [.reserve 0x800 0, .reserve 1 0x2000, .release ⟨0x8000, 0x1000⟩,
      .release ⟨0xfffffffffffff000, 0x1000⟩, .reserve 0x4000 0]
    RangeSpace.create "heap" 0x8000 0x3000 0x1000 = .ok space ∧
      Partitioned 0x8000 0x3000 0x1000 (run steps (start space true, [])).1.space
        (run steps (start space true, [])).2 :=
  have hcreate : RangeSpace.create "heap" 0x8000 0x3000 0x1000 =
      .ok ⟨"heap", 0x8000, 0x3000, 0x1000, [⟨0x8000, 0x3000⟩], []⟩ := by decide +kernel
  ⟨hcreate, run_partitions hcreate true _⟩

end SpaceSession
end InstanceMemory
