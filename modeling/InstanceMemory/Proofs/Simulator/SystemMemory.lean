import InstanceMemory.Proofs.RangeSpace.Lending
import InstanceMemory.Simulator.SystemMemory

/-!
# What system memory lends

System memory lends pages and buffers from one space and counts both. `memory.Lends pages buffers`
says which are out: their ranges are those of the space, and the counters tell how many there are.
Taking adds one and giving back removes one, and apart from that and the page budget nothing about
the memory changes (`SystemMemory.bare`).
-/

set_option autoImplicit false

namespace InstanceMemory

/-- The range of system memory that a buffer takes. -/
def Buffer.range (buffer : Buffer) : AddressRange := ⟨buffer.handle, buffer.size⟩

namespace Simulator

/-- The range of system memory that a page takes. -/
def pageRange (page : Nat) : AddressRange := ⟨page, pageSize⟩

/-- What may be left of a budget after some uses. -/
inductive Budget.Left : Budget → Budget → Prop
  | unlimited : Left none none
  | limited {n k : Nat} : k ≤ n → Left (some n) (some k)

namespace Budget.Left

theorem refl (budget : Budget) : budget.Left budget := by
  cases budget with
  | none => exact .unlimited
  | some n => exact .limited (Nat.le_refl n)

theorem trans {first second third : Budget} (h : first.Left second) (h' : second.Left third) :
    first.Left third := by
  cases h with
  | unlimited => exact h'
  | limited hle =>
    cases h' with
    | limited hle' => exact .limited (Nat.le_trans hle' hle)

theorem of_spend {before after : Budget} (h : before.spend? = some after) : before.Left after := by
  match before with
  | none =>
    cases h
    exact .unlimited
  | some 0 => cases h
  | some (n + 1) =>
    cases h
    exact .limited (Nat.le_succ n)

end Budget.Left

theorem countUp_of_lt {n : Nat} (h : n + 1 < addressLimit) : countUp n = n + 1 :=
  Nat.mod_eq_of_lt h

theorem countDown_succ {n : Nat} (h : n < addressLimit) : countDown (n + 1) = n := by
  unfold countDown
  have : n + 1 + (addressLimit - 1) = n + addressLimit := by
    unfold addressLimit
    omega
  rw [this, Nat.add_mod_right, Nat.mod_eq_of_lt h]

namespace SystemMemory

variable {memory : SystemMemory} {pages : List Nat} {buffers : List Buffer}

/-- System memory of which some pages and some buffers are out. -/
structure Lends (memory : SystemMemory) (pages : List Nat) (buffers : List Buffer) : Prop where
  space : memory.space.Lends (pages.map pageRange ++ buffers.map Buffer.range)
  livePages : memory.livePages = pages.length
  liveBuffers : memory.liveBuffers = buffers.length

/-- The memory without what is taken of it and without its page budget. -/
def bare (memory : SystemMemory) : SystemMemory :=
  { memory with space := memory.space.emptied, pageBudget := none, livePages := 0, liveBuffers := 0 }

namespace Lends

/-- The order in which things were lent does not matter. -/
theorem perm {pages' : List Nat} {buffers' : List Buffer} (h : memory.Lends pages buffers)
    (hp : pages.Perm pages') (hb : buffers.Perm buffers') : memory.Lends pages' buffers' where
  space := h.space.perm ((hp.map _).append (hb.map _))
  livePages := h.livePages.trans hp.length_eq
  liveBuffers := h.liveBuffers.trans hb.length_eq

theorem count_lt (h : memory.Lends pages buffers) : pages.length + buffers.length < addressLimit := by
  have := h.space.length_lt
  rwa [List.length_append, List.length_map, List.length_map] at this

/-- **A page is taken or refused.** -/
theorem allocPage (h : memory.Lends pages buffers) :
    ∃ page after, memory.allocPage = .ok (page, after) ∧
      after.Lends (page.toList ++ pages) buffers ∧ after.bare = memory.bare ∧
      memory.pageBudget.Left after.pageBudget := by
  unfold SystemMemory.allocPage
  cases hspend : memory.pageBudget.spend? with
  | none => exact ⟨none, memory, rfl, h, rfl, .refl _⟩
  | some pageBudget =>
    have hleft := Budget.Left.of_spend hspend
    dsimp only
    rcases h.space.reserve pageSize pageSize with
      ⟨cause, hcause⟩ | ⟨range, next, hnext, hlends, hemptied, hleast⟩
    · rw [hcause, ok_bind]
      exact ⟨none, { memory with pageBudget }, rfl, ⟨h.space, h.livePages, h.liveBuffers⟩, rfl,
        hleft⟩
    · have hrange : range = pageRange range.base := by
        rw [pageRange, ← hleast.eq_of_dvd (Nat.dvd_refl _)]
      rw [hrange] at hlends
      rw [hnext, ok_bind]
      refine ⟨some range.base, _, rfl, ⟨hlends, ?_, h.liveBuffers⟩, ?_, hleft⟩
      · have hcount := hlends.length_lt
        simp only [List.length_cons, List.length_append, List.length_map] at hcount
        show countUp memory.livePages = _
        rw [h.livePages, countUp_of_lt (by omega)]
        rfl
      · simp only [bare, hemptied]

/-- **A page that is out is given back**, and nothing is noted. -/
theorem freePage {page : Nat} (h : memory.Lends (page :: pages) buffers) (journal : Journal) :
    ∃ after, memory.freePage page journal = .ok (after, journal) ∧ after.Lends pages buffers ∧
      after.bare = memory.bare ∧ after.pageBudget = memory.pageBudget := by
  obtain ⟨next, hnext, hlends, hemptied⟩ := RangeSpace.Lends.release h.space journal
  have hnext' : memory.space.release ⟨page, pageSize⟩ journal = .ok (next, journal) := hnext
  have hcount := h.count_lt
  refine ⟨{ memory with space := next, livePages := countDown memory.livePages }, ?_,
    ⟨hlends, ?_, h.liveBuffers⟩, ?_, rfl⟩
  · unfold SystemMemory.freePage
    rw [hnext', ok_bind]
    rfl
  · rw [List.length_cons] at hcount
    exact (congrArg countDown h.livePages).trans (countDown_succ (by omega))
  · simp only [bare, hemptied]

/-- **A buffer is taken or refused**, rounded up to pages. -/
theorem allocBuffer (h : memory.Lends pages buffers) (size : Nat) :
    ∃ buffer after, memory.allocBuffer size = .ok (buffer, after) ∧
      after.Lends pages (buffer.toList ++ buffers) ∧ after.bare = memory.bare ∧
      after.pageBudget = memory.pageBudget ∧
      ∀ b ∈ buffer, LeastMultiple size pageSize b.size := by
  unfold SystemMemory.allocBuffer
  split
  · exact ⟨none, memory, rfl, h, rfl, rfl, fun _ hb => by cases hb⟩
  · rcases h.space.reserve size pageSize with
      ⟨cause, hcause⟩ | ⟨range, next, hnext, hlends, hemptied, hleast⟩
    · rw [hcause, ok_bind]
      exact ⟨none, memory, rfl, h, rfl, rfl, fun _ hb => by cases hb⟩
    · rw [hnext, ok_bind]
      have hcount := hlends.length_lt
      refine ⟨some ⟨range.base, range.length⟩, _, rfl, ⟨hlends.perm ?_, h.livePages, ?_⟩, ?_, rfl, ?_⟩
      · exact List.perm_middle.symm
      · simp only [List.length_cons, List.length_append, List.length_map] at hcount
        show countUp memory.liveBuffers = _
        rw [h.liveBuffers, countUp_of_lt (by omega)]
        rfl
      · simp only [bare, hemptied]
      · rintro b hb
        cases hb
        exact hleast

/-- **A buffer that is out is given back**, and nothing is noted. -/
theorem freeBuffer {buffer : Buffer} (h : memory.Lends pages (buffer :: buffers))
    (journal : Journal) :
    ∃ after, memory.freeBuffer buffer journal = .ok (after, journal) ∧
      after.Lends pages buffers ∧ after.bare = memory.bare ∧
      after.pageBudget = memory.pageBudget := by
  have hspace := h.space.perm List.perm_middle
  obtain ⟨next, hnext, hlends, hemptied⟩ := RangeSpace.Lends.release hspace journal
  have hnext' : memory.space.release ⟨buffer.handle, buffer.size⟩ journal = .ok (next, journal) :=
    hnext
  have hcount := h.count_lt
  refine ⟨{ memory with space := next, liveBuffers := countDown memory.liveBuffers }, ?_,
    ⟨hlends, h.livePages, ?_⟩, ?_, rfl⟩
  · unfold SystemMemory.freeBuffer
    rw [hnext', ok_bind]
    rfl
  · rw [List.length_cons] at hcount
    exact (congrArg countDown h.liveBuffers).trans (countDown_succ (by omega))
  · simp only [bare, hemptied]

end Lends
end SystemMemory
end Simulator
end InstanceMemory
