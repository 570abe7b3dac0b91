import InstanceMemory.Proofs.Actions
import InstanceMemory.Proofs.RangeSpace.Partition

/-!
# Releases of what is not outstanding

A range that is not exactly an outstanding reservation can be released all the same: one that was
taken back already, a part of one, a range around one, an empty one, or one from elsewhere. The
release is a notice and nothing else, so what comes of it depends on the journal alone (`Ignored`): a
closed journal takes nothing and the session stays as it is; an open one takes one line if the range
has a stop; and **an open journal faults on a range without a stop**, since the line would name it.

In each case the space is left alone. `run_release_ignored` says so of every space in use, and in one
breath for both journals: sessions that differ in their journals only have the same space after every
run (`Agree.run`), so whether the releases before were noted is not to be seen in it.
-/

set_option autoImplicit false

namespace InstanceMemory

variable {range : AddressRange}

/-- A range is written with its limit as its stop. -/
theorem AddressRange.render_of_limit_lt (h : range.limit < addressLimit) :
    range.render = .ok ("[" ++ Hex.write range.base ++ ", " ++ Hex.write range.limit ++ ")") := by
  rw [render, stop_eq h]
  rfl

/-- A range whose stop is no address cannot be written. -/
theorem AddressRange.render_of_le_limit (h : addressLimit ≤ range.limit) :
    range.render = .error .addOverflow := by
  have hstop : range.stop = .error .addOverflow := if_neg (Nat.not_lt.mpr h)
  rw [render, hstop]
  rfl

namespace Journal

variable {journal : Journal}

theorem note_of_open_of_ok {n : Notice} {line : String} (h : journal.isOpen = true)
    (hline : n.line = .ok line) :
    journal.note n = .ok { journal with lines := journal.lines.push line } := by
  rw [note, if_pos h, hline]
  rfl

theorem note_of_open_of_error {n : Notice} {f : Fault} (h : journal.isOpen = true)
    (hline : n.line = .error f) : journal.note n = .error f := by
  rw [note, if_pos h, hline]
  rfl

end Journal

namespace SpaceSession

variable {session other : SpaceSession}

/-- A release of what is not allocated is a notice. -/
theorem release_of_not_mem (h : range ∉ session.space.allocated) :
    session.release range =
      (session.journal.note (.untrackedRelease session.space.name range)).map
        fun journal => { session with journal } := by
  rw [release, RangeSpace.release_of_not_mem h]
  cases session.journal.note (.untrackedRelease session.space.name range) <;> rfl

/-- A release of what is allocated is not noted. -/
theorem release_of_mem (h : range ∈ session.space.allocated) :
    session.release range =
      (Holes.insert range.base range.length session.space.free).map fun free =>
        { session with
          space := { session.space with
            free, allocated := session.space.allocated.erase range } } := by
  rw [release, RangeSpace.release, if_pos h]
  cases Holes.insert range.base range.length session.space.free <;> rfl

/-! ## What a step leaves -/

theorem after_reserve (session : SpaceSession) (size align : Nat) :
    session.after (.reserve size align) =
      match session.space.reserve size align with
      | .ok (.ok (range, space)) => { session with space, made := session.made.push range }
      | _ => session := by
  unfold after step
  dsimp only
  cases session.space.reserve size align with
  | error f => rfl
  | ok answer => cases answer <;> rfl

theorem after_release (session : SpaceSession) (range : AddressRange) :
    session.after (.release range) = (session.release range).toOption.getD session := by
  unfold after step
  dsimp only
  cases session.release range <;> rfl

/-- A release by number leaves what the release of the range of that number leaves. -/
theorem after_releaseMade (session : SpaceSession) (number : Nat) :
    session.after (.releaseMade number) =
      (session.made[number % session.made.size]?).elim session
        fun range => session.after (.release range) := by
  cases hmade : session.made[number % session.made.size]? with
  | none =>
    unfold after step
    simp only [hmade, Option.elim_none]
  | some range =>
    rw [Option.elim_some, after_release]
    unfold after step
    simp only [hmade]
    cases session.release range <;> rfl

/-! ## Sessions that differ in their journals -/

/-- Sessions with the same space and the same reservations made, whatever they noted. -/
structure Agree (session other : SpaceSession) : Prop where
  space : session.space = other.space
  made : session.made = other.made

namespace Agree

/-- A release leaves sessions alike, though it may fault in one of them, on its notice. -/
theorem release (h : Agree session other) (range : AddressRange) :
    Agree (session.after (.release range)) (other.after (.release range)) := by
  obtain ⟨hspace, hmade⟩ := h
  rw [after_release, after_release]
  by_cases hr : range ∈ session.space.allocated
  · rw [release_of_mem hr, release_of_mem (hspace ▸ hr), hspace]
    cases Holes.insert range.base range.length other.space.free with
    | ok free => exact ⟨rfl, hmade⟩
    | error f => exact ⟨hspace, hmade⟩
  · rw [release_of_not_mem hr, release_of_not_mem (hspace ▸ hr)]
    cases session.journal.note (.untrackedRelease session.space.name range) <;>
      cases other.journal.note (.untrackedRelease other.space.name range) <;>
        exact ⟨hspace, hmade⟩

/-- **One step leaves sessions alike.** -/
theorem step (h : Agree session other) (step : SpaceStep) :
    Agree (session.after step) (other.after step) := by
  cases step with
  | reserve size align =>
    obtain ⟨hspace, hmade⟩ := h
    rw [after_reserve, after_reserve, hspace]
    cases other.space.reserve size align with
    | error f => exact ⟨hspace, hmade⟩
    | ok answer =>
      cases answer with
      | error cause => exact ⟨hspace, hmade⟩
      | ok granted => exact ⟨rfl, congrArg (·.push granted.1) hmade⟩
  | release range => exact h.release range
  | releaseMade number =>
    rw [after_releaseMade, after_releaseMade, h.made]
    cases other.made[number % other.made.size]? with
    | none => exact h
    | some range => exact h.release range
  | describe => exact h

/-- **Every run leaves sessions alike.** -/
theorem run (h : Agree session other) (steps : List SpaceStep) (ledger ledger' : List AddressRange) :
    Agree (SpaceSession.run steps (session, ledger)).1 (SpaceSession.run steps (other, ledger')).1 := by
  induction steps generalizing session other ledger ledger' with
  | nil => exact h
  | cons step rest ih => exact ih (h.step step) _ _

end Agree

/-! ## A journal stays open, or closed -/

theorem isOpen_after_release (session : SpaceSession) (range : AddressRange) :
    (session.after (.release range)).journal.isOpen = session.journal.isOpen := by
  rw [after_release]
  by_cases hr : range ∈ session.space.allocated
  · rw [release_of_mem hr]
    cases Holes.insert range.base range.length session.space.free <;> rfl
  · rw [release_of_not_mem hr]
    cases hnote : session.journal.note (.untrackedRelease session.space.name range) with
    | ok journal => exact Journal.isOpen_of_note hnote
    | error f => rfl

theorem isOpen_after (session : SpaceSession) (step : SpaceStep) :
    (session.after step).journal.isOpen = session.journal.isOpen := by
  cases step with
  | reserve size align =>
    rw [after_reserve]
    cases session.space.reserve size align with
    | error f => rfl
    | ok answer => cases answer <;> rfl
  | release range => exact session.isOpen_after_release range
  | releaseMade number =>
    rw [after_releaseMade]
    cases session.made[number % session.made.size]? with
    | none => rfl
    | some range => exact session.isOpen_after_release range
  | describe => rfl

theorem isOpen_run (steps : List SpaceStep) (session : SpaceSession) (ledger : List AddressRange) :
    (run steps (session, ledger)).1.journal.isOpen = session.journal.isOpen := by
  induction steps generalizing session ledger with
  | nil => rfl
  | cons step rest ih => exact (ih _ _).trans (session.isOpen_after step)

end SpaceSession

/-! ## The release of what is not outstanding -/

/-- The line that the release of a range with a stop leaves. -/
def untrackedLine (name : String) (range : AddressRange) : String :=
  "ERROR " ++ (name ++ ": tried to release untracked range " ++
    ("[" ++ Hex.write range.base ++ ", " ++ Hex.write range.limit ++ ")"))

theorem line_of_limit_lt (name : String) (h : range.limit < addressLimit) :
    (Notice.untrackedRelease name range).line = .ok (untrackedLine name range) := by
  rw [Notice.line, Notice.text, AddressRange.render_of_limit_lt h]
  rfl

theorem line_of_le_limit (name : String) (h : addressLimit ≤ range.limit) :
    (Notice.untrackedRelease name range).line = .error .addOverflow := by
  rw [Notice.line, Notice.text, AddressRange.render_of_le_limit h]
  rfl

/-- A session answers a release by a **notice and nothing else**: it stays as it is if the journal is
closed; it gains the line of the release if the journal is open and the range has a stop; and it
faults, and stays as it is, if the journal is open and the range has none. -/
structure Ignored (name : String) (session : SpaceSession) (range : AddressRange) : Prop where
  closed : session.journal.isOpen = false →
    session.step (.release range) = .ok (.nothing, session)
  noted : session.journal.isOpen = true → range.limit < addressLimit →
    session.step (.release range) = .ok (.nothing, { session with
      journal := { session.journal with
        lines := session.journal.lines.push (untrackedLine name range) } })
  faults : session.journal.isOpen = true → addressLimit ≤ range.limit →
    session.step (.release range) = .error .addOverflow
  space_eq : (session.after (.release range)).space = session.space

namespace SpaceSession

variable {session : SpaceSession}

/-- What is not allocated is released by a notice and nothing else. -/
theorem ignored_of_not_mem (h : range ∉ session.space.allocated) :
    Ignored session.space.name session range := by
  have hstep : session.step (.release range) =
      (session.journal.note (.untrackedRelease session.space.name range)).map
        fun journal => (.nothing, { session with journal }) := by
    unfold step
    dsimp only
    rw [release_of_not_mem h]
    cases session.journal.note (.untrackedRelease session.space.name range) <;> rfl
  refine ⟨?_, ?_, ?_, ?_⟩
  · intro hclosed
    rw [hstep, Journal.note_of_closed hclosed]
    rfl
  · intro hopen hlimit
    rw [hstep, Journal.note_of_open_of_ok hopen (line_of_limit_lt session.space.name hlimit)]
    rfl
  · intro hopen hlimit
    rw [hstep, Journal.note_of_open_of_error hopen (line_of_le_limit session.space.name hlimit)]
    rfl
  · rw [after_release, release_of_not_mem h]
    cases session.journal.note (.untrackedRelease session.space.name range) <;> rfl

/-- **What is not outstanding is released in vain**: after any steps on a space that was created, for
every range that is not exactly an outstanding reservation. The space stays as it is, and it is the
space of the same steps and the same release under either journal. -/
theorem run_release_ignored {name : String} {base length granularity : Nat} {space : RangeSpace}
    (h : RangeSpace.create name base length granularity = .ok space) (journalOpen : Bool)
    (steps : List SpaceStep) {range : AddressRange}
    (hrange : range ∉ (run steps (start space journalOpen, [])).2) :
    (run steps (start space journalOpen, [])).1.journal.isOpen = journalOpen ∧
      Ignored name (run steps (start space journalOpen, [])).1 range ∧
      ∀ otherOpen, ((run steps (start space otherOpen, [])).1.after (.release range)).space =
        (run steps (start space journalOpen, [])).1.space := by
  have hbalanced := Balanced.of_create h journalOpen steps
  have hname : (run steps (start space journalOpen, [])).1.space.name = name :=
    congrArg (·.name) hbalanced.emptied
  have hignored := ignored_of_not_mem fun hmem => hrange (hbalanced.allocated.mem_iff.mp hmem)
  rw [hname] at hignored
  refine ⟨isOpen_run steps _ [], hignored, fun otherOpen => ?_⟩
  have hagree : Agree (start space otherOpen) (start space journalOpen) := ⟨rfl, rfl⟩
  exact ((hagree.run steps [] []).release range).space.trans hignored.space_eq

/-- Of three pages the first two are reserved as one: its first page alone is not outstanding. -/
theorem run_release_ignored_part :
    let space : RangeSpace := ⟨"heap", 0x8000, 0x3000, 0x1000, [⟨0x8000, 0x3000⟩], []⟩
    let steps : List SpaceStep := [.reserve 0x2000 0]
    RangeSpace.create "heap" 0x8000 0x3000 0x1000 = .ok space ∧
      ⟨0x8000, 0x1000⟩ ∉ (run steps (start space true, [])).2 ∧
      (run steps (start space true, [])).1.journal.isOpen = true ∧
      Ignored "heap" (run steps (start space true, [])).1 ⟨0x8000, 0x1000⟩ ∧
      ∀ otherOpen,
        ((run steps (start space otherOpen, [])).1.after (.release ⟨0x8000, 0x1000⟩)).space =
          (run steps (start space true, [])).1.space :=
  have hcreate : RangeSpace.create "heap" 0x8000 0x3000 0x1000 =
      .ok ⟨"heap", 0x8000, 0x3000, 0x1000, [⟨0x8000, 0x3000⟩], []⟩ := by decide +kernel
  have hrange : ⟨0x8000, 0x1000⟩ ∉ (run [.reserve 0x2000 0]
      (start ⟨"heap", 0x8000, 0x3000, 0x1000, [⟨0x8000, 0x3000⟩], []⟩ true, [])).2 := by
    decide +kernel
  ⟨hcreate, hrange, run_release_ignored hcreate true _ hrange⟩

/-- **A release into an open journal need not return**: in an unused space the last address of all is
not outstanding, and the range that holds it alone ends outside the address space. A session with a
closed journal answers its release, and one with an open journal faults. -/
theorem release_unprintable :
    let space : RangeSpace := ⟨"heap", 0, 0x1000, 0x1000, [⟨0, 0x1000⟩], []⟩
    let last : AddressRange := ⟨0xffffffffffffffff, 1⟩
    RangeSpace.create "heap" 0 0x1000 0x1000 = .ok space ∧
      last ∉ (run [] (start space true, [])).2 ∧
      (run [] (start space true, [])).1.step (.release last) = .error .addOverflow ∧
      (run [] (start space false, [])).1.step (.release last) =
        .ok (.nothing, start space false) := by
  refine ⟨by decide +kernel, List.not_mem_nil, ?_, ?_⟩
  · exact (ignored_of_not_mem List.not_mem_nil).faults rfl (by decide)
  · exact (ignored_of_not_mem List.not_mem_nil).closed rfl

end SpaceSession
end InstanceMemory
