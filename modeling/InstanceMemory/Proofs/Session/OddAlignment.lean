import InstanceMemory.Proofs.Machine.Notes
import InstanceMemory.Proofs.RangeSpace.Partition
import InstanceMemory.Proofs.Session.Provision

/-!
# Alignments that are not powers of two

An alignment is not judged as it was asked for. A reservation is judged by the alignment **raised to the
granularity**, a request for an object by the alignment **rounded up to whole pages**; what is refused is
the one or the other if it is no power of two, and then nothing changes but the journal.

So an alignment that is no power of two is refused above the granularity, but below it does not matter
(`SpaceSession.JudgesRaised`). An object is refused for such an alignment unless a power of two lies less
than a page above it, and then the request comes to what it would come to for that power; and in the last
page of the address space, where there is nothing to round up to, the answer is that there is no address
space (`Session.JudgesRounded`). Neither the strategy nor how the state was reached plays a part in this.
-/

set_option autoImplicit false

namespace InstanceMemory

open Simulator (Device)

variable {space : RangeSpace} {size align : Nat}

/-! ## Reservations -/

namespace RangeSpace

theorem reserve_misaligned (hsize : size ≠ 0) (hpow : ¬ (max align space.granularity).isPowerOfTwo) :
    space.reserve size align = .ok (.error (.invalidArgument
      (.reservationAlignment space.name (max align space.granularity)))) := by
  unfold reserve
  rw [if_neg hsize]
  exact if_pos hpow

/-- Up to the granularity an alignment makes no difference. -/
theorem reserve_of_le_granularity (size : Nat) (h : align ≤ space.granularity) :
    space.reserve size align = space.reserve size 0 := by
  unfold reserve
  rw [Nat.max_eq_right h, Nat.max_eq_right (Nat.zero_le _)]

/-- The argument of a reservation is invalid only for its alignment, if anything is to be reserved. -/
theorem Reserved.misaligned_of_invalid {answer : Except Error (AddressRange × RangeSpace)}
    {argument : BadArgument} (h : Reserved space size align answer) (hsize : size ≠ 0)
    (hinvalid : answer = .error (.invalidArgument argument)) :
    ¬ (max align space.granularity).isPowerOfTwo := by
  cases h with
  | empty hempty => exact absurd hempty hsize
  | misaligned _ hpow => exact hpow
  | tooLarge => cases hinvalid
  | noRoom => cases hinvalid
  | granted => cases hinvalid

end RangeSpace

/-- A session judges a reservation by its alignment **raised to the granularity**. -/
structure SpaceSession.JudgesRaised (name : String) (granularity : Nat) (session : SpaceSession)
    (size align : Nat) : Prop where
  /-- Above the granularity, what is no power of two is refused, and nothing changes. -/
  refused : granularity < align → ¬ align.isPowerOfTwo →
    session.step (.reserve size align) =
      .ok (.error (.invalidArgument (.reservationAlignment name align)), session)
  /-- Up to the granularity, whatever was asked for is as good as nothing. -/
  raised : align ≤ granularity →
    session.step (.reserve size align) = session.step (.reserve size 0)
  invalid_iff : (∃ argument next,
      session.step (.reserve size align) = .ok (.error (.invalidArgument argument), next)) ↔
    granularity < align ∧ ¬ align.isPowerOfTwo

namespace SpaceSession

variable {session : SpaceSession}

theorem step_reserve_of_error {cause : Error} (h : session.space.reserve size align = .ok (.error cause)) :
    session.step (.reserve size align) = .ok (.error cause, session) := by
  unfold step
  dsimp only
  rw [h]
  rfl

/-- **A sound space judges alignments raised to its granularity**, a power of two. -/
theorem judgesRaised (hsound : session.space.Sound) (hsize : size ≠ 0) (align : Nat) :
    session.JudgesRaised session.space.name session.space.granularity size align := by
  have hrefused : session.space.granularity < align → ¬ align.isPowerOfTwo →
      session.step (.reserve size align) =
        .ok (.error (.invalidArgument (.reservationAlignment session.space.name align)), session) := by
    intro hlt hpow
    have hmax : max align session.space.granularity = align := Nat.max_eq_left (Nat.le_of_lt hlt)
    have hreserve := RangeSpace.reserve_misaligned hsize (hmax.symm ▸ hpow)
    rw [hmax] at hreserve
    exact step_reserve_of_error hreserve
  refine ⟨hrefused, fun hle => ?_, ?_, fun ⟨hlt, hpow⟩ => ⟨_, _, hrefused hlt hpow⟩⟩
  · unfold step
    dsimp only
    rw [RangeSpace.reserve_of_le_granularity size hle]
  · rintro ⟨argument, next, hinvalid⟩
    obtain ⟨answer, hanswer, hreserved⟩ := hsound.reserve size align
    have hpow : ¬ (max align session.space.granularity).isPowerOfTwo := by
      cases answer with
      | error cause =>
        cases (step_reserve_of_error hanswer).symm.trans hinvalid
        exact hreserved.misaligned_of_invalid hsize rfl
      | ok granted =>
        unfold step at hinvalid
        simp only [hanswer, ok_bind] at hinvalid
        cases hinvalid
    by_cases hle : align ≤ session.space.granularity
    · rw [Nat.max_eq_right hle] at hpow
      exact absurd hsound.granularity hpow
    · rw [Nat.not_le] at hle
      rw [Nat.max_eq_left (Nat.le_of_lt hle)] at hpow
      exact ⟨hle, hpow⟩

end SpaceSession

/-! ## Rounding -/

namespace Action

variable {pages step : Nat}

/-- Rounding a request whose size can be rounded is a matter of its alignment. -/
theorem pageRound_eq (hpages : LeastMultiple (max size 1) pageSize pages)
    (hsize : pages < addressLimit) (hstep : LeastMultiple (max align 1) pageSize step) :
    pageRound size align =
      if addressLimit ≤ step then .error (.outOfAddressSpace size align)
      else if step.isPowerOfTwo then .ok (pages, step)
      else .error (.invalidArgument (.objectAlignment align)) := by
  have hrounded : nextMultiple? (max size 1) pageSize = some pages :=
    nextMultiple?_eq_some_iff.mpr ⟨by decide, hpages, hsize⟩
  unfold pageRound
  rw [hrounded]
  by_cases hlimit : addressLimit ≤ step
  · have hnone : nextMultiple? (max align 1) pageSize = none :=
      (nextMultiple?_eq_none_iff (by decide)).mpr fun n hdvd hle =>
        Nat.le_trans hlimit (hstep.least n hdvd hle)
    rw [hnone, if_pos hlimit]
  · have hsome : nextMultiple? (max align 1) pageSize = some step :=
      nextMultiple?_eq_some_iff.mpr ⟨by decide, hstep, Nat.lt_of_not_le hlimit⟩
    rw [hsome, if_neg hlimit]

/-- The rounded alignment is its own rounding. -/
theorem leastMultiple_step (hstep : LeastMultiple (max align 1) pageSize step) :
    LeastMultiple (max step 1) pageSize step := by
  have hpos : 1 ≤ step := Nat.le_trans (Nat.le_max_right align 1) hstep.le
  rw [Nat.max_eq_left hpos]
  exact ⟨hstep.dvd, Nat.le_refl step, fun n _ hle => hle⟩

/-! ## Refusals -/

variable {i : Nat} {m : Machine Device} {cause : Error}

/-- What cannot be rounded is refused for it, and the request is noted. -/
theorem allocate_unrounded (hphase : (m.controller i).phase ≠ .suspended)
    (hround : pageRound size align = .error cause) (zeroed : Bool) :
    ∃ journal, allocate i size align zeroed m = .ok (.error cause) { m with journal } := by
  obtain ⟨journal, hnote⟩ :=
    note_of_text (n := .requested (m.controller i).strategy size align) rfl m
  have hplace : place i size align m = .ok (.error cause) { m with journal } := by
    rw [place_eq, run_bind_of_ok hnote, hround]
    rfl
  rw [allocate_eq_make hphase, make, run_bind_of_ok hplace]
  exact ⟨journal, rfl⟩

end Action

/-! ## Requests that are rounded alike -/

namespace Action

/-- Notices with a text leave machines that differ in their notes. -/
theorem alike_note {n n' : Notice} {text text' : String} (hn : n.text = .ok text)
    (hn' : n'.text = .ok text') (m : Machine Device) : Alike Relined (note n m) (note n' m) := by
  obtain ⟨journal, hjournal⟩ := m.journal.note_of_text hn
  obtain ⟨journal', hjournal'⟩ := m.journal.note_of_text hn'
  have hopen : journal'.isOpen = journal.isOpen :=
    (Journal.isOpen_of_note hjournal').trans (Journal.isOpen_of_note hjournal).symm
  simp only [note, hjournal, hjournal']
  refine .ok () ⟨(), journal'.lines, ?_⟩
  rw [Machine.relined, ← hopen]

/-- **Requests that are rounded alike come to the same**, but for what is noted. -/
theorem alike_make {step : Nat} (hround : pageRound size align = pageRound size step) (i : Nat)
    (zeroed : Bool) (m : Machine Device) :
    Alike Relined (make i size align zeroed m) (make i size step zeroed m) := by
  have hplace : Alike Relined (place i size align m) (place i size step m) := by
    rw [place_eq, place_eq, hround]
    exact (alike_note rfl rfl m).bind fun _ t t' _ h =>
      veil_nothing.blind_placeRounded _ i _ t t' h
  refine hplace.bind fun answer t t' _ h => ?_
  cases answer with
  | error cause => exact .ok _ h
  | ok o =>
    dsimp only
    split
    · refine Blind.bind (blind_orUndo ?_ (veil_nothing.blind_free o)) (fun _ => blind_pure _) t t' h
      exact blind_fill fun offset => relined_writeWord o offset 0
    · exact .ok _ h

end Action

/-! ## The judgement -/

/-- After any steps on a space that was created, a reservation is judged by its raised alignment. -/
theorem SpaceSession.run_judgesRaised {name : String} {base length granularity : Nat}
    (h : RangeSpace.create name base length granularity = .ok space) (journalOpen : Bool)
    (steps : List SpaceStep) (hsize : size ≠ 0) (align : Nat) :
    (run steps (start space journalOpen, [])).1.JudgesRaised name granularity size align := by
  have hbalanced := Balanced.of_create h journalOpen steps
  have hname : (run steps (start space journalOpen, [])).1.space.name = name :=
    congrArg (·.name) hbalanced.emptied
  have hgranularity : (run steps (start space journalOpen, [])).1.space.granularity = granularity :=
    congrArg (·.granularity) hbalanced.emptied
  have hjudges := judgesRaised hbalanced.sound hsize align
  rwa [hname, hgranularity] at hjudges

namespace Session

/-- A session judges a request by its alignment **rounded up to whole pages**, to `step`. -/
structure JudgesRounded (controller name : String) (size align step : Nat) (zeroed : Bool)
    (session : Session Device) : Prop where
  /-- What is no power of two is refused, and nothing changes but the journal. -/
  refused : step < addressLimit → ¬ step.isPowerOfTwo → ∃ journal,
    request controller name size align zeroed session =
      (.error (.invalidArgument (.objectAlignment align)),
        { session with machine := { session.machine with journal } })
  /-- Where there is nothing to round up to, there is no address space, and nothing changes either. -/
  beyond : addressLimit ≤ step → ∃ journal,
    request controller name size align zeroed session =
      (.error (.outOfAddressSpace size align),
        { session with machine := { session.machine with journal } })
  /-- What is rounded to a power of two is as good as that power. -/
  rounded : step < addressLimit → step.isPowerOfTwo →
    (request controller name size align zeroed session).1 =
        (request controller name size step zeroed session).1 ∧
      Relined (request controller name size align zeroed session).2.machine
        (request controller name size step zeroed session).2.machine
  invalid_iff : (∃ asked, (request controller name size align zeroed session).1 =
      .error (.invalidArgument (.objectAlignment asked))) ↔
    step < addressLimit ∧ ¬ step.isPowerOfTwo

variable {session : Session Device} {controller name : String} {i pages step : Nat}

/-! A request is judged in a state in which its controller is there and not suspended, and its name is
not taken. -/

section

variable (hcontroller : session.controllers.get? controller = some i)
  (hname : session.objects.get? name = none)
  (hphase : (session.machine.controller i).phase ≠ .suspended)

include hcontroller hname hphase

/-- A request that cannot be rounded is refused for that, and nothing changes but the journal. -/
theorem request_unrounded {cause : Error} (hround : Action.pageRound size align = .error cause)
    (zeroed : Bool) : ∃ journal, request controller name size align zeroed session =
      (.error cause, { session with machine := { session.machine with journal } }) := by
  obtain ⟨journal, hallocate⟩ := Action.allocate_unrounded hphase hround zeroed
  rw [request_of_unused hcontroller hname, hallocate]
  exact ⟨journal, rfl⟩

/-- Requests that are rounded alike are answered alike. -/
theorem request_alike (hround : Action.pageRound size align = Action.pageRound size step)
    (zeroed : Bool) :
    (request controller name size align zeroed session).1 =
        (request controller name size step zeroed session).1 ∧
      Relined (request controller name size align zeroed session).2.machine
        (request controller name size step zeroed session).2.machine := by
  have halike := Action.alike_make hround i zeroed session.machine
  rw [request_of_unused hcontroller hname, request_of_unused hcontroller hname,
    Action.allocate_eq_make hphase, Action.allocate_eq_make hphase]
  revert halike
  generalize (Action.make i size align zeroed : Action Device _) session.machine = result
  generalize (Action.make i size step zeroed : Action Device _) session.machine = result'
  intro halike
  cases halike with
  | ok answer h => cases answer <;> exact ⟨rfl, h⟩
  | error f h => exact ⟨rfl, h⟩

/-- **A request is refused for its alignment by rounding alone.** -/
theorem pageRound_of_misaligned {asked : Nat} {zeroed : Bool}
    (h : (request controller name size align zeroed session).1 =
      .error (.invalidArgument (.objectAlignment asked))) :
    Action.pageRound size align = .error (.invalidArgument (.objectAlignment asked)) := by
  rw [request_of_unused hcontroller hname, Action.allocate_eq_make hphase] at h
  cases hmake : (Action.make i size align zeroed : Action Device _) session.machine with
  | error f m =>
    rw [hmake] at h
    cases h
  | ok answer m =>
    rw [hmake] at h
    cases answer with
    | ok object => cases h
    | error cause =>
      obtain rfl : cause = .invalidArgument (.objectAlignment asked) := Outcome.error.inj h
      exact (Action.verdict_make i size align zeroed _ _ _ hmake).resolve_right fun h => h asked rfl

/-- **A request is judged by its rounded alignment** if its size can be rounded. -/
theorem judgesRounded (hpages : LeastMultiple (max size 1) pageSize pages)
    (hsize : pages < addressLimit) (hstep : LeastMultiple (max align 1) pageSize step)
    (zeroed : Bool) : session.JudgesRounded controller name size align step zeroed := by
  have hround := Action.pageRound_eq hpages hsize hstep
  have hrefused : step < addressLimit → ¬ step.isPowerOfTwo →
      Action.pageRound size align = .error (.invalidArgument (.objectAlignment align)) := by
    intro hlt hpow
    rw [hround, if_neg (Nat.not_le.mpr hlt), if_neg hpow]
  refine ⟨fun hlt hpow => ?_, fun hle => ?_, fun hlt hpow => ?_, ?_, fun ⟨hlt, hpow⟩ => ?_⟩
  · exact request_unrounded hcontroller hname hphase (hrefused hlt hpow) zeroed
  · rw [if_pos hle] at hround
    exact request_unrounded hcontroller hname hphase hround zeroed
  · have hpower := Action.pageRound_eq hpages hsize (Action.leastMultiple_step hstep)
    rw [if_neg (Nat.not_le.mpr hlt), if_pos hpow] at hround hpower
    exact request_alike hcontroller hname hphase (hround.trans hpower.symm) zeroed
  · rintro ⟨asked, hasked⟩
    have hmisaligned := pageRound_of_misaligned hcontroller hname hphase hasked
    rw [hround] at hmisaligned
    split at hmisaligned
    · cases hmisaligned
    · rename_i hle
      split at hmisaligned
      · cases hmisaligned
      · exact ⟨Nat.lt_of_not_le hle, ‹_›⟩
  · obtain ⟨journal, hrequest⟩ :=
      request_unrounded hcontroller hname hphase (hrefused hlt hpow) zeroed
    exact ⟨align, congrArg Prod.fst hrequest⟩

end

end Session

/-- **Alignments are judged as they were raised.** A reservation in a space in use is refused for its
alignment exactly if that is above the granularity and no power of two; a request for an object, in any
state, exactly if the least number of whole pages from its alignment on is an address and no power of
two. Neither refusal changes anything, and an alignment that is not refused is as good as the one it was
raised to. -/
theorem alignment_judged {name : String} {base length granularity : Nat} {space : RangeSpace}
    (hcreate : RangeSpace.create name base length granularity = .ok space) (journalOpen : Bool)
    (steps : List SpaceStep) {session : Session Device} {controller object : String} {i : Nat}
    (hcontroller : session.controllers.get? controller = some i)
    (hobject : session.objects.get? object = none)
    (hphase : (session.machine.controller i).phase ≠ .suspended) {size align pages step : Nat}
    (hsize : size ≠ 0) (hpages : LeastMultiple (max size 1) pageSize pages)
    (hlimit : pages < addressLimit) (hstep : LeastMultiple (max align 1) pageSize step)
    (zeroed : Bool) :
    (SpaceSession.run steps (SpaceSession.start space journalOpen, [])).1.JudgesRaised
        name granularity size align ∧
      session.JudgesRounded controller object size align step zeroed :=
  ⟨SpaceSession.run_judgesRaised hcreate journalOpen steps hsize align,
    Session.judgesRounded hcontroller hobject hphase hpages hlimit hstep zeroed⟩

/-- In a space with one page reserved, and on a controller in system memory: three pages are no
alignment. -/
theorem alignment_judged_three_pages : ∃ space, ∃ session : Session Device,
    RangeSpace.create "heap" 0x8000 0x3000 0x1000 = .ok space ∧
      Simulator.Session.start (Simulator.Config.systemMemory 0xea) false = .ok session ∧
      let used := (SpaceSession.run [.reserve 1 0] (SpaceSession.start space true, [])).1
      let reached := Simulator.Session.run [.operation (.build "gpu")] session
      (used.JudgesRaised "heap" 0x1000 0x1000 0x3000 ∧
          reached.JudgesRounded "gpu" "table" 0x1000 0x3000 0x3000 false) ∧
        used.step (.reserve 0x1000 0x3000) =
          .ok (.error (.invalidArgument (.reservationAlignment "heap" 0x3000)), used) ∧
        ∃ journal, Session.request "gpu" "table" 0x1000 0x3000 false reached =
          (.error (.invalidArgument (.objectAlignment 0x3000)),
            { reached with machine := { reached.machine with journal } }) := by
  have hcreate : RangeSpace.create "heap" 0x8000 0x3000 0x1000 = .ok _ := rfl
  have hstart : Simulator.Session.start (Simulator.Config.systemMemory 0xea) false = .ok _ := rfl
  have hsize : LeastMultiple (max 0x1000 1) pageSize 0x1000 := leastMultiple_div_mul 0x1000 (by decide)
  have hstep : LeastMultiple (max 0x3000 1) pageSize 0x3000 := leastMultiple_div_mul 0x3000 (by decide)
  have hodd : ¬ Nat.isPowerOfTwo 0x3000 := by decide
  refine ⟨_, _, hcreate, hstart, ?_⟩
  dsimp only
  generalize hreached : Simulator.Session.run [.operation (.build "gpu")] _ = reached
  have hcontroller : reached.controllers.get? "gpu" = some 0 := by
    subst hreached
    decide +kernel
  have hobject : reached.objects.get? "table" = none := by
    subst hreached
    decide +kernel
  have hphase : (reached.machine.controller 0).phase ≠ .suspended := by
    subst hreached
    decide +kernel
  have hjudged := alignment_judged hcreate true [.reserve 1 0] hcontroller hobject hphase
    (by decide) hsize (by decide) hstep false
  exact ⟨hjudged, hjudged.1.refused (by decide) hodd, hjudged.2.refused (by decide) hodd⟩

/-- **Three is no power of two, and it is granted**: a range at an address that is no multiple of three,
and an object. The last address of all is no power of two either, and is answered with a want of address
space. -/
theorem odd_alignment_granted : ¬ Nat.isPowerOfTwo 3 ∧ ¬ (addressLimit - 1).isPowerOfTwo ∧
    (∃ space, RangeSpace.create "heap" 0x1000 0x4000 0x1000 = .ok space ∧ ∃ next,
      (SpaceSession.start space true).step (.reserve 0x1000 3) =
        .ok (.range ⟨0x1000, 0x1000⟩, next) ∧ ¬ 3 ∣ 0x1000) ∧
    ∃ session : Session Device,
      Simulator.Session.start (Simulator.Config.systemMemory 0xea) false = .ok session ∧
        let reached := Simulator.Session.run [.operation (.build "gpu")] session
        (∃ made, (Session.request "gpu" "table" 0x1000 3 false reached).1 = .reply (.object made)) ∧
          (Session.request "gpu" "table" 0x1000 (addressLimit - 1) false reached).1 =
            .error (.outOfAddressSpace 0x1000 (addressLimit - 1)) := by
  have hstart : Simulator.Session.start (Simulator.Config.systemMemory 0xea) false = .ok _ := rfl
  refine ⟨by decide, by decide, ⟨_, rfl, _, rfl, by decide⟩, _, hstart,
    ⟨⟨0, 0x10000000, 0x1000, false, .dma ⟨0x10000000, 0x1000⟩⟩, by decide +kernel⟩, by decide +kernel⟩

end InstanceMemory
