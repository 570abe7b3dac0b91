import InstanceMemory.Proofs.Session.Provision

/-!
# Objects that are less aligned than was asked for

The alignment of a request is rounded up to a page, and the allocator of the strategy places the object.
A heap places it as aligned as was asked for. The buffer allocator knows nothing of the alignment, so the
object tells whether it is misaligned. Behind the IOMMU **it is the range that is aligned**, and the
resolve bit is set on its addresses afterwards: up to the resolve bit the addresses are as aligned as the
range, but beyond it none of them is a multiple of the alignment, and the object does not tell
(`Session.run_alignment_untold`).
-/

set_option autoImplicit false

namespace InstanceMemory

open Simulator (Config Device Move)

variable {m : Machine Device} {i size align : Nat}

/-- A power of two is rounded up to a page, and so is nothing. -/
theorem Action.step_of_pageRound {pages step : Nat} (h : pageRound size align = .ok (pages, step))
    (halign : align = 0 ∨ align.isPowerOfTwo) : step = max align pageSize := by
  obtain ⟨-, hstep⟩ := pageRound_step h
  by_cases hle : align ≤ pageSize
  · rw [Nat.max_eq_right hle]
    refine hstep.unique ⟨Nat.dvd_refl _, Nat.max_le.mpr ⟨hle, by decide⟩, fun n hdvd hn => ?_⟩
    exact Nat.le_of_dvd (Nat.lt_of_lt_of_le (Nat.le_max_right align 1) hn) hdvd
  · have hlt : pageSize < align := Nat.lt_of_not_le hle
    rcases halign with rfl | hpow
    · exact absurd hlt (Nat.not_lt_zero _)
    · have hone : max align 1 = align := Nat.max_eq_left (pos_of_isPowerOfTwo hpow)
      rw [hone] at hstep
      rw [Nat.max_eq_left (Nat.le_of_lt hlt)]
      exact hstep.eq_of_dvd (dvd_of_isPowerOfTwo ⟨pageBits, rfl⟩ hpow (Nat.le_of_lt hlt))

/-- What an object and its flag have to do with the alignment that was asked for. -/
structure InstanceObject.TellsAlignment (o : InstanceObject) (align : Nat) : Prop where
  told : (o.strategy = .iommu → align ≤ resolveBit) → (o.isMisaligned = true ↔ ¬ align ∣ o.offset)
  heap : o.strategy = .heap → align ∣ o.offset
  /-- Without the resolve bit the addresses are aligned. -/
  iommu : o.strategy = .iommu → o.isMisaligned = false ∧ align ∣ stripResolveBit o.offset ∧
    (align ∣ o.offset ↔ align ≤ resolveBit)

/-- **Only an alignment beyond the resolve bit is missed without a word.** -/
theorem tellsAlignment_of_served {pages step : Nat} {strategy : Strategy} {made : InstanceObject}
    (hshared : ∀ space, m.Has .shared space → space.base = 0 ∧ space.length ≤ resolveBit)
    (hpages : 0 < pages) (hpow : step.isPowerOfTwo)
    (hserved : Served m i pages step strategy (.ok made)) : made.TellsAlignment step := by
  cases hserved with
  | inHeap hid hstart =>
    refine ⟨fun _ => ?_, fun _ => hstart.dvd, nofun⟩
    exact ⟨nofun, fun hno => absurd hstart.dvd hno⟩
  | inBuffer misaligned hstart hmisaligned => exact ⟨fun _ => hmisaligned, nofun, nofun⟩
  | @behindIommu space range slots hid hcapacity hmemory hstart =>
    obtain ⟨hbase, hlength⟩ := hshared space hid
    have hlimit : range.base + pages ≤ space.base + space.length := hstart.le_limit
    have hbelow : range.base < resolveBit := by omega
    have hoffset : setResolveBit range.base = range.base + resolveBit := setResolveBit_of_lt hbelow
    have hdvd : step ∣ setResolveBit range.base ↔ step ≤ resolveBit := by
      rw [hoffset, Nat.dvd_add_right hstart.dvd]
      exact ⟨Nat.le_of_dvd (by decide), dvd_of_isPowerOfTwo hpow ⟨34, rfl⟩⟩
    refine ⟨fun hle => ?_, nofun, fun _ => ⟨rfl, ?_, hdvd⟩⟩
    · exact ⟨nofun, fun hno => absurd (hdvd.mpr (hle rfl)) hno⟩
    · show step ∣ stripResolveBit (setResolveBit range.base)
      rw [hoffset, stripResolveBit_add hbelow]
      exact hstart.dvd

namespace Session

open Simulator.Session (run after)

/-- **Every object tells whether it is misaligned**, on every device and after every run, but for those
behind the IOMMU with an alignment beyond the resolve bit: these are never aligned and never tell. -/
theorem run_alignment_told {config : Config} {journalOpen : Bool} {host : Simulator.Host}
    {session : Session Device} (h : Simulator.Session.start config journalOpen host = .ok session)
    (moves : List Move) (controller name : String) (size : Nat) {align : Nat}
    (halign : align = 0 ∨ align.isPowerOfTwo) (zeroed : Bool) {made : InstanceObject}
    (hmade : (request controller name size align zeroed (run moves session)).1 =
      .reply (.object made)) : made.TellsAlignment (max align pageSize) := by
  have hbooked : Booked (run moves session) := Booked.run h moves
  obtain ⟨i, m', hi, -, hact, -⟩ := exists_of_made hmade
  obtain ⟨pages, step, hround, hserved⟩ := (orderly_run h moves).served_of_made (hbooked.index_lt hi) hact
  obtain ⟨hpages, hpositive⟩ := Action.pageRound_eq_ok hround
  obtain ⟨hpow, -⟩ := Action.pageRound_step hround
  rw [← Action.step_of_pageRound hround halign]
  exact tellsAlignment_of_served hbooked.accounts.geometry.shared
    (Nat.lt_of_lt_of_le (Nat.le_max_right size 1) hpages.le) hpow hserved

/-- A buffer that is less aligned than was asked for, and an object behind the IOMMU that is aligned to
the resolve bit. -/
theorem run_alignment_told_both : (∃ session : Session Device,
    Simulator.Session.start (Config.systemMemory 0xea) false = .ok session ∧
      let reached := run [.operation (.build "gpu")] session
      ∃ made, (request "gpu" "table" 0x1000 0x20000000 false reached).1 = .reply (.object made) ∧
        made.isMisaligned = true ∧ made.TellsAlignment (max 0x20000000 pageSize)) ∧
    ∃ session : Session Device,
      Simulator.Session.start { Config.systemMemory 0xea with iommuSpace := some 0x10000 } false =
          .ok session ∧
        let reached := run [.operation (.build "gpu")] session
        ∃ made, (request "gpu" "table" 0x1000 resolveBit false reached).1 = .reply (.object made) ∧
          made.isMisaligned = false ∧ made.TellsAlignment (max resolveBit pageSize) := by
  have hstart : Simulator.Session.start (Config.systemMemory 0xea) false = .ok _ := rfl
  have hbehind : Simulator.Session.start
      { Config.systemMemory 0xea with iommuSpace := some 0x10000 } false = .ok _ := rfl
  refine ⟨⟨_, hstart, ⟨0, 0x10000000, 0x1000, true, .dma ⟨0x10000000, 0x1000⟩⟩, by decide +kernel, rfl,
    ?_⟩, ⟨_, hbehind, ⟨0, resolveBit, 0x1000, false, .iommu ⟨0, 0x1000⟩ [0x10000000]⟩,
    by decide +kernel, rfl, ?_⟩⟩
  · exact run_alignment_told hstart [.operation (.build "gpu")] "gpu" "table" 0x1000 (.inr ⟨29, rfl⟩)
      false (by decide +kernel)
  · exact run_alignment_told hbehind [.operation (.build "gpu")] "gpu" "table" 0x1000
      (.inr ⟨34, rfl⟩) false (by decide +kernel)

/-- An object behind the IOMMU with an alignment beyond the resolve bit is granted at the bit itself,
which is no multiple of the alignment, and does not tell. -/
theorem run_alignment_untold : ∃ session : Session Device,
    Simulator.Session.start { Config.systemMemory 0xea with iommuSpace := some 0x10000 } false =
        .ok session ∧
      let reached := run [.operation (.build "gpu")] session
      ∃ made, (request "gpu" "table" 0x1000 0x800000000 false reached).1 = .reply (.object made) ∧
        made.strategy = .iommu ∧ made.isMisaligned = false ∧
        ¬ max 0x800000000 pageSize ∣ made.offset := by
  have hstart : Simulator.Session.start
      { Config.systemMemory 0xea with iommuSpace := some 0x10000 } false = .ok _ := rfl
  exact ⟨_, hstart, ⟨0, resolveBit, 0x1000, false, .iommu ⟨0, 0x1000⟩ [0x10000000]⟩,
    by decide +kernel, rfl, rfl, by decide⟩

end Session
end InstanceMemory
