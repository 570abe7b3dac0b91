import InstanceMemory.Proofs.Machine.Provision
import InstanceMemory.Proofs.Session.Faultless

/-!
# Requests are granted exactly if there is room

What comes of a request depends on nothing but what is free (`Session.run_provided`). On a heap it is
granted exactly if the heap has an aligned gap that is long enough, and in system memory exactly if there
is a gap at all, whatever the alignment. Behind the IOMMU the error names the first thing that is
missing: the space is smaller than the request, or fewer bytes of system memory are free, in however many
pieces, or no aligned gap of the space is long enough. **No mapping is ever refused**, whatever came
before.

All this is said of states in which the device was not told to refuse anything. How they were reached
does not matter.
-/

set_option autoImplicit false

namespace InstanceMemory

open Simulator (Config Device Move)

variable {m m' m₁ : Machine Device} {i size align : Nat} {zeroed : Bool}

/-- The device was not told to refuse anything that objects are made of. -/
structure Machine.Unarmed (m : Machine Device) : Prop where
  pages : m.hardware.memory.pageBudget = none
  buffers : m.hardware.memory.refusesBuffers = false
  mappings : m.mappingBudget = none

/-! ## Allocations -/

/-- Zeroing an object does not change the answer. -/
theorem Action.make_answer {answer answer' : Except Error InstanceObject}
    (hplace : place i size align m = .ok answer m₁)
    (hmake : make i size align zeroed m = .ok answer' m') : answer' = answer := by
  unfold make at hmake
  rw [run_bind_of_ok hplace] at hmake
  cases answer with
  | error cause =>
    cases hmake
    rfl
  | ok object =>
    cases zeroed with
    | false =>
      cases hmake
      rfl
    | true =>
      simp only [↓reduceIte] at hmake
      cases hfill : (orUndo (fill object 0) (free object) : Action Device _) m₁ with
      | error f m₂ =>
        rw [run_bind_of_error hfill] at hmake
        cases hmake
      | ok _ m₂ =>
        rw [run_bind_of_ok hfill] at hmake
        cases hmake
        rfl

/-- A controller that is not suspended makes what it is asked for. -/
theorem Action.allocate_eq_make (h : (m.controller i).phase ≠ .suspended) :
    allocate i size align zeroed m = make i size align zeroed m := by
  rw [allocate, run_get_bind]
  cases hphase : (m.controller i).phase with
  | suspended => exact absurd hphase h
  | constructed => rfl
  | initialized => rfl

/-- **An allocation is served**, zeroed or not, unless its controller is suspended. -/
theorem Orderly.allocate_served {roster : List (Option FirmwareObjects)} {live : List InstanceObject}
    {pages step : Nat} (h : Orderly roster live m) (hi : i < roster.length)
    (hphase : (m.controller i).phase ≠ .suspended)
    (hround : Action.pageRound size align = .ok (pages, step)) (zeroed : Bool) :
    ∃ answer m', Action.allocate i size align zeroed m = .ok answer m' ∧
      Served m i pages step (m.controller i).strategy answer := by
  obtain ⟨answer, m₁, hplace, hserved⟩ := h.accounts.place_served hi hround
  obtain ⟨answer', m', hallocate⟩ := h.allocate hi size align zeroed
  obtain rfl := Action.make_answer hplace ((Action.allocate_eq_make hphase).symm.trans hallocate)
  exact ⟨answer', m', hallocate, hserved⟩

/-- **An object that was made was served**, for a request that was rounded. -/
theorem Orderly.served_of_made {roster : List (Option FirmwareObjects)} {live : List InstanceObject}
    {made : InstanceObject} (h : Orderly roster live m) (hi : i < roster.length)
    (hmade : Action.allocate i size align zeroed m = .ok (.ok made) m') :
    ∃ pages step, Action.pageRound size align = .ok (pages, step) ∧
      Served m i pages step (m.controller i).strategy (.ok made) := by
  have hphase : (m.controller i).phase ≠ .suspended := by
    intro hsuspended
    rw [Action.allocate, run_get_bind, hsuspended] at hmade
    cases hmade
  cases hround : Action.pageRound size align with
  | ok rounded =>
    obtain ⟨pages, step⟩ := rounded
    obtain ⟨answer, _, hallocate, hserved⟩ := h.allocate_served hi hphase hround zeroed
    cases hallocate.symm.trans hmade
    exact ⟨pages, step, rfl, hserved⟩
  | error cause =>
    obtain ⟨m₁, hplace⟩ := Action.place_unrounded m i hround
    cases Action.make_answer hplace ((Action.allocate_eq_make hphase).symm.trans hmade)

namespace Session

/-! ## Requests -/

/-- A request is granted exactly if there is room, and refused for this cause otherwise. -/
structure GrantedIff (outcome : Outcome Reply) (room : Prop) (cause : Error) : Prop where
  granted : room → ∃ object, outcome = .reply (.object object)
  refused : ¬ room → outcome = .error cause

namespace GrantedIff

variable {room : Prop} {cause : Error}

theorem of_room {object : InstanceObject} (h : room) :
    GrantedIff (.reply (.object object)) room cause :=
  ⟨fun _ => ⟨object, rfl⟩, fun hno => absurd h hno⟩

theorem of_no_room (h : ¬ room) : GrantedIff (.error cause) room cause :=
  ⟨fun hroom => absurd hroom h, fun _ => rfl⟩

end GrantedIff

/-- What comes of a request for whole pages, by what is free for the strategy. -/
def Provided (m : Machine Device) (i size align : Nat) (outcome : Outcome Reply) : Strategy → Prop
  | .heap => ∃ space, m.Has (.heap i) space ∧
    GrantedIff outcome (space.HasRoom size align) (.outOfAddressSpace size align)
  | .dma => GrantedIff outcome (m.hardware.memory.space.HasRoom size 1) .outOfMemory
  | .iommu => ∃ space, m.Has .shared space ∧
    (space.capacity < size → outcome = .error (.outOfAddressSpace size align)) ∧
    (size ≤ space.capacity → m.freeMemory < size → outcome = .error .outOfMemory) ∧
    (size ≤ space.capacity → size ≤ m.freeMemory →
      GrantedIff outcome (space.HasRoom size align) (.outOfAddressSpace size align))

/-- **Where nothing is refused for its own sake, what is served is what is free.** -/
theorem provided_of_served {ranges : List AddressRange} {strategy : Strategy}
    {answer : Except Error InstanceObject} (hlends : m.hardware.memory.space.Lends ranges)
    (hunarmed : m.Unarmed) (hsize : 0 < size) (hserved : Served m i size align strategy answer) :
    Provided m i size align (outcomeOf .object answer) strategy ∧
      ∀ cause, answer ≠ .error (.platformFailed cause) := by
  cases hserved with
  | inHeap hid hstart => exact ⟨⟨_, hid, .of_room ⟨_, hstart⟩⟩, nofun⟩
  | heapFull hid hno => exact ⟨⟨_, hid, .of_no_room hno⟩, nofun⟩
  | inBuffer misaligned hstart hmisaligned =>
    exact ⟨.of_room ((hlends.hasRoom_paged hsize).mp ⟨_, hstart⟩), nofun⟩
  | noBuffer hno =>
    exact ⟨.of_no_room fun hroom => hno hunarmed.buffers ((hlends.hasRoom_paged hsize).mpr hroom),
      nofun⟩
  | behindIommu pages hid hcapacity hmemory hstart =>
    refine ⟨⟨_, hid, fun hlt => ?_, fun _ hlt => ?_, fun _ _ => .of_room ⟨_, hstart⟩⟩, nofun⟩
    · omega
    · omega
  | beyondSpace hid hcapacity =>
    refine ⟨⟨_, hid, fun _ => rfl, fun hle _ => ?_, fun hle _ => ?_⟩, nofun⟩
    · omega
    · omega
  | noPages hid hcapacity hmemory =>
    have hlack := hmemory hunarmed.pages
    refine ⟨⟨_, hid, fun hlt => ?_, fun _ _ => rfl, fun _ hle => ?_⟩, nofun⟩
    · omega
    · omega
  | spaceFull hid hcapacity hmemory hno =>
    refine ⟨⟨_, hid, fun _ => rfl, fun _ hlt => ?_, fun _ _ => .of_no_room hno⟩, nofun⟩
    omega
  | mappingRefused cause hbudget => exact absurd hunarmed.mappings hbudget

/-- After every run a machine is in balance with its live objects, and nothing interrupts an access. -/
theorem orderly_run {config : Config} {journalOpen : Bool} {host : Simulator.Host} {session : Session Device}
    (hstart : Simulator.Session.start config journalOpen host = .ok session) (moves : List Move) :
    Orderly (Simulator.Session.run moves session).machine.roster
      (Simulator.Session.run moves session).live (Simulator.Session.run moves session).machine := by
  refine ⟨(Booked.run hstart moves).accounts, Quiet.abiding.run moves ?_⟩
  obtain ⟨device, shared, -, rfl⟩ := Simulator.Session.start_eq_ok hstart
  exact ⟨rfl, rfl⟩

/-- **A request is granted exactly if there is room for it** after every run that leaves the device with
nothing to refuse, for every controller that is not suspended and whatever rounds to whole pages. -/
theorem run_provided {config : Config} {journalOpen : Bool} {host : Simulator.Host} {session : Session Device}
    (hstart : Simulator.Session.start config journalOpen host = .ok session) (moves : List Move)
    (hunarmed : (Simulator.Session.run moves session).machine.Unarmed) {controller name : String}
    (hcontroller : (Simulator.Session.run moves session).controllers.get? controller = some i)
    (hname : (Simulator.Session.run moves session).objects.get? name = none)
    (hphase : ((Simulator.Session.run moves session).machine.controller i).phase ≠ .suspended)
    {pages step : Nat} (hround : Action.pageRound size align = .ok (pages, step)) (zeroed : Bool) :
    let reached := Simulator.Session.run moves session
    let outcome := (request controller name size align zeroed reached).1
    Provided reached.machine i pages step outcome (reached.machine.controller i).strategy ∧
      ∀ cause, outcome ≠ .error (.platformFailed cause) := by
  have hbooked : Booked (Simulator.Session.run moves session) := Booked.run hstart moves
  obtain ⟨answer, m', hallocate, hserved⟩ :=
    (orderly_run hstart moves).allocate_served (hbooked.index_lt hcontroller) hphase hround zeroed
  obtain ⟨hpages, -⟩ := Action.pageRound_eq_ok hround
  have hsize : 0 < pages := Nat.lt_of_lt_of_le (Nat.le_max_right size 1) hpages.le
  obtain ⟨hprovided, hmapped⟩ := provided_of_served hbooked.accounts.holding.memory.space hunarmed
    hsize hserved
  have houtcome : (request controller name size align zeroed (Simulator.Session.run moves session)).1 =
      outcomeOf .object answer := by
    rw [request_of_unused hcontroller hname, hallocate]
    cases answer <;> rfl
  dsimp only
  rw [houtcome]
  refine ⟨hprovided, fun cause hfailed => ?_⟩
  cases answer with
  | error found => exact hmapped cause (congrArg Except.error (Outcome.error.inj hfailed))
  | ok object => cases hfailed

/-- Two pages where two are free, but not side by side, after a mapping was refused. -/
theorem run_provided_scattered : ∃ session : Session Device,
    Simulator.Session.start { Config.systemMemory 0xea with iommuSpace := some 0x4000 } false =
        .ok session ∧
      let reached := Simulator.Session.run [.operation (.build "gpu"),
        .operation (.allocate "gpu" "first" 0x1000 0 false),
        .operation (.allocate "gpu" "second" 0x1000 0 false),
        .operation (.allocate "gpu" "third" 0x1000 0 false), .operation (.free "second"),
        .faults (.limitMappings 0) rfl, .operation (.allocate "gpu" "refused" 0x1000 0 false),
        .faults .clearFaults rfl] session
      let outcome := (request "gpu" "wide" 0x1001 0 true reached).1
      reached.machine.Unarmed ∧ Action.pageRound 0x1001 0 = .ok (0x2000, 0x1000) ∧
        (Provided reached.machine 0 0x2000 0x1000 outcome (reached.machine.controller 0).strategy ∧
          ∀ cause, outcome ≠ .error (.platformFailed cause)) ∧
        outcome = .error (.outOfAddressSpace 0x2000 0x1000) := by
  have hstart : Simulator.Session.start
      { Config.systemMemory 0xea with iommuSpace := some 0x4000 } false = .ok _ := rfl
  have hround : Action.pageRound 0x1001 0 = .ok (0x2000, 0x1000) := by decide +kernel
  refine ⟨_, hstart, ⟨by decide +kernel, by decide +kernel, by decide +kernel⟩, hround, ?_,
    by decide +kernel⟩
  exact run_provided hstart _ ⟨by decide +kernel, by decide +kernel, by decide +kernel⟩
    (by decide +kernel) (by decide +kernel) (by decide +kernel) hround true

end Session
end InstanceMemory
