import InstanceMemory.Proofs.Machine.Accounts
import InstanceMemory.Proofs.Machine.Contents

/-!
# What requests do to contents

No request writes to memory but to zero a new object. So an object that is made without zeroing
contains what lay where it was put, which another object may have left there, and whatever a request
does, and whether it is refused, the objects that share no place with the new one contain what they
did (`Settled.allocate`).
-/

set_option autoImplicit false

namespace InstanceMemory

open Simulator (Device)

variable {i : Nat} {m m' : Machine Device} {roster : List (Option FirmwareObjects)}
  {live : List InstanceObject}

/-! ## What can be read from the store -/

/-- Contents can be read from the store. -/
theorem Machine.contents_of_store (h : m'.store = m.store) (o : InstanceObject) :
    m'.contents o = m.contents o := by
  have hconfig : m'.hardware.config = m.hardware.config := congrArg (·.hardware.config) h
  have hvram : m'.hardware.vram = m.hardware.vram := congrArg (·.hardware.vram) h
  have hsize : m'.hardware.memory.size = m.hardware.memory.size :=
    congrArg (·.hardware.memory.size) h
  have hwords : m'.hardware.memory.words = m.hardware.memory.words :=
    congrArg (·.hardware.memory.words) h
  apply contents_congr
  intro offset _
  simp only [Device.readAt, Simulator.SystemMemory.read?, Simulator.SystemMemory.word?, hconfig, hvram,
    hsize, hwords]

/-- The strategy can be read from the store. -/
theorem Machine.strategy_of_store (h : m'.store = m.store) : m'.strategy = m.strategy := by
  have hconfig : m'.hardware.config = m.hardware.config := congrArg (·.hardware.config) h
  have hshared := congrArg (·.shared.isSome) h
  simp only [store, frame, Option.isSome_map] at hshared
  rw [strategy, strategy, hconfig, hshared]

theorem Machine.contents_of_hardware (h : m'.hardware = m.hardware) (o : InstanceObject) :
    m'.contents o = m.contents o := by
  rw [contents, contents, h]

/-! ## Requests -/

/-- What a request has written: nothing if it was refused, and else at most zeros, to its object. -/
def Made (zeroed : Bool) (m : Machine Device) :
    Except Error InstanceObject → Machine Device → Prop
  | .error _, m' => m'.store = m.store
  | .ok o, m' =>
    m'.contents o = (if zeroed then List.replicate o.words 0 else m.contents o) ∧
      ∀ o', o.Apart o' → m'.contents o' = m.contents o'

/-- What a request of a controller that is right about the window has written; the controller is
still right about it. -/
def Recycled (i : Nat) (zeroed : Bool) (m : Machine Device) :
    Except Error InstanceObject → Machine Device → Prop
  | .error _, m' => m'.store = m.store
  | .ok o, m' =>
    Settled i m' ∧ m'.contents o = (if zeroed then List.replicate o.words 0 else m.contents o) ∧
      ∀ o', o.Apart o' → m'.contents o' = m.contents o'

theorem Recycled.made {zeroed : Bool} {answer : Except Error InstanceObject}
    (h : Recycled i zeroed m answer m') : Made zeroed m answer m' := by
  cases answer with
  | error cause => exact h
  | ok o => exact h.2

theorem Recycled.settled {zeroed : Bool} {answer : Except Error InstanceObject}
    (h : Recycled i zeroed m answer m') (hsettled : Settled i m) : Settled i m' := by
  cases answer with
  | error cause => exact hsettled.of_store h
  | ok o => exact h.1

theorem Settled.make (hsettled : Settled i m) (h : Accounts roster live m) (hlow : Low m)
    (hi : i < roster.length) (size align : Nat) (zeroed : Bool) :
    ∃ answer m', Action.make i size align zeroed m = .ok answer m' ∧
      Recycled i zeroed m answer m' := by
  unfold Action.make
  rcases h.place hi size align with ⟨cause, m₁, hcause, -, -⟩ | ⟨o, m₁, hobject, -, h₁, howner⟩
  · have hstore := (Action.store_place i size align).of_ok rfl hcause
    rw [run_bind_of_ok hcause]
    exact ⟨.error cause, m₁, rfl, hstore⟩
  · have hstore := (Action.store_place i size align).of_ok rfl hobject
    have hsettled₁ := hsettled.of_store hstore
    rw [run_bind_of_ok hobject]
    dsimp only
    cases zeroed with
    | true =>
      subst howner
      have hplaced := h₁.placed (hlow.of_store hstore) List.mem_cons_self
      obtain ⟨m₂, hfill, haccessed⟩ := hsettled₁.fill hplaced 0
      rw [if_pos rfl, run_bind_of_ok (Action.run_orUndo_of_ok hfill _)]
      refine ⟨.ok o, m₂, rfl, haccessed.settled, haccessed.contents, ?_⟩
      intro o' hapart
      exact (haccessed.others o' hapart).trans (Machine.contents_of_store hstore o')
    | false =>
      exact ⟨.ok o, m₁, rfl, hsettled₁, Machine.contents_of_store hstore o,
        fun o' _ => Machine.contents_of_store hstore o'⟩

/-- **A new object contains zeros if that was asked for, and else what lay there before.** Other
objects contain what they did. -/
theorem Settled.allocate (hsettled : Settled i m) (h : Accounts roster live m) (hlow : Low m)
    (hi : i < roster.length) (size align : Nat) (zeroed : Bool) :
    ∃ answer m', Action.allocate i size align zeroed m = .ok answer m' ∧
      Recycled i zeroed m answer m' := by
  unfold Action.allocate
  rw [run_get_bind]
  cases hphase : (m.controller i).phase with
  | suspended => exact ⟨_, m, rfl, rfl⟩
  | constructed => exact hsettled.make h hlow hi size align zeroed
  | initialized => exact hsettled.make h hlow hi size align zeroed

/-! ## Phases -/

/-- A change of phase that leaves the window alone, or forgets it. -/
theorem Settled.replaceController (h : Settled i m) {j : Nat} {c : Controller} (n : Notice)
    (hc : ∀ base, c.window.cached = some base → (m.controller j).window.cached = some base) :
    Settled i (leaves (Action.replaceController j c n) m) ∧
      (leaves (Action.replaceController j c n) m).hardware = m.hardware := by
  have hmap : Settled i (m.mapController j fun _ => c) := by
    refine ⟨h.silent, h.uninterrupted, ?_⟩
    intro c' base hc' hcached
    rw [Machine.getElem?_mapController, Option.map_eq_some_iff] at hc'
    obtain ⟨c₀, hc₀, rfl⟩ := hc'
    apply h.coherent c₀ base hc₀
    split at hcached
    · rename_i hj
      subst hj
      rw [← Machine.controller_of_getElem? hc₀]
      exact hc base hcached
    · exact hcached
  have honController : Action.onController j (fun _ => c) m =
      .ok () (m.mapController j fun _ => c) := rfl
  unfold Action.replaceController
  rw [leaves_bind_of_ok honController]
  have hnote := Action.keeps_note (P := fun m' => Settled i m' ∧ m'.hardware = m.hardware)
    (fun _ _ h => ⟨⟨h.1.silent, h.1.uninterrupted, h.1.coherent⟩, h.2⟩) n
  exact hnote.bind (fun _ => keeps_pure _) _ ⟨hmap, rfl⟩

theorem Controller.window_of_transition {c c' : Controller} {request : Request}
    {source target : Phase} (h : c.transition request source target = .ok c') :
    c'.window = c.window := by
  unfold transition at h
  split at h
  · cases h
    rfl
  · cases h

theorem Controller.cached_of_tryInvalidate {c c' : Controller} (h : c.tryInvalidate = some c') :
    c'.window.cached = none := by
  unfold tryInvalidate at h
  split at h
  · cases h
  · cases h
    rfl

/-- A controller is right about the window in every phase, and no phase touches the device. -/
theorem Settled.init (h : Settled i m) (j : Nat) : Settled i (leaves (Action.init j) m) ∧
    (leaves (Action.init j : Action Device _) m).hardware = m.hardware := by
  unfold Action.init
  rw [leaves, run_get_bind, ← leaves]
  cases hready : (m.controller j).transition .init .constructed .initialized with
  | error cause => exact ⟨h, rfl⟩
  | ok ready =>
    apply h.replaceController _
    intro base hcached
    rwa [Controller.window_of_transition hready] at hcached

theorem Settled.suspend (h : Settled i m) (j : Nat) : Settled i (leaves (Action.suspend j) m) ∧
    (leaves (Action.suspend j : Action Device _) m).hardware = m.hardware := by
  unfold Action.suspend
  rw [leaves, run_get_bind, ← leaves]
  cases hasleep : (m.controller j).transition .suspend .initialized .suspended with
  | error cause => exact ⟨h, rfl⟩
  | ok asleep =>
    dsimp only
    cases hforgets : asleep.tryInvalidate with
    | none => exact ⟨h, rfl⟩
    | some forgetful =>
      apply h.replaceController _
      intro base hcached
      rw [Controller.cached_of_tryInvalidate hforgets] at hcached
      cases hcached

theorem Settled.resume (h : Settled i m) (j : Nat) : Settled i (leaves (Action.resume j) m) ∧
    (leaves (Action.resume j : Action Device _) m).hardware = m.hardware := by
  unfold Action.resume
  rw [leaves, run_get_bind, ← leaves]
  cases hawake : (m.controller j).transition .resume .suspended .initialized with
  | error cause => exact ⟨h, rfl⟩
  | ok awake =>
    apply h.replaceController _
    intro base hcached
    rwa [Controller.window_of_transition hawake] at hcached

end InstanceMemory
