import InstanceMemory.Proofs.Machine.Selection

/-!
# Through the window

A controller that trusts the window register must be right about it. In a machine that is `Settled`
for a controller, no interrupt is pending and the register holds the window that the controller
remembers, if it remembers one. From such a machine an access through the window reaches the device
address it is meant for, whether the window has to be moved or not (`Settled.throughWindow`), and the
machine is settled again afterwards.
-/

set_option autoImplicit false

namespace InstanceMemory

open Simulator (Device)

/-- Nothing interrupts an access, and a controller is right about the window register. -/
structure Settled (i : Nat) (m : Machine Device) : Prop where
  silent : m.trace.isRecording = false
  uninterrupted : m.interrupt = none
  coherent : ∀ (c : Controller) (base : Nat), m.controllers[i]? = some c →
    c.window.cached = some base → m.hardware.window = windowSelector base

variable {α : Type} {i address : Nat} {m m' : Machine Device}

namespace Settled

/-! ## What keeps a machine settled -/

/-- Whether a machine is settled can be read from its store. -/
theorem of_store (h : Settled i m) (hstore : m'.store = m.store) : Settled i m' := by
  refine ⟨?_, (congrArg (·.interrupt) hstore).trans h.uninterrupted, ?_⟩
  · exact (congrArg (·.trace.isRecording) hstore).trans h.silent
  · intro c' base hc' hcached
    obtain ⟨c, hc, hsame⟩ := exists_getElem?_of_map_eq (congrArg (·.controllers) hstore) hc'
    have hwindow : c.window = c'.window := congrArg (·.window) hsame
    have hregister : m'.hardware.window = m.hardware.window := congrArg (·.hardware.window) hstore
    rw [hregister]
    exact h.coherent c base hc (hwindow ▸ hcached)

theorem mapController {f : Controller → Controller} (h : Settled i m)
    (hf : ∀ c, (f c).window.cached = c.window.cached) (j : Nat) : Settled i (m.mapController j f) := by
  refine ⟨h.silent, h.uninterrupted, ?_⟩
  intro c' base hc' hcached
  rw [Machine.getElem?_mapController, Option.map_eq_some_iff] at hc'
  obtain ⟨c, hc, rfl⟩ := hc'
  apply h.coherent c base hc
  split at hcached
  · exact (hf c).symm.trans hcached
  · exact hcached

/-- A change of the device that leaves the window register alone. -/
theorem setHardware (h : Settled i m) {d : Device} (hd : d.window = m.hardware.window) :
    Settled i { m with hardware := d } :=
  ⟨h.silent, h.uninterrupted, fun c base hc hcached => hd.trans (h.coherent c base hc hcached)⟩

theorem note (h : Settled i m) {n : Notice} {text : String} (hn : n.text = .ok text) :
    ∃ m', Action.note n m = .ok () m' ∧ Settled i m' ∧ m'.hardware = m.hardware := by
  obtain ⟨journal, hnote⟩ := Action.note_of_text hn m
  exact ⟨_, hnote, ⟨h.silent, h.uninterrupted, h.coherent⟩, rfl⟩

theorem quiet (h : Settled i m) : Quiet m := ⟨h.silent, h.uninterrupted⟩

theorem record (h : Settled i m) (call : Call) : Action.record call m = .ok () m :=
  h.quiet.record call

theorem serveInterrupt (h : Settled i m) : Action.serveInterrupt m = .ok () m :=
  h.quiet.serveInterrupt

/-! ## Registers -/

theorem readRegister (h : Settled i m) {register : Nat} {value : UInt32}
    (hread : m.hardware.readRegister register = .ok value) :
    Action.readRegister register m = .ok value m := by
  have hplatform : (Platform.readRegister register : EStateM Fault Device UInt32) m.hardware =
      .ok value m.hardware := by
    simp only [Platform.readRegister, hread]
  exact (h.quiet.readRegister register).trans (Action.run_onHardware_of_ok hplatform)

theorem writeRegister (h : Settled i m) {register : Nat} {value : UInt32} {d : Device}
    (hwrite : Device.writeRegister register value m.hardware = .ok () d) :
    Action.writeRegister register value m = .ok () { m with hardware := d } :=
  (h.quiet.writeRegister register value).trans (Action.run_onHardware_of_ok hwrite)

/-! ## The window -/

/-- A window that a controller remembers is that of the register; one that is not on record
remembers none. -/
theorem window_of_cached (h : Settled i m) {base : Nat}
    (hcached : (m.controller i).window.cached = some base) :
    m.hardware.window = windowSelector base := by
  by_cases hi : i < m.controllers.length
  · exact h.coherent _ base (Machine.getElem?_of_lt hi) hcached
  · have hdefault : m.controller i = default := by
      rw [Machine.controller, List.getD_eq_getElem?_getD,
        List.getElem?_eq_none (Nat.le_of_not_lt hi), Option.getD_none]
    rw [hdefault] at hcached
    cases hcached

/-- **The register holds the window that was selected**, whether it was written for it or not. -/
theorem selectWindow (h : Settled i m) (base : Nat) :
    ∃ moved writes m', Action.selectWindow i base m = .ok moved m' ∧ Settled i m' ∧
      m'.hardware =
        { m.hardware with window := windowSelector base, windowWrites := writes } := by
  unfold Action.selectWindow
  rw [run_get_bind]
  by_cases hcached : (m.controller i).window.cached = some base
  · rw [if_pos hcached]
    refine ⟨false, m.hardware.windowWrites, m, rfl, h, ?_⟩
    rw [← h.window_of_cached hcached]
  · rw [if_neg hcached]
    -- between the register and the record the controller need not be right
    have hwrite : Device.writeRegister windowRegister (windowSelector base) m.hardware =
        .ok () { m.hardware with
          window := windowSelector base, windowWrites := m.hardware.windowWrites + 1 } := by
      simp only [Device.writeRegister, ↓reduceIte]
    have hregister := h.writeRegister hwrite
    rw [run_bind_of_ok hregister]
    refine ⟨true, m.hardware.windowWrites + 1, _, rfl, ⟨h.silent, h.uninterrupted, ?_⟩, rfl⟩
    intro c' other hc' hother
    rw [Machine.getElem?_mapController, Option.map_eq_some_iff] at hc'
    obtain ⟨c₀, -, rfl⟩ := hc'
    rw [if_pos rfl] at hother
    obtain rfl := Option.some.inj hother
    rfl

/-- The aperture shows an address once its window is selected. -/
theorem shownAddress_of_window {d : Device} (haddress : address < windowedLimit)
    (hwindow : d.window = windowSelector (windowBase address)) :
    d.shownAddress? (apertureRegister + windowOffset address) = some address := by
  rw [Device.shownAddress_of_window hwindow, Nat.mod_eq_of_lt haddress]

/-- **An access through the window reaches the address it is meant for**, and leaves the machine
settled if the access through the register does. -/
theorem throughWindow {access : Nat → Action Device α} {a : α} {P : Device → Prop}
    (h : Settled i m) (haccess : ∀ writes m₁, Settled i m₁ → m₁.hardware = { m.hardware with
        window := windowSelector (windowBase address), windowWrites := writes } →
      ∃ m₂, access (apertureRegister + windowOffset address) m₁ = .ok a m₂ ∧ Settled i m₂ ∧
        P m₂.hardware) :
    ∃ m', Action.throughWindow i address access m = .ok a m' ∧ Settled i m' ∧ P m'.hardware := by
  have hhold : Action.onController i (fun c => { c with window.isHeld := true }) m =
      .ok () (m.mapController i fun c => { c with window.isHeld := true }) := rfl
  have h₀ : Settled i (m.mapController i fun c => { c with window.isHeld := true }) := by
    refine h.mapController ?_ i
    intro c
    rfl
  obtain ⟨moved, writes, m₁, hselect, h₁, hhardware⟩ := h₀.selectWindow (windowBase address)
  obtain ⟨m₂, hact, h₂, hP⟩ := haccess writes m₁ h₁ hhardware
  have hinner : Action.accessSelected i address access
      (m.mapController i fun c => { c with window.isHeld := true }) = .ok (moved, a) m₂ := by
    unfold Action.accessSelected
    rw [run_bind_of_ok hselect, run_bind_of_ok hact]
    rfl
  have h₃ : Settled i (m₂.mapController i fun c => { c with window.isHeld := false }) := by
    refine h₂.mapController ?_ i
    intro c
    rfl
  have hholding : Action.holdingWindow i (Action.accessSelected i address access) m =
      .ok (moved, a) (m₂.mapController i fun c => { c with window.isHeld := false }) := by
    unfold Action.holdingWindow
    rw [run_bind_of_ok hhold, Action.andFinally, hinner]
  unfold Action.throughWindow
  dsimp only
  rw [run_bind_of_ok hholding]
  dsimp only
  cases moved with
  | false => exact ⟨_, rfl, h₃, hP⟩
  | true =>
    obtain ⟨m₄, hnote, h₄, hsame⟩ := h₃.note (n := .windowMoved (windowBase address)) rfl
    rw [if_pos rfl, run_bind_of_ok hnote]
    exact ⟨m₄, rfl, h₄, hsame ▸ hP⟩

/-- An access through the window keeps what it does not read from the window register, **whether it
answers or faults**, if the access through the register does. -/
theorem keeps_throughWindow {P : Device → Prop}
    (hP : ∀ d window windowWrites, P d → P { d with window, windowWrites })
    {access : Nat → Action Device α} (haccess : Keeps (fun m => Settled i m ∧ P m.hardware)
      (access (apertureRegister + windowOffset address))) :
    Keeps (fun m => Settled i m ∧ P m.hardware) (Action.throughWindow i address access) := by
  have hselect : Keeps (fun m => Settled i m ∧ P m.hardware)
      (Action.selectWindow i (windowBase address)) := by
    intro m ⟨h, hm⟩
    obtain ⟨moved, writes, m', hact, h', hhardware⟩ := h.selectWindow (windowBase address)
    rw [leaves_of_ok hact, hhardware]
    exact ⟨h', hP _ _ _ hm⟩
  have hnote : ∀ n, Keeps (fun m => Settled i m ∧ P m.hardware) (Action.note n) :=
    Action.keeps_note fun _ _ h => ⟨⟨h.1.silent, h.1.uninterrupted, h.1.coherent⟩, h.2⟩
  have hhold : Keeps (fun m => Settled i m ∧ P m.hardware)
      (Action.holdingWindow i (Action.accessSelected i address access)) := by
    unfold Action.holdingWindow
    refine Keeps.bind (Action.keeps_onController fun m h => ⟨h.1.mapController ?_ i, h.2⟩)
      fun _ => Action.keeps_andFinally ?_ fun m h => ⟨h.1.mapController ?_ i, h.2⟩
    · intro c
      rfl
    · exact hselect.bind fun _ => haccess.bind fun _ => keeps_pure _
    · intro c
      rfl
  unfold Action.throughWindow
  apply hhold.bind
  intro moved
  dsimp only
  split
  · exact (hnote _).bind fun _ => keeps_pure _
  · exact keeps_pure _

end Settled
end InstanceMemory
