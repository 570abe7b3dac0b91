import InstanceMemory.Proofs.DeviceMap
import InstanceMemory.Proofs.Machine.Store
import InstanceMemory.Proofs.Simulator.Device

/-!
# One access through the window

What an access through the window does, as one equation. In a machine that is `Quiet`, nothing is
recorded and no interrupt comes in between. There an access of a controller is the device's own access
to the register of the aperture, in the machine that shows the window (`Machine.showing`), and a
notice after it if the window was moved (`Quiet.throughWindow`).

`Device.selecting` says when the window register is written: unless the controller trusts it to
select the window already. Nothing else is asked of the controller, and it trusts the register with
that window from then on.
-/

set_option autoImplicit false

namespace InstanceMemory

open Simulator (Device)

variable {π α : Type} {i base address : Nat}

/-! ## Records of controllers -/

namespace Machine

variable {m : Machine π}

theorem mapController_mapController (m : Machine π) (i : Nat) (f g : Controller → Controller) :
    (m.mapController i f).mapController i g = m.mapController i (g ∘ f) := by
  simp only [mapController, List.modify_modify_eq]

/-- Only what becomes of the record that is there matters. -/
theorem mapController_congr {f g : Controller → Controller}
    (h : ∀ c, m.controllers[i]? = some c → f c = g c) : m.mapController i f = m.mapController i g := by
  have hsame : m.controllers.modify i f = m.controllers.modify i g := by
    apply List.ext_getElem?
    intro j
    rw [List.getElem?_modify, List.getElem?_modify]
    by_cases hij : i = j
    · subst hij
      exact Option.map_congr fun c hc => by rw [if_pos rfl, if_pos rfl, h c hc]
    · simp only [hij, ↓reduceIte]
  simp only [mapController, hsame]

/-- The base that a controller trusts the window register to select. -/
def trusted (m : Machine π) (i : Nat) : Option Nat := (m.controller i).window.cached

theorem trusted_of_getElem? {c : Controller} (h : m.controllers[i]? = some c) :
    m.trusted i = c.window.cached := by
  rw [trusted, controller_of_getElem? h]

/-- A controller that is not on record trusts nothing. -/
theorem trusted_of_length_le (h : m.controllers.length ≤ i) : m.trusted i = none := by
  rw [trusted, controller, List.getD_eq_getElem?_getD, List.getElem?_eq_none h, Option.getD_none]
  rfl

theorem trusted_mapController {f : Controller → Controller}
    (hf : ∀ c, (f c).window.cached = c.window.cached) (m : Machine π) (i j : Nat) :
    (m.mapController j f).trusted i = m.trusted i := by
  by_cases hi : i < m.controllers.length
  · have hc := getElem?_of_lt hi
    have hc' : (m.mapController j f).controllers[i]? = _ := getElem?_mapController m j i f
    rw [hc, Option.map_some] at hc'
    rw [trusted_of_getElem? hc, trusted_of_getElem? hc']
    split
    · exact hf _
    · rfl
  · have hlength : (m.mapController j f).controllers.length = m.controllers.length :=
      List.length_modify _ _ _
    rw [trusted_of_length_le (Nat.le_of_not_lt hi),
      trusted_of_length_le (hlength ▸ Nat.le_of_not_lt hi)]

/-- The phases of the controllers and what they trust can be read from the store. -/
theorem controller_of_store {m m' : Machine Device} (h : m'.store = m.store) (i : Nat) :
    (m'.controller i).store = (m.controller i).store := by
  have hmap : m'.controllers.map (·.store) = m.controllers.map (·.store) := congrArg (·.controllers) h
  have hat := congrArg (·[i]?) hmap
  simp only [List.getElem?_map] at hat
  simp only [controller, List.getD_eq_getElem?_getD]
  cases hc : m.controllers[i]? <;> cases hc' : m'.controllers[i]? <;> rw [hc, hc'] at hat <;>
    first | rfl | exact Option.some.inj hat | cases hat

theorem trusted_of_store {m m' : Machine Device} (h : m'.store = m.store) (i : Nat) :
    m'.trusted i = m.trusted i :=
  congrArg (·.window.cached) (controller_of_store h i)

end Machine

/-! ## The machine that shows a window -/

/-- The base of the window that a byte of an object is seen through. -/
def InstanceObject.window (o : InstanceObject) (offset : Nat) : Nat := windowBase (o.offset + offset)

/-- The device once a window is selected for someone who trusts the register to select some base. -/
def Simulator.Device.selecting (trusted : Option Nat) (base : Nat) (d : Device) : Device :=
  if trusted = some base then d
  else { d with window := windowSelector base, windowWrites := d.windowWrites + 1 }

theorem Simulator.Device.selecting_of_eq {trusted : Option Nat} (h : trusted = some base)
    (d : Device) : d.selecting trusted base = d := if_pos h

theorem Simulator.Device.selecting_of_ne {trusted : Option Nat} (h : trusted ≠ some base)
    (d : Device) : d.selecting trusted base =
      { d with window := windowSelector base, windowWrites := d.windowWrites + 1 } := if_neg h

/-- All that a selection changes of the device is the window register, and how often it was written. -/
theorem Simulator.Device.exists_selecting (trusted : Option Nat) (base : Nat) (d : Device) :
    ∃ window windowWrites, d.selecting trusted base = { d with window, windowWrites } := by
  by_cases h : trusted = some base
  · exact ⟨d.window, d.windowWrites, selecting_of_eq h d⟩
  · exact ⟨_, _, selecting_of_ne h d⟩

/-- The register holds the window that was selected, unless it was trusted in vain. -/
theorem Simulator.Device.window_selecting {trusted : Option Nat} {d : Device}
    (h : trusted = some base → d.window = windowSelector base) :
    (d.selecting trusted base).window = windowSelector base := by
  by_cases htrusted : trusted = some base
  · rw [selecting_of_eq htrusted, h htrusted]
  · rw [selecting_of_ne htrusted]

/-- The aperture shows an address within the window that the register selects. -/
theorem Simulator.Device.shownAddress?_aperture (d : Device) (address : Nat) :
    d.shownAddress? (apertureRegister + windowOffset address) =
      some (d.selectedBase + windowOffset address) := by
  have hoffset := windowOffset_lt address
  rw [shownAddress?, if_pos (by omega), Nat.add_sub_cancel_left]

/-- The aperture shows an address once its window is selected. -/
theorem Simulator.Device.shownAddress_of_window {d : Device}
    (h : d.window = windowSelector (windowBase address)) :
    d.shownAddress? (apertureRegister + windowOffset address) = some (address % windowedLimit) := by
  rw [shownAddress?_aperture, selectedBase, h, window_shows]

/-- The machine once a window is selected for a controller. -/
def Machine.showing (m : Machine Device) (i base : Nat) : Machine Device :=
  { m.mapController i fun c => { c with window := ⟨some base, false⟩ } with
    hardware := m.hardware.selecting (m.trusted i) base }

/-! ## Quiet machines -/

/-- Nothing is recorded, and nothing interrupts an access. -/
structure Quiet (m : Machine Device) : Prop where
  silent : m.trace.isRecording = false
  uninterrupted : m.interrupt = none

namespace Quiet

variable {m m' : Machine Device}

theorem of_store (h : Quiet m) (hstore : m'.store = m.store) : Quiet m' :=
  ⟨(congrArg (·.trace.isRecording) hstore).trans h.silent,
    (congrArg (·.interrupt) hstore).trans h.uninterrupted⟩

theorem record (h : Quiet m) (call : Call) : Action.record call m = .ok () m :=
  Action.record_of_silent h.silent call

theorem serveInterrupt (h : Quiet m) : Action.serveInterrupt m = .ok () m := by
  unfold Action.serveInterrupt
  rw [run_get_bind, h.uninterrupted]
  rfl

/-- A register is read as the device reads it. -/
theorem readRegister (h : Quiet m) (register : Nat) :
    Action.readRegister register m = Action.onHardware (Platform.readRegister register) m := by
  unfold Action.readRegister
  rw [run_bind_of_ok h.serveInterrupt]
  cases hread : Action.onHardware (Platform.readRegister register) m with
  | error f m' => exact run_bind_of_error hread _
  | ok value m' =>
    have h' : Quiet m' := by
      have hkeeps : Keeps Quiet (Action.onHardware (Platform.readRegister register)) :=
        Action.keeps_onHardware fun m h => ⟨h.silent, h.uninterrupted⟩
      exact hkeeps.of_ok h hread
    rw [run_bind_of_ok hread, run_bind_of_ok (h'.record _)]
    rfl

/-- A register is written as the device writes it. -/
theorem writeRegister (h : Quiet m) (register : Nat) (value : UInt32) :
    Action.writeRegister register value m =
      Action.onHardware (Platform.writeRegister register value) m := by
  unfold Action.writeRegister
  rw [run_bind_of_ok h.serveInterrupt]
  cases hwrite : Action.onHardware (Platform.writeRegister register value) m with
  | error f m' => exact run_bind_of_error hwrite _
  | ok _ m' =>
    have h' : Quiet m' := by
      have hkeeps : Keeps Quiet (Action.onHardware (Platform.writeRegister register value)) :=
        Action.keeps_onHardware fun m h => ⟨h.silent, h.uninterrupted⟩
      exact hkeeps.of_ok h hwrite
    rw [run_bind_of_ok hwrite]
    exact h'.record _

/-- A selection shows the window, which is held meanwhile. -/
theorem selectWindow (h : Quiet m) (i base : Nat) :
    Action.selectWindow i base (m.mapController i fun c => { c with window.isHeld := true }) =
      .ok (decide (m.trusted i ≠ some base))
        { m.mapController i fun c => { c with window := ⟨some base, true⟩ } with
          hardware := m.hardware.selecting (m.trusted i) base } := by
  have htrusted : ((m.mapController i fun c => { c with window.isHeld := true }).controller
      i).window.cached = m.trusted i :=
    Machine.trusted_mapController (f := fun c => { c with window.isHeld := true }) (fun _ => rfl) m i i
  unfold Action.selectWindow
  rw [run_get_bind, htrusted]
  by_cases hcached : m.trusted i = some base
  · have hsame : m.mapController i (fun c => { c with window.isHeld := true }) =
        m.mapController i fun c => { c with window := ⟨some base, true⟩ } := by
      apply Machine.mapController_congr
      intro c hc
      rw [Machine.trusted_of_getElem? hc] at hcached
      simp only [hcached]
    rw [if_pos hcached, Device.selecting_of_eq hcached, hsame,
      decide_eq_false (not_not.mpr hcached)]
    rfl
  · have h₁ : Quiet (m.mapController i fun c => { c with window.isHeld := true }) :=
      ⟨h.silent, h.uninterrupted⟩
    have hwrite := (h₁.writeRegister windowRegister (windowSelector base)).trans
      (Action.run_onHardware_of_ok (d := m.hardware.selecting (m.trusted i) base) (a := ())
        (congrArg (EStateM.Result.ok ()) (Device.selecting_of_ne hcached m.hardware).symm))
    rw [if_neg hcached, run_bind_of_ok hwrite, decide_eq_true hcached]
    exact congrArg (fun controllers => EStateM.Result.ok true { m with
      controllers, hardware := m.hardware.selecting (m.trusted i) base })
      (List.modify_modify_eq _ _ _ _)

/-- **An access through the window** is the device's own access in the machine that shows the window,
and a notice after it if the window was moved. -/
theorem throughWindow (h : Quiet m) (i address : Nat) {access : Nat → Action Device α}
    {act : EStateM Fault Device α} (haccess : ∀ m, Quiet m →
      access (apertureRegister + windowOffset address) m = Action.onHardware act m) :
    Action.throughWindow i address access m =
      (do
        let answer ← Action.onHardware act
        if decide (m.trusted i ≠ some (windowBase address)) then
          Action.note (.windowMoved (windowBase address))
        return answer : Action Device α) (m.showing i (windowBase address)) := by
  have hhold : Action.onController i (fun c => { c with window.isHeld := true }) m =
      .ok () (m.mapController i fun c => { c with window.isHeld := true }) := rfl
  have hselect := h.selectWindow i (windowBase address)
  -- letting go of the window leaves the record that the machine shows
  have hrelease : ∀ d : Device, Machine.mapController
      { m.mapController i fun c => { c with window := ⟨some (windowBase address), true⟩ } with
        hardware := d } i (fun c => { c with window.isHeld := false }) =
      { m.showing i (windowBase address) with hardware := d } := by
    intro d
    exact congrArg (fun controllers : List Controller => { m with controllers, hardware := d })
      (List.modify_modify_eq _ _ _ _)
  have hquiet : Quiet { m.mapController i fun c =>
      { c with window := ⟨some (windowBase address), true⟩ } with
        hardware := m.hardware.selecting (m.trusted i) (windowBase address) } :=
    ⟨h.silent, h.uninterrupted⟩
  have hregister := haccess _ hquiet
  unfold Action.throughWindow Action.holdingWindow
  dsimp only
  cases hact : act (m.hardware.selecting (m.trusted i) (windowBase address)) with
  | error f d =>
    have hdevice : Action.onHardware act (m.showing i (windowBase address)) =
        .error f { m.showing i (windowBase address) with hardware := d } := by
      simp only [Action.onHardware, Machine.showing, hact]
    have haccessed : Action.accessSelected i address access
        (m.mapController i fun c => { c with window.isHeld := true }) = .error f
          { m.mapController i fun c => { c with window := ⟨some (windowBase address), true⟩ } with
            hardware := d } := by
      unfold Action.accessSelected
      rw [run_bind_of_ok hselect]
      apply run_bind_of_error
      rw [hregister]
      simp only [Action.onHardware, hact]
    rw [run_bind_of_error hdevice]
    apply run_bind_of_error
    rw [run_bind_of_ok hhold, Action.andFinally, haccessed]
    exact congrArg (EStateM.Result.error f) (hrelease d)
  | ok answer d =>
    have hdevice : Action.onHardware act (m.showing i (windowBase address)) =
        .ok answer { m.showing i (windowBase address) with hardware := d } :=
      Action.run_onHardware_of_ok hact
    have haccessed : Action.accessSelected i address access
        (m.mapController i fun c => { c with window.isHeld := true }) =
          .ok (decide (m.trusted i ≠ some (windowBase address)), answer)
            { m.mapController i fun c => { c with window := ⟨some (windowBase address), true⟩ } with
              hardware := d } := by
      unfold Action.accessSelected
      rw [run_bind_of_ok hselect, run_bind_of_ok (hregister.trans (Action.run_onHardware_of_ok hact))]
      rfl
    have hheld : Action.andFinally (Action.accessSelected i address access)
        (·.mapController i fun c => { c with window.isHeld := false })
        (m.mapController i fun c => { c with window.isHeld := true }) =
          .ok (decide (m.trusted i ≠ some (windowBase address)), answer)
            { m.showing i (windowBase address) with hardware := d } := by
      rw [Action.andFinally, haccessed]
      exact congrArg (EStateM.Result.ok _) (hrelease d)
    rw [run_bind_of_ok hdevice, run_bind_of_ok ((run_bind_of_ok hhold _).trans hheld)]

/-- An access that the device answers is answered, and leaves the machine with the window shown. -/
theorem throughWindow_of_ok (h : Quiet m) {access : Nat → Action Device α}
    {act : EStateM Fault Device α} (haccess : ∀ m, Quiet m →
      access (apertureRegister + windowOffset address) m = Action.onHardware act m)
    {answer : α} {d : Device}
    (hact : act (m.hardware.selecting (m.trusted i) (windowBase address)) = .ok answer d) :
    ∃ journal, Action.throughWindow i address access m =
      .ok answer { m.showing i (windowBase address) with hardware := d, journal } := by
  have hdevice : Action.onHardware act (m.showing i (windowBase address)) =
      .ok answer { m.showing i (windowBase address) with hardware := d } :=
    Action.run_onHardware_of_ok hact
  rw [h.throughWindow i address haccess, run_bind_of_ok hdevice]
  by_cases hmoved : m.trusted i = some (windowBase address)
  · rw [decide_eq_false (not_not.mpr hmoved)]
    exact ⟨m.journal, rfl⟩
  · obtain ⟨journal, hnote⟩ := Action.note_of_text (n := .windowMoved (windowBase address)) rfl
      { m.showing i (windowBase address) with hardware := d }
    rw [decide_eq_true hmoved, if_pos rfl, run_bind_of_ok hnote]
    exact ⟨journal, rfl⟩

/-- An access that faults on the device faults, and leaves the machine with the window shown. -/
theorem throughWindow_of_error (h : Quiet m) {access : Nat → Action Device α}
    {act : EStateM Fault Device α} (haccess : ∀ m, Quiet m →
      access (apertureRegister + windowOffset address) m = Action.onHardware act m)
    {f : Fault} {d : Device}
    (hact : act (m.hardware.selecting (m.trusted i) (windowBase address)) = .error f d) :
    Action.throughWindow i address access m =
      .error f { m.showing i (windowBase address) with hardware := d } := by
  have hdevice : Action.onHardware act (m.showing i (windowBase address)) =
      .error f { m.showing i (windowBase address) with hardware := d } := by
    simp only [Action.onHardware, Machine.showing, hact]
  rw [h.throughWindow i address haccess, run_bind_of_error hdevice]

end Quiet
end InstanceMemory
