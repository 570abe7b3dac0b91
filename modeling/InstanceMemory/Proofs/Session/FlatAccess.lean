import InstanceMemory.Proofs.Machine.Selection
import InstanceMemory.Proofs.Session.Runs

/-!
# Windowed access is flat access

The commands on a controller's window reach past the objects, to any address at all. `Device.access`
is what they would do to a device that needs no window: an access goes to the device address, without
the bits that play no part, and to forget a window is to do nothing.

Take any device, and a controller that knows nothing of the window yet and is the only one to move
it. Then no sequence of commands can tell the two apart (`Session.window_refines_flat`): all answers
and faults are the same, and so is the device, but for the window register and how often it was
written. What carries the induction is that the controller is right about the register
(`Window.Faithful`), whatever it was told to forget.
-/

set_option autoImplicit false

namespace InstanceMemory

open Simulator (Config Device Move)

/-- The answers of steps taken in turn, and the state after them. -/
def transcript {κ σ α : Type} (step : κ → σ → α × σ) : List κ → σ → List α × σ
  | [], s => ([], s)
  | k :: rest, s =>
    let (answer, s) := step k s
    let (answers, s) := transcript step rest s
    (answer :: answers, s)

/-- One step more comes last. -/
theorem transcript_concat {κ σ α : Type} (step : κ → σ → α × σ) (ks : List κ) (k : κ) (s : σ) :
    transcript step (ks ++ [k]) s =
      ((transcript step ks s).1 ++ [(step k (transcript step ks s).2).1],
        (step k (transcript step ks s).2).2) := by
  induction ks generalizing s with
  | nil => rfl
  | cons first rest ih => simp only [List.cons_append, transcript, ih]

/-- The controller that a command on a window names. -/
def WindowCommand.controller : WindowCommand → String
  | .invalidate name | .tryInvalidate name | .read name _ | .write name _ _ => name

namespace Simulator.Device

/-- What a command on a window answers, and does, on a device that needs no window. -/
def access (command : WindowCommand) (d : Device) : Outcome Reply × Device :=
  match command with
  | .invalidate _ => (.reply .nothing, d)
  | .tryInvalidate _ => (.reply (.flag true), d)
  | .read _ address =>
    match d.read (address % windowedLimit) with
    | .ok value => (.reply (.word value), d)
    | .error f => (.faulted f, d)
  | .write _ address value =>
    match write (address % windowedLimit) value d with
    | .ok () d => (.reply .nothing, d)
    | .error f d => (.faulted f, d)

end Simulator.Device

/-- A window that is not held, and that selects the base it is trusted with. -/
structure Window.Faithful (w : Window) (d : Device) : Prop where
  released : w.isHeld = false
  selected : ∀ base, w.cached = some base →
    d.window = windowSelector base ∧ ∃ address, base = windowBase address

namespace Session

/-- The answers of commands on windows, and the session after them. -/
def operateWindows (commands : List WindowCommand) (session : Session Device) :
    List (Outcome Reply) × Session Device :=
  transcript (fun command => outcome (operateWindow command)) commands session

variable {session : Session Device} {gpu : String} {i : Nat} {flat : Device}
  {commands : List WindowCommand}

/-- A session whose controller is right about the window, and whose device is a flat one but for the
window. -/
structure Mirrors (gpu : String) (i : Nat) (flat : Device) (session : Session Device) : Prop where
  quiet : Quiet session.machine
  named : session.controllers.get? gpu = some i
  faithful : ∃ c, session.machine.controllers[i]? = some c ∧
    c.window.Faithful session.machine.hardware
  device : ∃ window windowWrites, session.machine.hardware = { flat with window, windowWrites }

namespace Mirrors

/-- Once a window is selected, the device is the flat one with that window. -/
theorem exists_selecting (h : Mirrors gpu i flat session) (address : Nat) : ∃ windowWrites,
    session.machine.hardware.selecting (session.machine.trusted i) (windowBase address) =
      { flat with window := windowSelector (windowBase address), windowWrites } := by
  obtain ⟨c, hc, hfaithful⟩ := h.faithful
  obtain ⟨before, count, hdevice⟩ := h.device
  have hwindow : (session.machine.hardware.selecting (session.machine.trusted i)
      (windowBase address)).window = windowSelector (windowBase address) := by
    apply Device.window_selecting
    intro htrusted
    rw [Machine.trusted_of_getElem? hc] at htrusted
    exact (hfaithful.selected _ htrusted).1
  obtain ⟨window, windowWrites, hselecting⟩ := Device.exists_selecting
    (session.machine.trusted i) (windowBase address) session.machine.hardware
  rw [hselecting] at hwindow ⊢
  exact ⟨windowWrites, by rw [← hwindow, hdevice]⟩

/-- An access leaves the controller right about the window it has selected. -/
theorem showing (h : Mirrors gpu i flat session) (address : Nat) (later : Device)
    (windowWrites : Nat) (journal : Journal) :
    Mirrors gpu i later { session with machine :=
      { session.machine.showing i (windowBase address) with
        hardware := { later with window := windowSelector (windowBase address), windowWrites }
        journal } } := by
  obtain ⟨c, hc, -⟩ := h.faithful
  refine ⟨⟨h.quiet.silent, h.quiet.uninterrupted⟩, h.named,
    ⟨{ c with window := ⟨some (windowBase address), false⟩ }, ?_, rfl, ?_⟩, _, _, rfl⟩
  · have hshown := Machine.getElem?_mapController session.machine i i
      fun c => { c with window := ⟨some (windowBase address), false⟩ }
    rwa [hc, Option.map_some, if_pos rfl] at hshown
  · intro base hbase
    obtain rfl := Option.some.inj hbase
    exact ⟨rfl, address, rfl⟩

/-- To forget the window leaves the controller right about it. -/
theorem forget (h : Mirrors gpu i flat session) {f : Controller → Controller}
    (hf : ∀ c, c.window.isHeld = false → (f c).window = .unknown) :
    Mirrors gpu i flat { session with machine := session.machine.mapController i f } := by
  obtain ⟨c, hc, hfaithful⟩ := h.faithful
  refine ⟨⟨h.quiet.silent, h.quiet.uninterrupted⟩, h.named, ⟨f c, ?_, ?_⟩, h.device⟩
  · have hforgotten := Machine.getElem?_mapController session.machine i i f
    rwa [hc, Option.map_some, if_pos rfl] at hforgotten
  · rw [hf c hfaithful.released]
    exact ⟨rfl, fun base hbase => by cases hbase⟩

/-- **A read through the window answers as the flat device does.** -/
theorem read (h : Mirrors gpu i flat session) (address : Nat) :
    (outcome (operateWindow (.read gpu address)) session).1 = (flat.access (.read gpu address)).1 ∧
      Mirrors gpu i (flat.access (.read gpu address)).2
        (outcome (operateWindow (.read gpu address)) session).2 := by
  obtain ⟨windowWrites, hselecting⟩ := h.exists_selecting address
  have hregister : Device.readRegister
      { flat with window := windowSelector (windowBase address), windowWrites }
        (apertureRegister + windowOffset address) = flat.read (address % windowedLimit) := by
    rw [Device.readRegister_of_shown (Device.shownAddress_of_window rfl), Device.read_setWindow]
  rw [outcome, operateWindow, run_withController_of_some h.named, Device.access]
  cases hread : flat.read (address % windowedLimit) with
  | error f =>
    have hplatform : (Platform.readRegister (apertureRegister + windowOffset address) :
        EStateM Fault Device UInt32) (session.machine.hardware.selecting
          (session.machine.trusted i) (windowBase address)) = .error f
        { flat with window := windowSelector (windowBase address), windowWrites } := by
      simp only [hselecting, Platform.readRegister, hregister, hread]
    have hact : Action.readWindowed i address session.machine = .error f _ :=
      h.quiet.throughWindow_of_error (fun m hm => hm.readRegister _) hplatform
    rw [run_bind_of_error (onMachine_of_error hact)]
    exact ⟨rfl, h.showing address flat windowWrites session.machine.journal⟩
  | ok value =>
    have hplatform : (Platform.readRegister (apertureRegister + windowOffset address) :
        EStateM Fault Device UInt32) (session.machine.hardware.selecting
          (session.machine.trusted i) (windowBase address)) = .ok value
        { flat with window := windowSelector (windowBase address), windowWrites } := by
      simp only [hselecting, Platform.readRegister, hregister, hread]
    obtain ⟨journal, hact⟩ : ∃ journal, Action.readWindowed i address session.machine =
        .ok value { session.machine.showing i (windowBase address) with hardware := _, journal } :=
      h.quiet.throughWindow_of_ok (fun m hm => hm.readRegister _) hplatform
    rw [run_bind_of_ok (onMachine_of_ok hact)]
    exact ⟨rfl, h.showing address flat windowWrites journal⟩

/-- **A write through the window writes what the flat device does**, and nothing else. -/
theorem write (h : Mirrors gpu i flat session) (address : Nat) (value : UInt32) :
    (outcome (operateWindow (.write gpu address value)) session).1 =
        (flat.access (.write gpu address value)).1 ∧
      Mirrors gpu i (flat.access (.write gpu address value)).2
        (outcome (operateWindow (.write gpu address value)) session).2 := by
  obtain ⟨windowWrites, hselecting⟩ := h.exists_selecting address
  have hregister : Device.writeRegister (apertureRegister + windowOffset address) value
      { flat with window := windowSelector (windowBase address), windowWrites } =
        Device.overWindow (windowSelector (windowBase address)) windowWrites
          (Device.write (address % windowedLimit) value flat) := by
    rw [Device.writeRegister_of_shown (Device.shownAddress_of_window rfl), Device.write_setWindow]
  rw [outcome, operateWindow, run_withController_of_some h.named, Device.access]
  cases hwrite : Device.write (address % windowedLimit) value flat with
  | error f later =>
    have hplatform : (Platform.writeRegister (apertureRegister + windowOffset address) value :
        EStateM Fault Device Unit) (session.machine.hardware.selecting
          (session.machine.trusted i) (windowBase address)) = .error f
        { later with window := windowSelector (windowBase address), windowWrites } := by
      simp only [hselecting, Platform.writeRegister, hregister, hwrite, Device.overWindow]
    have hact : Action.writeWindowed i address value session.machine = .error f _ :=
      h.quiet.throughWindow_of_error (fun m hm => hm.writeRegister _ value) hplatform
    rw [run_bind_of_error (onMachine_of_error hact)]
    exact ⟨rfl, h.showing address later windowWrites session.machine.journal⟩
  | ok _ later =>
    have hplatform : (Platform.writeRegister (apertureRegister + windowOffset address) value :
        EStateM Fault Device Unit) (session.machine.hardware.selecting
          (session.machine.trusted i) (windowBase address)) = .ok ()
        { later with window := windowSelector (windowBase address), windowWrites } := by
      simp only [hselecting, Platform.writeRegister, hregister, hwrite, Device.overWindow]
    obtain ⟨journal, hact⟩ : ∃ journal, Action.writeWindowed i address value session.machine =
        .ok () { session.machine.showing i (windowBase address) with hardware := _, journal } :=
      h.quiet.throughWindow_of_ok (fun m hm => hm.writeRegister _ value) hplatform
    rw [run_bind_of_ok (onMachine_of_ok hact)]
    exact ⟨rfl, h.showing address later windowWrites journal⟩

/-- **No command on the window tells the device from the flat one.** -/
theorem step (h : Mirrors gpu i flat session) {command : WindowCommand}
    (hcommand : command.controller = gpu) :
    (outcome (operateWindow command) session).1 = (flat.access command).1 ∧
      Mirrors gpu i (flat.access command).2 (outcome (operateWindow command) session).2 := by
  cases command with
  | invalidate name =>
    obtain rfl : name = gpu := hcommand
    have hact : (Action.invalidate i : Action Device Unit) session.machine = .ok ()
        (session.machine.mapController i fun c => { c with window.cached := none }) := rfl
    rw [outcome, operateWindow, run_withController_of_some h.named,
      run_bind_of_ok (onMachine_of_ok hact)]
    refine ⟨rfl, h.forget ?_⟩
    intro c hheld
    simp only [hheld, Window.unknown]
  | tryInvalidate name =>
    obtain rfl : name = gpu := hcommand
    obtain ⟨c, hc, hfaithful⟩ := h.faithful
    have hforgets : (session.machine.controller i).tryInvalidate =
        some { c with window.cached := none } := by
      rw [Machine.controller_of_getElem? hc, Controller.tryInvalidate, hfaithful.released]
      rfl
    have hact : (Action.tryInvalidate i : Action Device Bool) session.machine = .ok true
        (session.machine.mapController i fun _ => { c with window.cached := none }) := by
      rw [Action.tryInvalidate, run_get_bind, hforgets]
      rfl
    rw [outcome, operateWindow, run_withController_of_some h.named,
      run_bind_of_ok (onMachine_of_ok hact)]
    refine ⟨rfl, h.forget ?_⟩
    intro _ _
    simp only [hfaithful.released, Window.unknown]
  | read name address =>
    obtain rfl : name = gpu := hcommand
    exact h.read address
  | write name address value =>
    obtain rfl : name = gpu := hcommand
    exact h.write address value

/-- **No sequence of commands does.** -/
theorem run (h : Mirrors gpu i flat session)
    (hcommands : ∀ command ∈ commands, command.controller = gpu) :
    (operateWindows commands session).1 = (transcript Device.access commands flat).1 ∧
      Mirrors gpu i (transcript Device.access commands flat).2 (operateWindows commands session).2 := by
  induction commands generalizing session flat with
  | nil => exact ⟨rfl, h⟩
  | cons command rest ih =>
    obtain ⟨hcommand, hrest⟩ := List.forall_mem_cons.mp hcommands
    obtain ⟨hanswer, hnext⟩ := h.step hcommand
    obtain ⟨hanswers, hlast⟩ := ih hnext hrest
    exact ⟨congrArg₂ List.cons hanswer hanswers, hlast⟩

end Mirrors

/-- Commands on the window of a controller do what they would do to the device without a window. -/
structure FlatAccess (gpu : String) (i : Nat) (commands : List WindowCommand)
    (session : Session Device) : Prop where
  answers : (operateWindows commands session).1 =
    (transcript Device.access commands session.machine.hardware).1
  device : ∃ window windowWrites, (operateWindows commands session).2.machine.hardware =
    { (transcript Device.access commands session.machine.hardware).2 with window, windowWrites }
  /-- The base that is trusted is that of a window, and the register holds it without its 16 lowest
  bits. -/
  trusted : ∀ base, (operateWindows commands session).2.machine.trusted i = some base →
    windowSize ∣ base ∧ base < windowedLimit ∧
      (operateWindows commands session).2.machine.hardware.window.toNat = base / windowRegisterStep
  /-- A read in the state reached answers what the device itself reads there. -/
  reads : ∀ address value,
    (operateWindows commands session).2.machine.hardware.read (address % windowedLimit) = .ok value →
      (outcome (operateWindow (.read gpu address)) (operateWindows commands session).2).1 =
        .reply (.word value)

/-- **Windowed access refines flat access**, on any device, for a controller that knows nothing of the
window at first and any commands on its window, at any addresses. -/
theorem window_refines_flat {c : Controller} (hquiet : Quiet session.machine)
    (hgpu : session.controllers.get? gpu = some i)
    (hc : session.machine.controllers[i]? = some c) (hunknown : c.window = .unknown)
    (hcommands : ∀ command ∈ commands, command.controller = gpu) :
    FlatAccess gpu i commands session := by
  have hstart : Mirrors gpu i session.machine.hardware session := by
    refine ⟨hquiet, hgpu, ⟨c, hc, ?_⟩, _, _, rfl⟩
    rw [hunknown]
    exact ⟨rfl, fun base hbase => by cases hbase⟩
  obtain ⟨hanswers, hlast⟩ := hstart.run hcommands
  refine ⟨hanswers, hlast.device, ?_, ?_⟩
  · intro base hbase
    obtain ⟨c', hc', hfaithful⟩ := hlast.faithful
    rw [Machine.trusted_of_getElem? hc'] at hbase
    obtain ⟨hwindow, address, rfl⟩ := hfaithful.selected base hbase
    rw [hwindow]
    exact ⟨windowSize_dvd_windowBase address, windowBase_lt address, windowSelector_toNat address⟩
  · intro address value hread
    obtain ⟨window, windowWrites, hdevice⟩ := hlast.device
    rw [hdevice, Device.read_setWindow] at hread
    rw [(hlast.read address).1, Device.access, hread]

/-- Words at an address, at the same address with a bit that plays no part, and one window further. -/
theorem window_refines_flat_aliased : ∃ session : Session Device,
    Simulator.Session.start (Config.systemMemory 0xea) false = .ok session ∧
      FlatAccess "gpu" 0 [.write "gpu" 0x10000000 1, .tryInvalidate "gpu",
        .read "gpu" 0x100010000000, .write "gpu" 0x10100000 2, .invalidate "gpu",
        .read "gpu" 0x10100000] (Simulator.Session.after session (.operation (.build "gpu"))) := by
  have hstart : Simulator.Session.start (Config.systemMemory 0xea) false = .ok _ := rfl
  exact ⟨_, hstart, window_refines_flat ⟨rfl, rfl⟩ rfl rfl rfl (by decide)⟩

end Session
end InstanceMemory
