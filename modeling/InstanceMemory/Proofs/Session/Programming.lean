import InstanceMemory.Proofs.Machine.Programming
import InstanceMemory.Proofs.Session.FlatAccess
import InstanceMemory.Scripted.Session

/-!
# The window register is written exactly when needed

A controller's window is used by commands: words are read and written at any addresses, and the
controller is told to forget the window. `Session.window_programmed` says of every such sequence, on
any platform, **when the window register is written and with what**: for an access unless the command
before it was an access to the same window, right before the aperture is accessed, and for no other
command. So the first access selects its window, as does the first one after the controller was told
to forget, and any other one only if its window differs from that of the access before.

The command before counts as an access only if its window was selected. It was if the command was
answered, and on a platform that answers every access to the window register it always is.

For the words of an object it follows how often the register is written: once for each window that
the words are seen through, but not for the first if it is known to be selected.
-/

set_option autoImplicit false

namespace InstanceMemory

/-! ## Commands -/

namespace WindowCommand

/-- The address that a command accesses; to forget a window accesses none. -/
def address? : WindowCommand → Option Nat
  | .invalidate _ | .tryInvalidate _ => none
  | .read _ address | .write _ address _ => some address

/-- The access to the aperture that a command makes to give an answer. -/
def apertureCall? : WindowCommand → Reply → Option Call
  | .read _ address, .word value =>
    some (.readRegister (apertureRegister + windowOffset address) value)
  | .write _ address value, .nothing =>
    some (.writeRegister (apertureRegister + windowOffset address) value)
  | _, _ => none

/-- The window that the last of some commands accesses, if it accesses one. -/
def lastWindow (commands : List WindowCommand) : Option Nat :=
  (commands.getLast?.bind address?).map windowBase

end WindowCommand

namespace Session

variable {π : Type} [Platform π] {gpu : String} {i : Nat} {session : Session π}
  {command : WindowCommand} {before : List WindowCommand}

/-- The answers of commands on windows, and the session after them. -/
def useWindows (commands : List WindowCommand) (session : Session π) :
    List (Outcome Reply) × Session π :=
  transcript (fun command => outcome (operateWindow command)) commands session

/-- How an access comes out, and which accesses to registers it puts on record, if these calls select
its window. -/
inductive Programmed (command : WindowCommand) (selecting : List Call) (before : Session π) :
    Outcome Reply × Session π → Prop
  | answered {reply : Reply} {call : Call} {after : Session π} :
    command.apertureCall? reply = some call →
    after.machine.registerCalls = before.machine.registerCalls ++ selecting ++ [call] →
    Programmed command selecting before (.reply reply, after)
  /-- The platform faulted over the aperture. -/
  | faulted {f : Fault} {after : Session π} : (∃ register, ¬ Answers π register) →
    after.machine.registerCalls = before.machine.registerCalls ++ selecting →
    Programmed command selecting before (.faulted f, after)
  /-- The platform faulted over the window register. -/
  | lost {f : Fault} {after : Session π} : ¬ Answers π windowRegister → selecting ≠ [] →
    after.machine.registerCalls = before.machine.registerCalls →
    Programmed command selecting before (.faulted f, after)

/-- A recording session with a controller of a name, which trusts the register to select a window and
does not hold it. -/
structure Watched (gpu : String) (i : Nat) (trusted : Option Nat) (session : Session π) : Prop where
  named : session.controllers.get? gpu = some i
  recorded : Recorded i session.machine.registerCalls ⟨trusted, false⟩ session.machine

namespace Watched

variable {trusted : Option Nat} {address : Nat}

omit [Platform π] in
theorem of_recorded {calls : List Call} {m : Machine π} (h : Watched gpu i trusted session)
    {next : Option Nat} (hm : Recorded i calls ⟨next, false⟩ m) :
    Watched gpu i next { session with machine := m } :=
  ⟨h.named, hm.recording, hm.onRecord, hm.window, rfl⟩

/-- After an access its window is trusted, unless the platform faulted over the window register. -/
theorem of_ends {α : Type} {act : Action π α} {call : α → Call}
    (h : Watched gpu i trusted session) (reply : α → Reply)
    (hrun : operateWindow command session =
      (onMachine act >>= fun a => pure (.reply (reply a)) : Step π (Outcome Reply)) session)
    (hcall : ∀ a, command.apertureCall? (reply a) = some (call a))
    (hact : Ends (fun a => Recorded i (session.machine.registerCalls ++
          selection trusted (windowBase address) ++ [call a]) ⟨some (windowBase address), false⟩)
      (Missed i address session.machine.registerCalls trusted) (act session.machine)) :
    Programmed command (selection trusted (windowBase address)) session
        (outcome (operateWindow command) session) ∧
      ∃ next, Watched gpu i next (outcome (operateWindow command) session).2 ∧
        (next = some (windowBase address) ∨ ¬ Answers π windowRegister ∧
          ∃ f, (outcome (operateWindow command) session).1 = .faulted f) := by
  rw [outcome, hrun]
  cases hm : act session.machine with
  | ok a m' =>
    have hrecorded := hact.of_ok hm
    rw [run_bind_of_ok (onMachine_of_ok hm)]
    exact ⟨.answered (hcall a) hrecorded.calls, _, h.of_recorded hrecorded, .inl rfl⟩
  | error f m' =>
    rw [run_bind_of_error (onMachine_of_error hm)]
    cases hact.of_error hm with
    | window htrusted hanswers hrecorded =>
      have hselecting : selection trusted (windowBase address) ≠ [] := by
        rw [selection, if_neg htrusted]
        exact List.cons_ne_nil _ _
      exact ⟨.lost hanswers hselecting hrecorded.calls, _, h.of_recorded hrecorded,
        .inr ⟨hanswers, f, rfl⟩⟩
    | aperture hanswers hrecorded =>
      exact ⟨.faulted ⟨_, hanswers⟩ hrecorded.calls, _, h.of_recorded hrecorded, .inl rfl⟩

/-- **An access selects its window** unless it is trusted to be selected. -/
theorem access (h : Watched gpu i trusted session) (hcommand : command.controller = gpu)
    (haddress : command.address? = some address) :
    Programmed command (selection trusted (windowBase address)) session
        (outcome (operateWindow command) session) ∧
      ∃ next, Watched gpu i next (outcome (operateWindow command) session).2 ∧
        (next = some (windowBase address) ∨ ¬ Answers π windowRegister ∧
          ∃ f, (outcome (operateWindow command) session).1 = .faulted f) := by
  cases command with
  | invalidate name => cases haddress
  | tryInvalidate name => cases haddress
  | read name address =>
    obtain rfl : name = gpu := hcommand
    cases haddress
    exact h.of_ends .word (run_withController_of_some h.named _) (fun _ => rfl)
      (h.recorded.readWindowed address)
  | write name address value =>
    obtain rfl : name = gpu := hcommand
    cases haddress
    exact h.of_ends (fun _ => .nothing) (run_withController_of_some h.named _) (fun _ => rfl)
      (h.recorded.writeWindowed address value)

/-- **A controller that is told to forget the window does**, and touches no register. -/
theorem forget (h : Watched gpu i trusted session) (hcommand : command.controller = gpu)
    (haddress : command.address? = none) :
    (outcome (operateWindow command) session).2.machine.registerCalls =
        session.machine.registerCalls ∧
      Watched gpu i none (outcome (operateWindow command) session).2 := by
  cases command with
  | invalidate name =>
    obtain rfl : name = gpu := hcommand
    have hforgets : Recorded i session.machine.registerCalls ⟨none, false⟩
        (session.machine.mapController i fun c => { c with window.cached := none }) := by
      refine h.recorded.onController (fun c => { c with window.cached := none }) ?_
      rw [h.recorded.window]
    have hact : (Action.invalidate i : Action π Unit) session.machine = .ok () _ := rfl
    rw [outcome, operateWindow, run_withController_of_some h.named,
      run_bind_of_ok (onMachine_of_ok hact)]
    exact ⟨rfl, h.of_recorded hforgets⟩
  | tryInvalidate name =>
    obtain rfl : name = gpu := hcommand
    let c : Controller := { session.machine.controller i with window.cached := none }
    have hreleased : ¬ (session.machine.controller i).window.isHeld = true := by
      rw [h.recorded.window]
      exact Bool.false_ne_true
    have hc : (session.machine.controller i).tryInvalidate = some c := if_neg hreleased
    have hforgets : Recorded i session.machine.registerCalls ⟨none, false⟩
        (session.machine.mapController i fun _ => c) := by
      refine h.recorded.onController (fun _ => c) ?_
      simp only [c, h.recorded.window]
    have hact : (Action.tryInvalidate i : Action π Bool) session.machine =
        .ok true (session.machine.mapController i fun _ => c) := by
      rw [Action.tryInvalidate, run_get_bind, hc]
      rfl
    rw [outcome, operateWindow, run_withController_of_some h.named,
      run_bind_of_ok (onMachine_of_ok hact)]
    exact ⟨rfl, h.of_recorded hforgets⟩
  | read name address => cases haddress
  | write name address value => cases haddress

/-- **What is trusted after commands** is the window that the last of them accesses, unless the
platform faulted over the window register. -/
theorem run (h : Watched gpu i none session)
    (hbefore : ∀ command ∈ before, command.controller = gpu) :
    ∃ trusted, Watched gpu i trusted (useWindows before session).2 ∧
      ((∀ f, (useWindows before session).1.getLast? = some (.faulted f) →
        Answers π windowRegister) → trusted = WindowCommand.lastWindow before) := by
  induction before using List.reverseRecOn with
  | nil => exact ⟨none, h, fun _ => rfl⟩
  | append_singleton before command ih =>
    obtain ⟨trusted, hwatched, -⟩ := ih fun c hc => hbefore c (List.mem_append_left _ hc)
    have hcommand := hbefore command (List.mem_append_right _ List.mem_cons_self)
    have hlast : WindowCommand.lastWindow (before ++ [command]) =
        command.address?.map windowBase := by
      rw [WindowCommand.lastWindow, List.getLast?_concat, Option.bind_some]
    rw [useWindows, transcript_concat]
    cases haddress : command.address? with
    | none =>
      refine ⟨none, (hwatched.forget hcommand haddress).2, fun _ => ?_⟩
      rw [hlast, haddress, Option.map_none]
    | some address =>
      obtain ⟨-, next, hnext, hknown⟩ := hwatched.access hcommand haddress
      refine ⟨next, hnext, fun hanswers => ?_⟩
      rw [hlast, haddress, Option.map_some]
      rcases hknown with rfl | ⟨hrefuses, f, hf⟩
      · rfl
      · refine absurd (hanswers f ?_) hrefuses
        rw [List.getLast?_concat]
        exact congrArg some hf

end Watched

/-- **The window register is written exactly when needed**, by a controller that knows nothing of the
window at first, on any platform. -/
theorem window_programmed {c : Controller} (hrecording : session.machine.trace.isRecording = true)
    (hgpu : session.controllers.get? gpu = some i)
    (hc : session.machine.controllers[i]? = some c) (hunknown : c.window = .unknown) :
    (∀ before : List WindowCommand, (∀ command ∈ before, command.controller = gpu) →
      ∀ command : WindowCommand, command.controller = gpu →
      let ran := useWindows before session
      let next := outcome (operateWindow command) ran.2
      -- an access selects its window unless the command before it accessed the same window
      (∀ address, command.address? = some address →
        (∀ f, ran.1.getLast? = some (.faulted f) → Answers π windowRegister) →
        Programmed command (selection (WindowCommand.lastWindow before) (windowBase address))
          ran.2 next) ∧
      -- no other command touches a register
      (command.address? = none → next.2.machine.registerCalls = ran.2.machine.registerCalls)) ∧
    -- what is written is the base of the window without its lowest 16 bits
    (∀ address, (windowSelector (windowBase address)).toNat = windowBase address >>> 16) ∧
    -- the words of an object are accessed with one write for each of their windows
    (∀ (m : Machine π) (o : InstanceObject) (offset words : Nat), m.trace.isRecording = true →
      o.owner < m.controllers.length → o.strategy ≠ .heap → o.offset + o.size ≤ windowedLimit →
      o.Fits offset words → o.CountsAccesses offset words m) := by
  have hstart : Watched gpu i none session := by
    refine ⟨hgpu, hrecording, (List.getElem?_eq_some_iff.mp hc).1, ?_, rfl⟩
    rw [Machine.controller_of_getElem? hc, hunknown]
    rfl
  refine ⟨?_, fun address => ?_, ?_⟩
  · intro before hbefore command hcommand
    obtain ⟨trusted, hwatched, htrusted⟩ := hstart.run hbefore
    refine ⟨fun address haddress hanswers => ?_, fun haddress => ?_⟩
    · rw [← htrusted hanswers]
      exact (hwatched.access hcommand haddress).1
    · exact (hwatched.forget hcommand haddress).1
  · rw [windowSelector_toNat, Nat.shiftRight_eq_div_pow]
    rfl
  · exact fun m o _ _ hrecording howner hstrategy hlimit hfits =>
      InstanceObject.countsAccesses hstrategy hlimit hfits hrecording howner

/-- A window is forgotten, selected anew, and then accessed at the same address with a bit that plays
no part; an object lies across two windows. -/
theorem window_programmed_aliased :
    let board : Scripted.Board := ⟨.ofChipset 0xea false, ∅, [], none, ∅, [], [], []⟩
    let built := outcome (operate (.build "gpu")) (Scripted.Session.start board none false)
    let before : List WindowCommand :=
      [.write "gpu" 0x10000000 1, .tryInvalidate "gpu", .read "gpu" 0x10100000]
    let ran := useWindows before built.2
    let command : WindowCommand := .read "gpu" 0x100010100004
    let o : InstanceObject := ⟨0, 0x100ff000, 0x2000, false, .dma ⟨0x100ff000, 0x2000⟩⟩
    built.1 = .reply .nothing ∧ ran.1 = [.reply .nothing, .reply (.flag true), .reply (.word 1)] ∧
      Programmed command [] ran.2 (outcome (operateWindow command) ran.2) ∧
      (o.windows 0xffc 2).dedup = [0x10000000, 0x10100000] ∧
      o.CountsAccesses 0xffc 2 ran.2.machine := by
  intro board built before ran command o
  have hanswers : ran.1 = [.reply .nothing, .reply (.flag true), .reply (.word 1)] := by
    decide +kernel
  have hsame : WindowCommand.lastWindow before = some (windowBase 0x100010100004) := by
    decide +kernel
  have hselecting : selection (WindowCommand.lastWindow before) (windowBase 0x100010100004) = [] :=
    if_pos hsame
  have hstarted : built.2.machine.trace.isRecording = true := rfl
  have hgpu : built.2.controllers.get? "gpu" = some 0 := rfl
  have hc : built.2.machine.controllers[0]? = some _ := rfl
  obtain ⟨hlaw, -, hwords⟩ := window_programmed hstarted hgpu hc rfl
  have hcommands : ∀ c ∈ before, c.controller = "gpu" := by decide
  have haccess := (hlaw before hcommands command rfl).1 0x100010100004 rfl
  rw [hselecting] at haccess
  have hrecording : ran.2.machine.trace.isRecording = true := by decide +kernel
  have howner : o.owner < ran.2.machine.controllers.length := by decide +kernel
  refine ⟨by decide +kernel, hanswers, haccess fun f hf => ?_, by decide +kernel, ?_⟩
  · have hlast : ran.1.getLast? = some (.faulted f) := hf
    rw [hanswers] at hlast
    cases hlast
  · have hstrategy : o.strategy ≠ .heap := by decide
    have hlimit : o.offset + o.size ≤ windowedLimit := by decide +kernel
    have hfits : o.Fits 0xffc 2 := ⟨by decide, by decide⟩
    exact hwords ran.2.machine o 0xffc 2 hrecording howner hstrategy hlimit hfits

end Session
end InstanceMemory
