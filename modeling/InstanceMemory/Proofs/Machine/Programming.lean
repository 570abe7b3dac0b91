import InstanceMemory.Proofs.Machine.Tally
import Mathlib.Data.List.Dedup

/-!
# When the window register is written

Any platform may stand behind the window, and interrupts may come in between. `Recorded i calls w m`
says which accesses to registers a recording machine has on record, and what one of its controllers
knows of the window. From it an access through the window puts two things on record
(`Recorded.throughWindow`): **a write of the window register, unless the controller knows the window
to be selected**, and then the access to the aperture. While it goes on the window is held, so no
interrupt makes the controller forget it (`Recorded.serveInterrupt`).

Objects are accessed word by word, so the register is written for a run of words as a tally of their
windows tells (`Programs.readFrom` and its companions). Below the windowed limit the windows of a run
come in order. Then **the register is written once for each window the run touches, but not for the
first if it is selected already** (`Tally.writes_sees_of_sorted`, `InstanceObject.countsAccesses`).

A platform that faults over a register ends the access. It is said which access may be missing then;
what else the platform did is not.
-/

set_option autoImplicit false

namespace InstanceMemory

/-! ## Registers on record -/

/-- A platform that answers every access to a register. -/
def Answers (π : Type) [Platform π] (register : Nat) : Prop :=
  (∀ d : π, ∃ value d', Platform.readRegister register d = .ok value d') ∧
    ∀ value (d : π), ∃ d', Platform.writeRegister register value d = .ok () d'

namespace Call

/-- Whether a call is an access to a register. -/
def accessesRegister : Call → Bool
  | .readRegister .. | .writeRegister .. => true
  | _ => false

/-- Whether a call writes the window register. -/
def selectsWindow : Call → Bool
  | .writeRegister register _ => register == windowRegister
  | _ => false

end Call

/-- The write of the window register that selects a window for someone who trusts the register to
select some window already. -/
def selection (trusted : Option Nat) (base : Nat) : List Call :=
  if trusted = some base then [] else [.writeRegister windowRegister (windowSelector base)]

variable {π : Type} {i : Nat} {calls : List Call} {w : Window} {m : Machine π} {F : Machine π → Prop}

/-- The accesses to registers on record. -/
def Machine.registerCalls (m : Machine π) : List Call :=
  m.trace.calls.toList.filter Call.accessesRegister

/-- How often the window register was written. -/
def Machine.windowWrites (m : Machine π) : Nat := m.trace.calls.toList.countP Call.selectsWindow

/-- Writes of the window register are among the accesses to registers. -/
theorem Machine.windowWrites_eq (m : Machine π) :
    m.windowWrites = m.registerCalls.countP Call.selectsWindow := by
  rw [windowWrites, registerCalls, List.countP_filter]
  refine List.countP_congr fun call _ => ?_
  cases call <;> simp only [Call.selectsWindow, Call.accessesRegister, Bool.and_true,
    Bool.false_and]

/-- A recording machine with accesses to registers on record, and a controller with a window. -/
structure Recorded (i : Nat) (calls : List Call) (w : Window) (m : Machine π) : Prop where
  recording : m.trace.isRecording = true
  onRecord : i < m.controllers.length
  window : (m.controller i).window = w
  calls : m.registerCalls = calls

/-- A controller whose window is held is not suspended. -/
theorem Action.suspend_of_held (hheld : (m.controller i).window.isHeld = true) :
    ∃ cause, suspend i m = .ok (.error cause) m := by
  rw [suspend, run_get_bind]
  by_cases h : (m.controller i).phase = .initialized
  · simp only [Controller.transition, if_pos h, Controller.tryInvalidate, if_pos hheld]
    exact ⟨_, rfl⟩
  · simp only [Controller.transition, if_neg h]
    exact ⟨_, rfl⟩

namespace Recorded

theorem onHardware (h : Recorded i calls w m) (hardware : π) :
    Recorded i calls w { m with hardware } :=
  ⟨h.recording, h.onRecord, h.window, h.calls⟩

theorem onJournal (h : Recorded i calls w m) (journal : Journal) :
    Recorded i calls w { m with journal } :=
  ⟨h.recording, h.onRecord, h.window, h.calls⟩

/-- The window changes as the record of the controller does. -/
theorem onController (h : Recorded i calls w m) (f : Controller → Controller) {next : Window}
    (hnext : (f (m.controller i)).window = next) : Recorded i calls next (m.mapController i f) := by
  refine ⟨h.recording, ?_, ?_, h.calls⟩
  · rw [Machine.mapController, List.length_modify]
    exact h.onRecord
  · rw [Machine.controller_mapController h.onRecord, if_pos rfl, hnext]

/-- The record of another controller does not matter. -/
theorem onOther {j : Nat} (h : Recorded i calls w m) (hj : j ≠ i) (f : Controller → Controller) :
    Recorded i calls w (m.mapController j f) := by
  refine ⟨h.recording, ?_, ?_, h.calls⟩
  · rw [Machine.mapController, List.length_modify]
    exact h.onRecord
  · rw [Machine.controller_mapController h.onRecord, if_neg hj]
    exact h.window

theorem note (h : Recorded i calls w m) {n : Notice} {text : String} (hn : n.text = .ok text) :
    Ends (fun _ => Recorded i calls w) F (Action.note n m) :=
  Action.ends_note hn h.onJournal

/-- What becomes of the accesses on record if one more call is made. -/
theorem record_eq (h : Recorded i calls w m) (call : Call) :
    Ends (fun _ => Recorded i (calls ++ [call].filter Call.accessesRegister) w) F
      (Action.record call m) := by
  rw [Action.record_eq]
  refine ⟨?_, h.onRecord, h.window, ?_⟩
  · simp only [Trace.record, h.recording, ↓reduceIte]
  · simp only [Machine.registerCalls, Trace.record, h.recording, ↓reduceIte, Array.toList_push,
      List.filter_append]
    exact congrArg (· ++ _) h.calls

/-- **One more access to a register is put on record.** -/
theorem record (h : Recorded i calls w m) {call : Call} (hcall : call.accessesRegister = true) :
    Ends (fun _ => Recorded i (calls ++ [call]) w) F (Action.record call m) := by
  have hrecord := h.record_eq (F := F) call
  rwa [List.filter_cons_of_pos hcall, List.filter_nil] at hrecord

theorem recordElse (h : Recorded i calls w m) {call : Call} (hcall : ¬ call.accessesRegister) :
    Ends (fun _ => Recorded i calls w) F (Action.record call m) := by
  have hrecord := h.record_eq (F := F) call
  rwa [List.filter_cons_of_neg hcall, List.filter_nil, List.append_nil] at hrecord

/-- **No interrupt makes a controller forget a window that is held.** -/
theorem serveInterrupt (h : Recorded i calls w m) (hheld : w.isHeld = true) :
    Ends (fun _ => Recorded i calls w) F (Action.serveInterrupt m) := by
  unfold Action.serveInterrupt
  rw [run_get_bind]
  cases m.interrupt with
  | none => exact h
  | some j =>
    have h₁ : Recorded i calls w { m with interrupt := none } :=
      ⟨h.recording, h.onRecord, h.window, h.calls⟩
    dsimp only
    rw [run_modify_bind, run_get_bind]
    split
    · have hsuspend : Ends (fun _ => Recorded i calls w) F
          (Action.suspend j { m with interrupt := none }) := by
        by_cases hj : j = i
        · have hheld₁ : (Machine.controller { m with interrupt := none } j).window.isHeld = true := by
            rw [hj, h₁.window, hheld]
          obtain ⟨cause, hact⟩ := Action.suspend_of_held hheld₁
          rw [hact]
          exact h₁
        · rcases Action.suspend_cases j { m with interrupt := none } with
            ⟨cause, hact⟩ | ⟨-, journal, hact⟩
          · rw [hact]
            exact h₁
          · rw [hact]
            exact (h₁.onOther hj _).onJournal journal
      exact hsuspend.bind fun answer m₂ h₂ => h₂.recordElse Bool.false_ne_true
    · exact h₁

/-! ## Accesses to registers -/

variable [Platform π]

theorem readRegister (h : Recorded i calls w m) (hheld : w.isHeld = true) (register : Nat) :
    Ends (fun value => Recorded i (calls ++ [.readRegister register value]) w)
      (fun m => Recorded i calls w m ∧ ¬ Answers π register) (Action.readRegister register m) := by
  refine (h.serveInterrupt hheld).bind fun _ m₁ h₁ => ?_
  refine ((Action.ends_onHardware h₁.onHardware).imp_fault
    fun m₂ h₂ => ⟨h₂.1, fun hanswers => h₂.2 (hanswers.1 _)⟩).bind fun value m₂ h₂ => ?_
  exact (h₂.record rfl).bind fun _ _ h => h

theorem writeRegister (h : Recorded i calls w m) (hheld : w.isHeld = true) (register : Nat)
    (value : UInt32) :
    Ends (fun _ => Recorded i (calls ++ [.writeRegister register value]) w)
      (fun m => Recorded i calls w m ∧ ¬ Answers π register)
      (Action.writeRegister register value m) := by
  refine (h.serveInterrupt hheld).bind fun _ m₁ h₁ => ?_
  refine ((Action.ends_onHardware h₁.onHardware).imp_fault
    fun m₂ h₂ => ⟨h₂.1, fun hanswers => h₂.2 ⟨(), hanswers.2 _ _⟩⟩).bind fun _ m₂ h₂ => ?_
  exact h₂.record rfl

/-- **A window is selected**, and the register written for it if it must be. -/
theorem selectWindow {trusted : Option Nat} (h : Recorded i calls ⟨trusted, true⟩ m) (base : Nat) :
    Ends (fun _ => Recorded i (calls ++ selection trusted base) ⟨some base, true⟩)
      (fun m => Recorded i calls ⟨trusted, true⟩ m ∧ trusted ≠ some base ∧
        ¬ Answers π windowRegister) (Action.selectWindow i base m) := by
  unfold Action.selectWindow selection
  rw [run_get_bind, h.window]
  by_cases htrusted : trusted = some base
  · rw [if_pos htrusted, if_pos htrusted, List.append_nil, ← htrusted]
    exact h
  · rw [if_neg htrusted, if_neg htrusted]
    refine ((h.writeRegister rfl windowRegister (windowSelector base)).imp_fault
      fun _ h => ⟨h.1, htrusted, h.2⟩).bind fun _ m₁ h₁ => ?_
    refine h₁.onController (fun c => { c with window.cached := some base }) ?_
    rw [h₁.window]

end Recorded

/-- What an access through the window leaves on record if the platform faults over a register. -/
inductive Missed [Platform π] (i address : Nat) (calls : List Call) (trusted : Option Nat) :
    Machine π → Prop
  /-- The window register was not written, and the window is known no better than before. -/
  | window {m : Machine π} : trusted ≠ some (windowBase address) → ¬ Answers π windowRegister →
    Recorded i calls ⟨trusted, false⟩ m → Missed i address calls trusted m
  /-- The window was selected, but the aperture was not accessed. -/
  | aperture {m : Machine π} : ¬ Answers π (apertureRegister + windowOffset address) →
    Recorded i (calls ++ selection trusted (windowBase address)) ⟨some (windowBase address), false⟩ m →
    Missed i address calls trusted m

namespace Recorded

variable [Platform π] {address : Nat}

/-- **An access through the window** selects the window of its address and accesses the aperture. -/
theorem throughWindow {α : Type} {access : Nat → Action π α} {call : α → Call}
    (h : Recorded i calls w m) (haccess : ∀ calls m,
      Recorded i calls ⟨some (windowBase address), true⟩ m →
      Ends (fun answer => Recorded i (calls ++ [call answer]) ⟨some (windowBase address), true⟩)
        (fun m => Recorded i calls ⟨some (windowBase address), true⟩ m ∧
          ¬ Answers π (apertureRegister + windowOffset address))
        (access (apertureRegister + windowOffset address) m)) :
    Ends (fun answer => Recorded i
        (calls ++ selection w.cached (windowBase address) ++ [call answer])
        ⟨some (windowBase address), false⟩)
      (Missed i address calls w.cached) (Action.throughWindow i address access m) := by
  have hhold : Recorded i calls ⟨w.cached, true⟩
      (m.mapController i fun c => { c with window.isHeld := true }) := by
    refine h.onController (fun c => { c with window.isHeld := true }) ?_
    rw [h.window]
  -- letting go of the window leaves what is known of it
  have hrelease : ∀ {calls trusted} {m : Machine π}, Recorded i calls ⟨trusted, true⟩ m →
      Recorded i calls ⟨trusted, false⟩
        (m.mapController i fun c => { c with window.isHeld := false }) := by
    intro calls trusted m h
    refine h.onController (fun c => { c with window.isHeld := false }) ?_
    rw [h.window]
  have hselected : Ends (fun answer : Bool × α => Recorded i
        (calls ++ selection w.cached (windowBase address) ++ [call answer.2])
        ⟨some (windowBase address), true⟩)
      (fun m => Missed i address calls w.cached
        (m.mapController i fun c => { c with window.isHeld := false }))
      (Action.accessSelected i address access
        (m.mapController i fun c => { c with window.isHeld := true })) := by
    refine ((hhold.selectWindow (windowBase address)).imp_fault
      fun _ h => .window h.2.1 h.2.2 (hrelease h.1)).bind fun moved m₁ h₁ => ?_
    refine ((haccess _ m₁ h₁).imp_fault fun _ h => .aperture h.2 (hrelease h.1)).bind
      fun answer m₂ h₂ => ?_
    exact h₂
  have hholding : Ends (fun answer : Bool × α => Recorded i
        (calls ++ selection w.cached (windowBase address) ++ [call answer.2])
        ⟨some (windowBase address), false⟩)
      (Missed i address calls w.cached)
      (Action.holdingWindow i (Action.accessSelected i address access) m) :=
    Action.ends_andFinally (hselected.imp fun _ _ h => hrelease h)
  refine hholding.bind fun answer m₁ h₁ => ?_
  obtain ⟨moved, answer⟩ := answer
  dsimp only
  split
  · exact (h₁.note (n := .windowMoved (windowBase address)) rfl).bind fun _ _ h => h
  · exact h₁

/-- **A word is read through the window.** -/
theorem readWindowed (h : Recorded i calls w m) (address : Nat) :
    Ends (fun value => Recorded i (calls ++ selection w.cached (windowBase address) ++
        [.readRegister (apertureRegister + windowOffset address) value])
        ⟨some (windowBase address), false⟩)
      (Missed i address calls w.cached) (Action.readWindowed i address m) :=
  h.throughWindow fun _ _ h => h.readRegister rfl _

/-- **A word is written through the window.** -/
theorem writeWindowed (h : Recorded i calls w m) (address : Nat) (value : UInt32) :
    Ends (fun _ => Recorded i (calls ++ selection w.cached (windowBase address) ++
        [.writeRegister (apertureRegister + windowOffset address) value])
        ⟨some (windowBase address), false⟩)
      (Missed i address calls w.cached) (Action.writeWindowed i address value m) :=
  h.throughWindow fun _ _ h => h.writeRegister rfl _ value

end Recorded

/-! ## Words of an object -/

section Words

variable {o : InstanceObject} {t : Tally} {offset words : Nat} {α β : Type}

/-- A recording machine in which a controller has a tally of the windows it has selected. -/
structure Tallied (i : Nat) (t : Tally) (m : Machine π) : Prop where
  recording : m.trace.isRecording = true
  onRecord : i < m.controllers.length
  last : m.trusted i = t.last
  writes : m.windowWrites = t.writes

variable [Platform π]

/-- An access through the window sees one word. -/
theorem Tallied.sees {address : Nat} {act : Action π α} {call : α → Call} (h : Tallied i t m)
    (hcall : ∀ answer, (call answer).selectsWindow = false)
    (hact : ∀ {calls w}, Recorded i calls w m → Ends (fun answer => Recorded i
        (calls ++ selection w.cached (windowBase address) ++ [call answer])
        ⟨some (windowBase address), false⟩)
      (Missed i address calls w.cached) (act m)) :
    Ends (fun _ => Tallied i (t.see (windowBase address)))
      (fun _ => ∃ register, ¬ Answers π register) (act m) := by
  have hcount : (selection t.last (windowBase address)).countP Call.selectsWindow =
      if t.last = some (windowBase address) then 0 else 1 := by
    unfold selection
    split <;> rfl
  refine ((hact ⟨h.recording, h.onRecord, rfl, rfl⟩).imp fun answer m' h' => ?_).imp_fault
    fun m' hmissed => ?_
  · have hlast : (m.controller i).window.cached = t.last := h.last
    rw [hlast] at h'
    refine ⟨h'.recording, h'.onRecord, ?_, ?_⟩
    · rw [Tally.see_eq]
      exact congrArg (·.cached) h'.window
    · rw [Machine.windowWrites_eq, h'.calls, List.countP_append, List.countP_append,
        ← Machine.windowWrites_eq, h.writes, hcount, Tally.see_eq, List.countP_singleton, hcall]
      rfl
  · cases hmissed with
    | window _ hanswers _ => exact ⟨_, hanswers⟩
    | aperture hanswers _ => exact ⟨_, hanswers⟩

/-- An action writes the window register as the tally of these windows tells, unless the platform
faults over a register. -/
def Programs (i : Nat) (bases : List Nat) (act : Action π α) : Prop :=
  ∀ t m, Tallied i t m →
    Ends (fun _ => Tallied i (t.sees bases)) (fun _ => ∃ register, ¬ Answers π register) (act m)

namespace Programs

variable {bases others : List Nat}

theorem pure (a : α) : Programs i [] (pure a : Action π α) := fun _ _ h => h

theorem bind {act : Action π α} {next : α → Action π β} (h : Programs i bases act)
    (hnext : ∀ a, Programs i others (next a)) : Programs i (bases ++ others) (act >>= next) := by
  intro t m hm
  rw [Tally.sees_append]
  exact (h t m hm).bind fun a m' hm' => hnext a _ m' hm'

/-- A checked computation that answers writes nothing. -/
theorem lift_bind {x : Except Fault α} {a : α} {next : α → Action π β} (hx : x = .ok a)
    (hnext : Programs i bases (next a)) : Programs i bases (monadLift x >>= next) := by
  intro t m hm
  rw [run_bind_of_ok (run_lift_of_ok hx m)]
  exact hnext t m hm

/-- Sums below the windowed limit do not overflow. -/
theorem checkedAdd_of_windowed {a b : Nat} (h : a + b ≤ windowedLimit) :
    checkedAdd a b = .ok (a + b) :=
  checkedAdd_of_lt (Nat.lt_of_le_of_lt h (by decide))

/-- A run within the object passes the check. -/
theorem checked {next : Unit → Action π α} (hlimit : o.offset + o.size ≤ windowedLimit)
    (hfits : o.Fits offset words) (hnext : Programs o.owner (o.windows offset words) (next ())) :
    Programs o.owner (o.windows offset words) (liftM (o.checkAccess offset words) >>= next) := by
  have hsize : o.size < addressLimit :=
    Nat.lt_of_le_of_lt (by omega) (by decide : windowedLimit < addressLimit)
  exact lift_bind (InstanceObject.checkAccess_of_fits hsize hfits) hnext

variable (hstrategy : o.strategy ≠ .heap) (hlimit : o.offset + o.size ≤ windowedLimit)

include hstrategy hlimit

theorem readWord (hoffset : offset < o.size) :
    Programs o.owner [o.window offset] (Action.readWord o offset : Action π UInt32) := by
  have haddress : checkedAdd o.offset offset = .ok (o.offset + offset) :=
    checkedAdd_of_windowed (by omega)
  refine lift_bind haddress fun t m hm => ?_
  have hread : Ends (fun _ => Tallied o.owner (t.see (o.window offset)))
      (fun _ => ∃ register, ¬ Answers π register)
      (Action.readWindowed o.owner (o.offset + offset) m) :=
    hm.sees (fun _ => rfl) fun h => h.readWindowed _
  cases hcase : o.strategy with
  | heap => exact absurd hcase hstrategy
  | iommu => exact hread
  | dma => exact hread

theorem writeWord (hoffset : offset < o.size) (value : UInt32) :
    Programs o.owner [o.window offset] (Action.writeWord o offset value : Action π Unit) := by
  have haddress : checkedAdd o.offset offset = .ok (o.offset + offset) :=
    checkedAdd_of_windowed (by omega)
  have hcall : (Call.writeRegister (apertureRegister + windowOffset (o.offset + offset))
      value).selectsWindow = false := by
    have hlt := windowOffset_lt (o.offset + offset)
    unfold Call.selectsWindow
    rw [beq_eq_false_iff_ne]
    unfold apertureRegister windowRegister
    omega
  refine lift_bind haddress fun t m hm => ?_
  have hwrite : Ends (fun _ => Tallied o.owner (t.see (o.window offset)))
      (fun _ => ∃ register, ¬ Answers π register)
      (Action.writeWindowed o.owner (o.offset + offset) value m) :=
    hm.sees (fun _ => hcall) fun h => h.writeWindowed _ value
  cases hcase : o.strategy with
  | heap => exact absurd hcase hstrategy
  | iommu => exact hwrite
  | dma => exact hwrite

theorem readFrom (hstop : offset + words * wordSize ≤ o.size) (before : List UInt32) :
    Programs o.owner (o.windows offset words)
      (Action.readFrom o words offset before : Action π (List UInt32)) := by
  induction words generalizing offset before with
  | zero => exact .pure _
  | succ words ih =>
    rw [Nat.succ_mul] at hstop
    have hword : 0 < wordSize := by decide
    refine (readWord hstrategy hlimit (by omega)).bind fun value => ?_
    exact lift_bind (checkedAdd_of_windowed (by omega)) (ih (by omega) _)

theorem writeFrom {values : List UInt32} (hstop : offset + values.length * wordSize ≤ o.size) :
    Programs o.owner (o.windows offset values.length)
      (Action.writeFrom o values offset : Action π Unit) := by
  induction values generalizing offset with
  | nil => exact .pure _
  | cons value rest ih =>
    rw [List.length_cons, Nat.succ_mul] at hstop
    have hword : 0 < wordSize := by decide
    refine (writeWord hstrategy hlimit (by omega) value).bind fun _ => ?_
    exact lift_bind (checkedAdd_of_windowed (by omega)) (ih (by omega))

theorem fillFrom (hstop : offset + words * wordSize ≤ o.size) (value : UInt32) :
    Programs o.owner (o.windows offset words)
      (Action.fillFrom o value words offset : Action π Unit) := by
  induction words generalizing offset with
  | zero => exact .pure _
  | succ words ih =>
    rw [Nat.succ_mul] at hstop
    have hword : 0 < wordSize := by decide
    exact (writeWord hstrategy hlimit (by omega) value).bind fun _ => ih (by omega)

end Programs
end Words

/-! ## Windows in order -/

/-- What comes again among what is in order comes next. -/
theorem head?_any_of_sorted {base : Nat} {rest : List Nat} (h : (base :: rest).Pairwise (· ≤ ·)) :
    (rest.head?.any fun next => some base = some next) = decide (base ∈ rest) := by
  obtain ⟨hfirst, hrest⟩ := List.pairwise_cons.mp h
  cases rest with
  | nil => rfl
  | cons next rest =>
    rw [List.head?_cons, Option.any_some, decide_eq_decide, Option.some.injEq]
    constructor
    · rintro rfl
      exact List.mem_cons_self
    · intro hmem
      rcases List.mem_cons.mp hmem with rfl | hmem
      · rfl
      · exact Nat.le_antisymm (hfirst next List.mem_cons_self)
          ((List.pairwise_cons.mp hrest).1 base hmem)

/-- **Windows that come in order are selected once each**, but the first is not if it is already. -/
theorem Tally.writes_sees_of_sorted {bases : List Nat} (h : bases.Pairwise (· ≤ ·)) (t : Tally) :
    (t.sees bases).writes + (bases.head?.any (t.last = some ·)).toNat =
      t.writes + bases.dedup.length := by
  induction bases generalizing t with
  | nil => rfl
  | cons base rest ih =>
    have hcons : t.sees (base :: rest) = (t.see base).sees rest := rfl
    have hlast : (t.see base).last = some base := by rw [see_eq]
    have hwrites : (t.see base).writes + (decide (t.last = some base)).toNat = t.writes + 1 := by
      rw [see_eq]
      by_cases hknown : t.last = some base <;>
        simp only [hknown, ↓reduceIte, decide_true, decide_false, Bool.toNat_true, Bool.toNat_false,
          Nat.add_zero]
    have hrest := ih (List.pairwise_cons.mp h).2 (t.see base)
    rw [hlast, head?_any_of_sorted h] at hrest
    rw [hcons, List.head?_cons, Option.any_some]
    by_cases hmem : base ∈ rest
    · rw [decide_eq_true hmem, Bool.toNat_true] at hrest
      rw [List.dedup_cons_of_mem hmem]
      omega
    · rw [decide_eq_false hmem, Bool.toNat_false] at hrest
      rw [List.dedup_cons_of_notMem hmem, List.length_cons]
      omega

namespace InstanceObject

variable {o : InstanceObject} {offset words : Nat}

theorem mem_windows {base : Nat} (h : base ∈ o.windows offset words) :
    ∃ k < words, base = o.window (offset + k * wordSize) := by
  induction words generalizing offset with
  | zero => exact absurd h List.not_mem_nil
  | succ words ih =>
    rcases List.mem_cons.mp h with rfl | h
    · exact ⟨0, Nat.succ_pos _, by rw [Nat.zero_mul, Nat.add_zero]⟩
    · obtain ⟨k, hk, rfl⟩ := ih h
      refine ⟨k + 1, Nat.succ_lt_succ hk, ?_⟩
      rw [Nat.succ_mul, Nat.add_comm (k * wordSize), Nat.add_assoc]

/-- **Below the windowed limit a run sees its windows in order.** -/
theorem sorted_windows (hlimit : o.offset + o.size ≤ windowedLimit)
    (hstop : offset + words * wordSize ≤ o.size) : (o.windows offset words).Pairwise (· ≤ ·) := by
  have hword : 0 < wordSize := by decide
  induction words generalizing offset with
  | zero => exact List.Pairwise.nil
  | succ words ih =>
    rw [Nat.succ_mul] at hstop
    refine List.pairwise_cons.mpr ⟨fun base hbase => ?_, ih (by omega)⟩
    obtain ⟨k, hk, rfl⟩ := mem_windows hbase
    have hlt : k * wordSize + wordSize ≤ words * wordSize := by
      rw [← Nat.succ_mul]
      exact Nat.mul_le_mul_right _ hk
    exact windowBase_mono (by omega) (by omega)

variable {π α : Type} {m : Machine π}

/-- From one machine to another the window register was written once for each window that a run of
words touches, but not for the first if it was known to be selected. -/
def CountsWindows (o : InstanceObject) (offset words : Nat) (m m' : Machine π) : Prop :=
  let bases := o.windows offset words
  m'.windowWrites + (bases.head?.any (m.trusted o.owner = some ·)).toNat =
    m.windowWrites + bases.dedup.length

variable [Platform π]

/-- However a run of words is accessed, and when the whole object is filled, the window register is
written as its windows are counted, unless the platform faults over a register. -/
structure CountsAccesses (o : InstanceObject) (offset words : Nat) (m : Machine π) : Prop where
  readWords : Ends (fun _ => o.CountsWindows offset words m) (fun _ => ∃ register, ¬ Answers π register)
    (Action.readWords o offset words m)
  writeWords : ∀ values : List UInt32, values.length = words →
    Ends (fun _ => o.CountsWindows offset words m) (fun _ => ∃ register, ¬ Answers π register)
      (Action.writeWords o offset values m)
  fill : ∀ value, Ends (fun _ => o.CountsWindows 0 o.words m)
    (fun _ => ∃ register, ¬ Answers π register) (Action.fill o value m)

/-- **A run of words counts its windows.** -/
theorem countsWindows {act : Action π α} (hprograms : Programs o.owner (o.windows offset words) act)
    (hlimit : o.offset + o.size ≤ windowedLimit) (hstop : offset + words * wordSize ≤ o.size)
    (hrecording : m.trace.isRecording = true) (howner : o.owner < m.controllers.length) :
    Ends (fun _ => o.CountsWindows offset words m) (fun _ => ∃ register, ¬ Answers π register)
      (act m) := by
  have hm : Tallied o.owner ⟨m.trusted o.owner, m.windowWrites⟩ m := ⟨hrecording, howner, rfl, rfl⟩
  refine (hprograms _ m hm).imp fun _ m' hm' => ?_
  rw [CountsWindows, hm'.writes]
  exact Tally.writes_sees_of_sorted (sorted_windows hlimit hstop) _

/-- **All accesses to an object that is seen through the window count its windows.** -/
theorem countsAccesses (hstrategy : o.strategy ≠ .heap) (hlimit : o.offset + o.size ≤ windowedLimit)
    (hfits : o.Fits offset words) (hrecording : m.trace.isRecording = true)
    (howner : o.owner < m.controllers.length) : o.CountsAccesses offset words m := by
  constructor
  · have hread := Programs.readFrom (π := π) hstrategy hlimit hfits.2 []
    exact countsWindows (.checked hlimit hfits hread) hlimit hfits.2 hrecording howner
  · rintro values rfl
    have hwrite := Programs.writeFrom (π := π) hstrategy hlimit hfits.2
    exact countsWindows (.checked hlimit hfits hwrite) hlimit hfits.2 hrecording howner
  · intro value
    have hall := o.fits_all
    exact countsWindows (.fillFrom hstrategy hlimit hall.2 value) hlimit hall.2 hrecording howner

end InstanceObject
end InstanceMemory
