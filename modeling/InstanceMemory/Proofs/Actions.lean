import InstanceMemory.Proofs.Fault
import InstanceMemory.Machine.Calls

/-!
# Running actions

An action either answers or faults, and leaves a state in both cases. `run_bind_of_ok` and its
companions run an action step by step; they turn what is known of the first step into what is left
to run.

`Keeps P act` says that an action leaves a state with the property `P` wherever it starts from one,
**whether it answers or faults**. It passes through every way of putting actions together, so a
property that the primitive actions keep is kept by everything that is made of them.

`Ends Q F` says of one run how it comes out: with `Q` of the answer and the state, or with `F` of the
state if it faults.

`Blind S act` speaks of two runs: from states that are related by `S`, an action answers or faults
**in the same way**, and leaves states that are related again. It passes through the same ways of
putting actions together, as long as what comes next does not depend on what `S` leaves open.
-/

set_option autoImplicit false

namespace InstanceMemory

variable {σ α β : Type} {act : EStateM Fault σ α} {a : α} {f : Fault} {s s' : σ}

/-! ## Step by step -/

theorem run_bind_of_ok (h : act s = .ok a s') (next : α → EStateM Fault σ β) :
    (act >>= next) s = next a s' := by
  simp only [bind, EStateM.bind, h]

theorem run_bind_of_error (h : act s = .error f s') (next : α → EStateM Fault σ β) :
    (act >>= next) s = .error f s' := by
  simp only [bind, EStateM.bind, h]

/-- Runs that begin alike and go on alike are alike. -/
theorem run_bind_congr {act' : EStateM Fault σ α} {next next' : α → EStateM Fault σ β} {s₁ : σ}
    (h : act' s₁ = act s) (hnext : ∀ a s', act s = .ok a s' → next' a s' = next a s') :
    (act' >>= next') s₁ = (act >>= next) s := by
  cases hact : act s with
  | error f s' => rw [run_bind_of_error hact, run_bind_of_error (h.trans hact)]
  | ok a s' =>
    rw [run_bind_of_ok hact, run_bind_of_ok (h.trans hact)]
    exact hnext a s' hact

theorem run_pure (a : α) (s : σ) : (pure a : EStateM Fault σ α) s = .ok a s := rfl

theorem run_get_bind (next : σ → EStateM Fault σ β) (s : σ) :
    ((get : EStateM Fault σ σ) >>= next) s = next s s := rfl

theorem run_modify_bind (g : σ → σ) (next : PUnit → EStateM Fault σ β) (s : σ) :
    ((modify g : EStateM Fault σ PUnit) >>= next) s = next ⟨⟩ (g s) := rfl

/-- A checked computation that answers leaves the state alone. -/
theorem run_lift_of_ok {x : Except Fault α} (h : x = .ok a) (s : σ) :
    (monadLift x : EStateM Fault σ α) s = .ok a s := by
  subst h
  rfl

/-- What comes after a checked computation that answers goes on with the answer. -/
theorem lift_bind_of_ok {x : Except Fault α} (h : x = .ok a) (next : α → EStateM Fault σ β) :
    (monadLift x >>= next) = next a := by
  subst h
  rfl

/-! ## What an action leaves -/

/-- The state an action leaves, whether it answers or faults. -/
def leaves (act : EStateM Fault σ α) (s : σ) : σ :=
  match act s with
  | .ok _ s => s
  | .error _ s => s

theorem leaves_of_ok (h : act s = .ok a s') : leaves act s = s' := by
  simp only [leaves, h]

theorem leaves_of_error (h : act s = .error f s') : leaves act s = s' := by
  simp only [leaves, h]

theorem leaves_bind_of_ok (h : act s = .ok a s') (next : α → EStateM Fault σ β) :
    leaves (act >>= next) s = leaves (next a) s' := by
  simp only [leaves, run_bind_of_ok h]

/-- An action leaves a state with a property wherever it starts from one. -/
def Keeps (P : σ → Prop) (act : EStateM Fault σ α) : Prop := ∀ s, P s → P (leaves act s)

variable {P : σ → Prop}

theorem Keeps.of_ok (h : Keeps P act) (hs : P s) (hact : act s = .ok a s') : P s' := by
  have := h s hs
  rwa [leaves_of_ok hact] at this

theorem Keeps.of_error (h : Keeps P act) (hs : P s) (hact : act s = .error f s') : P s' := by
  have := h s hs
  rwa [leaves_of_error hact] at this

theorem keeps_pure (a : α) : Keeps P (pure a) := fun _ hs => hs

theorem Keeps.bind {next : α → EStateM Fault σ β} (h : Keeps P act)
    (hnext : ∀ a, Keeps P (next a)) : Keeps P (act >>= next) := by
  intro s hs
  cases hact : act s with
  | ok a s' =>
    simp only [leaves, run_bind_of_ok hact]
    exact hnext a s' (h.of_ok hs hact)
  | error f s' =>
    simp only [leaves, run_bind_of_error hact]
    exact h.of_error hs hact

/-- What comes after a look at the state may depend on the state. -/
theorem keeps_get_bind {next : σ → EStateM Fault σ β} (h : ∀ s, P s → P (leaves (next s) s)) :
    Keeps P ((get : EStateM Fault σ σ) >>= next) := h

theorem keeps_modify {g : σ → σ} (h : ∀ s, P s → P (g s)) : Keeps P (modify g) := h

/-- A checked computation leaves the state alone. -/
theorem keeps_lift (x : Except Fault α) : Keeps P (liftM x : EStateM Fault σ α) := by
  cases x <;> exact fun _ hs => hs

/-! ## All or nothing -/

/-- From a state with the property `P` an action succeeds with `Q`, or else leaves a state with the
property `F`, whether it answers an error or faults. -/
def Tries (P : σ → Prop) (act : EStateM Fault σ (Except Error α)) (Q : α → σ → Prop)
    (F : σ → Prop) : Prop :=
  ∀ s, P s →
    match act s with
    | .ok (.ok a) s => Q a s
    | .ok (.error _) s => F s
    | .error _ s => F s

namespace Tries

variable {F : σ → Prop} {Q : α → σ → Prop} {answer : Except Error α}
  {act : EStateM Fault σ (Except Error α)}

theorem of_ok (h : Tries P act Q F) (hs : P s) (hact : act s = .ok (.ok a) s') : Q a s' := by
  have := h s hs
  rwa [hact] at this

theorem of_refused {cause : Error} (h : Tries P act Q F) (hs : P s)
    (hact : act s = .ok (.error cause) s') : F s' := by
  have := h s hs
  rwa [hact] at this

theorem of_error (h : Tries P act Q F) (hs : P s) (hact : act s = .error f s') : F s' := by
  have := h s hs
  rwa [hact] at this

theorem weaken {F' : σ → Prop} {Q' : α → σ → Prop} (h : Tries P act Q F)
    (hQ : ∀ a s, Q a s → Q' a s) (hF : ∀ s, F s → F' s) : Tries P act Q' F' := by
  intro s hs
  have := h s hs
  cases hact : act s with
  | error f s' => exact hF _ (h.of_error hs hact)
  | ok answer s' =>
    cases answer with
    | ok a => exact hQ _ _ (h.of_ok hs hact)
    | error cause => exact hF _ (h.of_refused hs hact)

/-- A checked computation comes first. -/
theorem lift_bind (x : Except Fault β) {next : β → EStateM Fault σ (Except Error α)}
    (hPF : ∀ s, P s → F s) (h : ∀ b, Tries P (next b) Q F) :
    Tries P (monadLift x >>= next) Q F := by
  intro s hs
  cases x with
  | ok b => exact h b s hs
  | error f => exact hPF s hs

/-- A step that may fail comes first. -/
theorem bind {R : β → σ → Prop} {next : Except Error α → EStateM Fault σ (Except Error β)}
    (h : Tries P act Q F) (hok : ∀ a, Tries (Q a) (next (.ok a)) R F)
    (hrefused : ∀ cause, Tries F (next (.error cause)) R F) : Tries P (act >>= next) R F := by
  intro s hs
  cases hact : act s with
  | error f s' =>
    rw [run_bind_of_error hact]
    exact h.of_error hs hact
  | ok answer s' =>
    rw [run_bind_of_ok hact]
    cases answer with
    | ok a => exact hok a s' (h.of_ok hs hact)
    | error cause => exact hrefused cause s' (h.of_refused hs hact)

/-- A step that keeps what holds, and what is left if it fails, comes first. -/
theorem bind_of_keeps {act : EStateM Fault σ β} {next : β → EStateM Fault σ (Except Error α)}
    (h : Keeps P act) (hPF : ∀ s, P s → F s) (hnext : ∀ b, Tries P (next b) Q F) :
    Tries P (act >>= next) Q F := by
  intro s hs
  cases hact : act s with
  | error f s' =>
    rw [run_bind_of_error hact]
    exact hPF s' (h.of_error hs hact)
  | ok b s' =>
    rw [run_bind_of_ok hact]
    exact hnext b s' (h.of_ok hs hact)

end Tries

theorem tries_error {F : σ → Prop} {Q : α → σ → Prop} (cause : Error) (hPF : ∀ s, P s → F s) :
    Tries P (pure (.error cause) : EStateM Fault σ (Except Error α)) Q F := hPF

/-! ## What a run comes to -/

/-- A run answers with `Q`, or faults with `F`. -/
def Ends (Q : α → σ → Prop) (F : σ → Prop) : EStateM.Result Fault σ α → Prop
  | .ok a s => Q a s
  | .error _ s => F s

namespace Ends

variable {Q : α → σ → Prop} {R : β → σ → Prop} {F F' : σ → Prop}

theorem of_ok (h : Ends Q F (act s)) (hact : act s = .ok a s') : Q a s' := by
  rwa [hact] at h

theorem of_error (h : Ends Q F (act s)) (hact : act s = .error f s') : F s' := by
  rwa [hact] at h

theorem imp {Q' : α → σ → Prop} {result : EStateM.Result Fault σ α} (h : Ends Q F result)
    (hQ : ∀ a s, Q a s → Q' a s) : Ends Q' F result := by
  cases result with
  | ok a s => exact hQ a s h
  | error f s => exact h

theorem imp_fault {result : EStateM.Result Fault σ α} (h : Ends Q F result)
    (hF : ∀ s, F s → F' s) : Ends Q F' result := by
  cases result with
  | ok a s => exact h
  | error f s => exact hF s h

theorem bind {next : α → EStateM Fault σ β} (h : Ends Q F (act s))
    (hnext : ∀ a s', Q a s' → Ends R F (next a s')) : Ends R F ((act >>= next) s) := by
  cases hact : act s with
  | ok a s' =>
    rw [run_bind_of_ok hact]
    exact hnext a s' (h.of_ok hact)
  | error f s' =>
    rw [run_bind_of_error hact]
    exact h.of_error hact

theorem leaves (h : Ends (fun _ => F) F (act s)) : F (InstanceMemory.leaves act s) := by
  cases hact : act s with
  | ok a s' =>
    rw [leaves_of_ok hact]
    exact h.of_ok hact
  | error f s' =>
    rw [leaves_of_error hact]
    exact h.of_error hact

/-- What an action keeps is there whether it answers or faults. -/
theorem of_keeps (h : Keeps P act) (hs : P s) : Ends (fun _ => P) P (act s) := by
  cases hact : act s with
  | ok a s' => exact h.of_ok hs hact
  | error f s' => exact h.of_error hs hact

end Ends

/-- All or nothing is done, run by run. -/
theorem tries_iff_ends {Q : α → σ → Prop} {F : σ → Prop}
    {act : EStateM Fault σ (Except Error α)} :
    Tries P act Q F ↔ ∀ s, P s → Ends (fun answer s => match answer with
      | .ok a => Q a s
      | .error _ => F s) F (act s) := by
  refine forall₂_congr fun s _ => ?_
  cases act s with
  | error f s' => exact Iff.rfl
  | ok answer s' => cases answer <;> exact Iff.rfl

/-! ## Two runs -/

/-- Results that are the same, but for states that are related. -/
inductive Alike (S : σ → σ → Prop) : EStateM.Result Fault σ α → EStateM.Result Fault σ α → Prop
  | ok (a : α) {s s' : σ} (h : S s s') : Alike S (.ok a s) (.ok a s')
  | error (f : Fault) {s s' : σ} (h : S s s') : Alike S (.error f s) (.error f s')

/-- An action that cannot tell related states apart, and leaves related states. -/
def Blind (S : σ → σ → Prop) (act : EStateM Fault σ α) : Prop :=
  ∀ s s', S s s' → Alike S (act s) (act s')

section TwoRuns

variable {S : σ → σ → Prop}

theorem Alike.leaves {act act' : EStateM Fault σ α} (h : Alike S (act s) (act' s')) :
    S (leaves act s) (leaves act' s') := by
  unfold InstanceMemory.leaves
  generalize act s = r at h ⊢
  generalize act' s' = r' at h ⊢
  cases h with
  | ok a h => exact h
  | error f h => exact h

/-- What comes next need not be the same action, as long as it comes to the same. -/
theorem Alike.bind {act act' : EStateM Fault σ α} {next next' : α → EStateM Fault σ β}
    (h : Alike S (act s) (act' s'))
    (hnext : ∀ a t t', act s = .ok a t → S t t' → Alike S (next a t) (next' a t')) :
    Alike S ((act >>= next) s) ((act' >>= next') s') := by
  simp only [Bind.bind, EStateM.bind]
  generalize hr : act s = r at h hnext ⊢
  generalize act' s' = r' at h ⊢
  cases h with
  | ok a h => exact hnext a _ _ rfl h
  | error f h => exact .error f h

theorem blind_pure (a : α) : Blind S (pure a) := fun _ _ h => .ok a h

theorem Blind.bind {next : α → EStateM Fault σ β} (h : Blind S act) (hnext : ∀ a, Blind S (next a)) :
    Blind S (act >>= next) :=
  fun s s' hs => (h s s' hs).bind fun a t t' _ ht => hnext a t t' ht

/-- What comes after a look at the state may depend on what related states have in common. -/
theorem blind_get_bind {next : σ → EStateM Fault σ β}
    (h : ∀ s s', S s s' → Alike S (next s s) (next s' s')) :
    Blind S ((get : EStateM Fault σ σ) >>= next) := h

theorem blind_modify {g : σ → σ} (h : ∀ s s', S s s' → S (g s) (g s')) :
    Blind S (modify g : EStateM Fault σ PUnit) := fun s s' hs =>
  show Alike S (.ok PUnit.unit (g s)) (.ok PUnit.unit (g s')) from .ok _ (h s s' hs)

/-- A checked computation does not look at the state. -/
theorem blind_lift (x : Except Fault α) : Blind S (liftM x : EStateM Fault σ α) := by
  cases x with
  | ok a => exact fun _ _ h => .ok a h
  | error f => exact fun _ _ h => .error f h

end TwoRuns

/-! ## The journal -/

namespace Journal

variable {journal after : Journal} {n : Notice}

/-- A notice neither opens nor closes a journal. -/
theorem isOpen_of_note (h : journal.note n = .ok after) : after.isOpen = journal.isOpen := by
  unfold note at h
  split at h
  · obtain ⟨line, -, hafter⟩ := bind_eq_ok.mp h
    cases hafter
    rfl
  · cases h
    rfl

/-- Every notice but that of an untracked release has a text, and so it is noted. -/
theorem note_of_text (journal : Journal) {text : String} (h : n.text = .ok text) :
    ∃ after, journal.note n = .ok after := by
  unfold note Notice.line
  split
  · rw [h]
    exact ⟨_, rfl⟩
  · exact ⟨journal, rfl⟩

end Journal

/-! ## Actions on a machine -/

namespace Action

variable {π : Type} {act : Action π α} {P : Machine π → Prop}

theorem keeps_note (h : ∀ m journal, P m → P { m with journal }) (n : Notice) :
    Keeps P (note n : Action π Unit) := by
  intro m hm
  unfold leaves note
  cases m.journal.note n with
  | ok journal => exact h m journal hm
  | error f => exact hm

theorem keeps_record (h : ∀ m call, P m → P { m with trace := m.trace.record call }) (call : Call) :
    Keeps P (record call : Action π Unit) := by
  intro m hm
  unfold leaves record
  by_cases hrecording : m.trace.isRecording = true
  · simp only [hrecording, ↓reduceIte]
    exact h m call hm
  · simp only [hrecording]
    exact hm

theorem keeps_onController {i : Nat} {g : Controller → Controller}
    (h : ∀ m, P m → P (m.mapController i g)) : Keeps P (onController i g : Action π Unit) := h

theorem keeps_andFinally {g : Machine π → Machine π} (hact : Keeps P act)
    (h : ∀ m, P m → P (g m)) : Keeps P (andFinally act g) := by
  intro m hm
  unfold leaves andFinally
  cases hrun : act m with
  | ok a m' => exact h m' (hact.of_ok hm hrun)
  | error f m' => exact h m' (hact.of_error hm hrun)

theorem keeps_orUndo {undo : Action π Unit} (hact : Keeps P act) (hundo : Keeps P undo) :
    Keeps P (orUndo act undo) := by
  intro m hm
  unfold leaves orUndo
  cases hrun : act m with
  | ok a m' => exact hact.of_ok hm hrun
  | error f m' =>
    have hm' := hact.of_error hm hrun
    dsimp only
    cases hback : undo m' with
    | ok a m'' => exact hundo.of_ok hm' hback
    | error f m'' => exact hundo.of_error hm' hback

/-- An action of the platform keeps what every change it makes to the platform keeps. -/
theorem keeps_onHardware {act : EStateM Fault π α}
    (h : ∀ m, P m → P { m with hardware := leaves act m.hardware }) :
    Keeps P (onHardware act) := by
  intro m hm
  have hleaves := h m hm
  unfold leaves onHardware at *
  cases hrun : act m.hardware with
  | ok a d => simpa only [hrun] using hleaves
  | error f d => simpa only [hrun] using hleaves

/-- A notice with a text is noted in the journal. -/
theorem note_of_text {n : Notice} {text : String} (hn : n.text = .ok text) (m : Machine π) :
    ∃ journal, note n m = .ok () { m with journal } := by
  obtain ⟨journal, hjournal⟩ := m.journal.note_of_text hn
  exact ⟨journal, by simp only [note, hjournal]⟩

/-- What the journal does not matter to is there after a notice with a text. -/
theorem ends_note {F : Machine π → Prop} {m : Machine π} {n : Notice} {text : String}
    (hn : n.text = .ok text) (h : ∀ journal, P { m with journal }) :
    Ends (fun _ => P) F (note n m) := by
  obtain ⟨journal, hnote⟩ := note_of_text hn m
  rw [hnote]
  exact h journal

theorem record_eq (call : Call) (m : Machine π) :
    record call m = .ok () { m with trace := m.trace.record call } := by
  unfold record Trace.record
  split <;> rfl

/-- A machine that records nothing is left alone by a call. -/
theorem record_of_silent {m : Machine π} (h : m.trace.isRecording = false) (call : Call) :
    record call m = .ok () m := by
  simp only [record, h, Bool.false_eq_true, ↓reduceIte]

theorem run_onHardware_of_ok {act : EStateM Fault π α} {m : Machine π} {d : π}
    (h : act m.hardware = .ok a d) : onHardware act m = .ok a { m with hardware := d } := by
  simp only [onHardware, h]

theorem run_onHardwareNoting_of_ok {act : EStateM Fault (π × Journal) α} {m : Machine π} {d : π}
    {journal : Journal} (h : act (m.hardware, m.journal) = .ok a (d, journal)) :
    onHardwareNoting act m = .ok a { m with hardware := d, journal } := by
  simp only [onHardwareNoting, h]

/-- A platform that is asked answers, or it did not have an answer. -/
theorem ends_onHardware {act : EStateM Fault π α} {m : Machine π}
    (h : ∀ hardware, P { m with hardware }) :
    Ends (fun _ => P) (fun m' => P m' ∧ ¬ ∃ a d, act m.hardware = .ok a d) (onHardware act m) := by
  cases hact : act m.hardware with
  | ok a d =>
    rw [run_onHardware_of_ok hact]
    exact h d
  | error f d =>
    have hrun : onHardware act m = .error f { m with hardware := d } := by
      simp only [onHardware, hact]
    rw [hrun]
    refine ⟨h d, ?_⟩
    rintro ⟨a, d', hanswer⟩
    cases hanswer

theorem ends_onHardwareNoting {act : EStateM Fault (π × Journal) α} {m : Machine π}
    (h : ∀ hardware journal, P { m with hardware, journal }) :
    Ends (fun _ => P) (fun m' => P m' ∧ ¬ ∃ a d, act (m.hardware, m.journal) = .ok a d)
      (onHardwareNoting act m) := by
  cases hact : act (m.hardware, m.journal) with
  | ok a d =>
    rw [run_onHardwareNoting_of_ok hact]
    exact h d.1 d.2
  | error f d =>
    have hrun : onHardwareNoting act m = .error f { m with hardware := d.1, journal := d.2 } := by
      simp only [onHardwareNoting, hact]
    rw [hrun]
    refine ⟨h d.1 d.2, ?_⟩
    rintro ⟨a, d', hanswer⟩
    cases hanswer

theorem blind_onController {S : Machine π → Machine π → Prop} {i : Nat} {g : Controller → Controller}
    (h : ∀ m m', S m m' → S (m.mapController i g) (m'.mapController i g)) :
    Blind S (onController i g : Action π Unit) := fun m m' hm => .ok () (h m m' hm)

theorem blind_andFinally {S : Machine π → Machine π → Prop} {g : Machine π → Machine π}
    (hact : Blind S act) (h : ∀ m m', S m m' → S (g m) (g m')) : Blind S (andFinally act g) := by
  intro m m' hm
  have hrun := hact m m' hm
  unfold andFinally
  generalize act m = r at hrun ⊢
  generalize act m' = r' at hrun ⊢
  cases hrun with
  | ok a hm => exact .ok a (h _ _ hm)
  | error f hm => exact .error f (h _ _ hm)

theorem blind_orUndo {S : Machine π → Machine π → Prop} {undo : Action π Unit} (hact : Blind S act)
    (hundo : Blind S undo) : Blind S (orUndo act undo) := by
  intro m m' hm
  have hrun := hact m m' hm
  unfold orUndo
  generalize act m = r at hrun ⊢
  generalize act m' = r' at hrun ⊢
  cases hrun with
  | ok a hm => exact .ok a hm
  | @error f m₁ m₁' hm =>
    have hback := hundo m₁ m₁' hm
    dsimp only
    generalize undo m₁ = b at hback ⊢
    generalize undo m₁' = b' at hback ⊢
    cases hback with
    | ok _ hm => exact .error f hm
    | error f hm => exact .error f hm

/-- An action that faults is undone. -/
theorem ends_orUndo {Q : α → Machine π → Prop} {F F' : Machine π → Prop} {undo : Action π Unit}
    {m : Machine π} (h : Ends Q F (act m))
    (hundo : ∀ m', F m' → Ends (fun _ => F') F' (undo m')) : Ends Q F' (orUndo act undo m) := by
  unfold orUndo
  cases hact : act m with
  | ok a m' => exact h.of_ok hact
  | error f m' =>
    have hback := hundo m' (h.of_error hact)
    dsimp only
    cases hrun : undo m' with
    | ok _ m'' => exact hback.of_ok hrun
    | error f m'' => exact hback.of_error hrun

/-- What comes after an action comes after it also if it faults. -/
theorem ends_andFinally {Q : α → Machine π → Prop} {F : Machine π → Prop} {g : Machine π → Machine π}
    {m : Machine π} (h : Ends (fun a m => Q a (g m)) (fun m => F (g m)) (act m)) :
    Ends Q F (andFinally act g m) := by
  unfold andFinally
  cases hact : act m with
  | ok a m' => exact h.of_ok hact
  | error f m' => exact h.of_error hact

/-- An action that answers needs no undoing. -/
theorem run_orUndo_of_ok {m m' : Machine π} (h : act m = .ok a m') (undo : Action π Unit) :
    orUndo act undo m = .ok a m' := by
  simp only [orUndo, h]

/-- What answers was not undone. -/
theorem run_orUndo_eq_ok {undo : Action π Unit} {a : α} {m m' : Machine π} :
    orUndo act undo m = .ok a m' ↔ act m = .ok a m' := by
  unfold orUndo
  cases act m with
  | ok a m' => rfl
  | error f m' =>
    dsimp only
    cases undo m' <;> simp only [reduceCtorEq]

end Action
end InstanceMemory
