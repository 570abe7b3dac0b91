import InstanceMemory.Proofs.Machine.Selection

/-!
# Requests for another phase

A request for another phase is refused and changes nothing, or it changes the record of its
controller and is noted; it never touches the device. Which of the two it is depends on the phase the
controller is in, and for a suspension also on whether the window is held. A property is `Phaseless` if
it has nothing to do with what such a request changes; it is then kept by all of them.
-/

set_option autoImplicit false

namespace InstanceMemory

variable {π : Type} {i : Nat} {m : Machine π}

/-- The record of a controller after records were changed. -/
theorem Machine.controller_mapController (hi : i < m.controllers.length) (j : Nat)
    (f : Controller → Controller) :
    (m.mapController j f).controller i = if j = i then f (m.controller i) else m.controller i := by
  have hc : (m.mapController j f).controllers[i]? = _ := getElem?_mapController m j i f
  rw [getElem?_of_lt hi, Option.map_some] at hc
  exact controller_of_getElem? hc

namespace Action

theorem replaceController_eq {n : Notice} {text : String} (hn : n.text = .ok text) (i : Nat)
    (c : Controller) (m : Machine π) : ∃ journal, replaceController i c n m =
      .ok (.ok ()) { m.mapController i fun _ => c with journal } := by
  obtain ⟨journal, hnote⟩ := note_of_text hn (m.mapController i fun _ => c)
  have hreplace : onController i (fun _ => c) m = .ok () (m.mapController i fun _ => c) := rfl
  refine ⟨journal, ?_⟩
  rw [replaceController, run_bind_of_ok hreplace, run_bind_of_ok hnote]
  rfl

/-- A fresh controller is made ready. -/
theorem init_cases (i : Nat) (m : Machine π) :
    ((m.controller i).phase ≠ .constructed ∧ ∃ cause, init i m = .ok (.error cause) m) ∨
      (m.controller i).phase = .constructed ∧ ∃ journal, init i m = .ok (.ok ())
        { m.mapController i fun _ => { m.controller i with phase := .initialized } with
          journal } := by
  rw [init, run_get_bind]
  by_cases h : (m.controller i).phase = .constructed
  · simp only [Controller.transition, if_pos h]
    exact .inr ⟨h, replaceController_eq rfl i _ m⟩
  · simp only [Controller.transition, if_neg h]
    exact .inl ⟨h, _, rfl⟩

/-- A ready controller whose window is not held goes to sleep, and forgets its window. -/
theorem suspend_cases (i : Nat) (m : Machine π) :
    (∃ cause, suspend i m = .ok (.error cause) m) ∨
      (m.controller i).phase = .initialized ∧ ∃ journal, suspend i m = .ok (.ok ())
        { m.mapController i fun _ => { m.controller i with
            phase := .suspended, window.cached := none } with
          journal } := by
  rw [suspend, run_get_bind]
  by_cases h : (m.controller i).phase = .initialized
  · simp only [Controller.transition, if_pos h, Controller.tryInvalidate]
    by_cases hheld : (m.controller i).window.isHeld = true
    · rw [if_pos hheld]
      exact .inl ⟨_, rfl⟩
    · rw [if_neg hheld]
      exact .inr ⟨h, replaceController_eq rfl i _ m⟩
  · simp only [Controller.transition, if_neg h]
    exact .inl ⟨_, rfl⟩

/-- A sleeping controller is woken. -/
theorem resume_cases (i : Nat) (m : Machine π) :
    ((m.controller i).phase ≠ .suspended ∧ ∃ cause, resume i m = .ok (.error cause) m) ∨
      (m.controller i).phase = .suspended ∧ ∃ journal, resume i m = .ok (.ok ())
        { m.mapController i fun _ => { m.controller i with phase := .initialized } with
          journal } := by
  rw [resume, run_get_bind]
  by_cases h : (m.controller i).phase = .suspended
  · simp only [Controller.transition, if_pos h]
    exact .inr ⟨h, replaceController_eq rfl i _ m⟩
  · simp only [Controller.transition, if_neg h]
    exact .inl ⟨h, _, rfl⟩

end Action

/-! ## What no request for another phase changes -/

/-- A property that neither a controller's phase and window nor the journal have to do with. -/
def Phaseless (P : Machine π → Prop) : Prop :=
  ∀ m i phase window journal, P m →
    P { m.mapController i fun _ => { m.controller i with phase, window } with journal }

namespace Phaseless

variable {P : Machine π → Prop} (hP : Phaseless P)

include hP

theorem init (i : Nat) : Keeps P (Action.init i) := by
  intro m hm
  rcases Action.init_cases i m with ⟨-, cause, hact⟩ | ⟨-, journal, hact⟩ <;>
    rw [leaves_of_ok hact]
  · exact hm
  · exact hP m i .initialized (m.controller i).window journal hm

theorem suspend (i : Nat) : Keeps P (Action.suspend i) := by
  intro m hm
  rcases Action.suspend_cases i m with ⟨cause, hact⟩ | ⟨-, journal, hact⟩ <;>
    rw [leaves_of_ok hact]
  · exact hm
  · exact hP m i .suspended { (m.controller i).window with cached := none } journal hm

theorem resume (i : Nat) : Keeps P (Action.resume i) := by
  intro m hm
  rcases Action.resume_cases i m with ⟨-, cause, hact⟩ | ⟨-, journal, hact⟩ <;>
    rw [leaves_of_ok hact]
  · exact hm
  · exact hP m i .initialized (m.controller i).window journal hm

end Phaseless
end InstanceMemory
