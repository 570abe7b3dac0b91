import InstanceMemory.Proofs.Machine.Answers
import InstanceMemory.Proofs.Machine.Store

/-!
# What zeroing keeps

Books and store both change where a new object is zeroed, and where a controller is added. A property
is `Lasting` for a controller if it can be read from the store, and is kept by reading a register and
by zeroing an object that the controller made. Requests to this controller keep such a property, and
building the controller keeps it but for the record that it adds (`Lasting.build`).
-/

set_option autoImplicit false

namespace InstanceMemory

open Simulator (Device)

variable {α : Type} {i : Nat}

theorem Action.keeps_guarding {P : Machine Device → Prop} {act : Action Device (Except Error α)}
    {undo : Action Device Unit} (hundo : Keeps P undo) (hact : Keeps P act) :
    Keeps P (guarding undo act) := by
  apply (keeps_orUndo hact hundo).bind
  intro answer
  cases answer with
  | ok a => exact keeps_pure _
  | error cause => exact hundo.bind fun _ => keeps_pure _

/-- A property of the store that reading a register keeps, and zeroing an object of a controller. -/
structure Lasting (i : Nat) (P : Machine Device → Prop) : Prop where
  of_store : ∀ m m', m'.store = m.store → P m → P m'
  zeroing : ∀ object, object.owner = i → Keeps P (Action.fill object 0)
  register : ∀ address, Keeps P (Action.readRegister address)

namespace Lasting

variable {P : Machine Device → Prop} (hP : Lasting i P)

include hP

/-- What leaves the store alone keeps what lasts. -/
theorem keeps {act : Action Device α} (h : ∀ store, Keeps (Machine.store · = store) act) :
    Keeps P act := fun m hm => hP.of_store _ _ (h _ m rfl) hm

theorem make (size align : Nat) (zeroed : Bool) : Keeps P (Action.make i size align zeroed) := by
  have hkeeps := hP.keeps fun _ => Action.store_place i size align
  apply hkeeps.bind_of_yields (Action.verdict_place i size align)
  intro answer hanswer
  cases answer with
  | error cause => exact keeps_pure _
  | ok object =>
    have hfree := hP.keeps fun _ => Action.store_free object
    dsimp only
    split
    · exact (Action.keeps_orUndo (hP.zeroing object hanswer.1) hfree).bind
        fun _ => keeps_pure _
    · exact keeps_pure _

theorem allocate (size align : Nat) (zeroed : Bool) :
    Keeps P (Action.allocate i size align zeroed) := by
  apply keeps_get_bind
  intro m hm
  cases (m.controller i).phase with
  | suspended => exact hm
  | constructed => exact hP.make size align zeroed m hm
  | initialized => exact hP.make size align zeroed m hm

theorem withAllocated (size : Nat) (zeroed : Bool)
    {next : InstanceObject → Action Device (Except Error α)} (hnext : ∀ o, Keeps P (next o)) :
    Keeps P (Action.withAllocated i size zeroed next) := by
  apply (hP.allocate size 0 zeroed).bind
  intro answer
  cases answer with
  | error cause => exact keeps_pure _
  | ok object => exact Action.keeps_guarding (hP.keeps fun _ => Action.store_free object) (hnext object)

theorem placeFirmware (layout : ReservedLayout) : Keeps P (Action.placeFirmware i layout) := by
  refine hP.withAllocated _ _ fun vbios => hP.withAllocated _ _ fun ramht =>
    hP.withAllocated _ _ fun ramro => hP.withAllocated _ _ ?_
  intro ramfc
  exact Keeps.bind (keeps_lift _) fun _ => Keeps.bind (keeps_lift _) fun _ =>
    Keeps.bind (keeps_lift _) fun _ => Keeps.bind (keeps_lift _) fun _ => keeps_pure _

theorem equip (layout : ReservedLayout) : Keeps P (Action.equip i layout) := by
  apply Action.keeps_guarding (hP.keeps fun _ => Action.store_teardown i)
  apply (hP.placeFirmware layout).bind
  intro answer
  cases answer with
  | error cause => exact keeps_pure _
  | ok firmware =>
    have hrecord : Keeps P
        (Action.onController i fun c => { c with firmware := some firmware } : Action Device _) := by
      refine hP.keeps fun _ => Action.store_onController ?_
      intro c
      rfl
    exact hrecord.bind fun _ => keeps_pure _

theorem reserveHeap (chipset : ChipsetInfo) : Keeps P (Action.reserveHeap chipset) := by
  have hrecord : ∀ call, Keeps P (Action.record call) :=
    fun call => hP.keeps fun _ => Action.store_record call
  have hnote : ∀ n, Keeps P (Action.note n) := fun n => hP.keeps fun _ => Action.store_note n
  unfold Action.reserveHeap
  split
  · exact keeps_pure _
  · refine Keeps.bind ((hrecord _).bind fun _ => keeps_get_bind fun _ hm => hm) ?_
    intro bar
    refine Keeps.bind ((hrecord _).bind fun _ => keeps_get_bind fun _ hm => hm) ?_
    intro answer
    cases answer with
    | none => exact (hnote _).bind fun _ => keeps_pure _
    | some length =>
      refine (hP.register _).bind fun units => Keeps.bind (keeps_lift _) ?_
      intro layout
      split
      · exact keeps_pure _
      · apply (hnote _).bind
        intro _
        cases Backing.ofReserved layout.reserved length <;> exact keeps_pure _

/-- One of two properties lasts if both do. -/
theorem or {Q : Machine Device → Prop} (hQ : Lasting i Q) : Lasting i fun m => P m ∨ Q m where
  of_store m m' hstore h := h.imp (hP.of_store m m' hstore) (hQ.of_store m m' hstore)
  zeroing o ho m h := h.imp (hP.zeroing o ho m) (hQ.zeroing o ho m)
  register address m h := h.imp (hP.register address m) (hQ.register address m)

omit hP in
/-- **Building a controller keeps what lasts for it**, but for the record that it adds. -/
theorem build {before : Machine Device → Prop} (hbefore : Lasting i before) (hP : Lasting i P)
    (hweak : ∀ m, before m → P m) (hnumber : ∀ m, before m → m.controllers.length = i)
    (hadd : ∀ m c, before m → c.window = .unknown →
      P { m with controllers := m.controllers ++ [c] })
    {m : Machine Device} (hm : before m) : P (leaves (Action.build : Action Device _) m) := by
  have henlist : ∀ (n : Notice) (c : Controller), c.window = .unknown →
      P (leaves (Action.enlist n c) m) := by
    intro n c hwindow
    have hnote := hbefore.keeps fun _ => Action.store_note n
    unfold Action.enlist
    cases hact : Action.note n m with
    | error f m₁ =>
      rw [leaves, run_bind_of_error hact]
      exact hweak _ (hnote.of_error hm hact)
    | ok a m₁ =>
      rw [leaves_bind_of_ok hact]
      exact hadd m₁ c (hnote.of_ok hm hact) hwindow
  have hheap : ∀ chipset, P (leaves (Action.buildOnHeap chipset : Action Device _) m) := by
    intro chipset
    have hreserve := hbefore.reserveHeap chipset
    unfold Action.buildOnHeap
    cases hact : (Action.reserveHeap chipset : Action Device _) m with
    | error f m₁ =>
      rw [leaves, run_bind_of_error hact]
      exact hweak _ (hreserve.of_error hm hact)
    | ok answer m₁ =>
      rw [leaves_bind_of_ok hact]
      have hm₁ := hreserve.of_ok hm hact
      cases answer with
      | error cause => exact hweak _ hm₁
      | ok reserved =>
        obtain ⟨backing, layout⟩ := reserved
        obtain rfl := hnumber m₁ hm₁
        exact hP.equip layout _ (hadd m₁ (.fresh chipset backing (some layout)) hm₁ rfl)
  unfold Action.build
  rw [leaves, run_get_bind, ← leaves]
  split
  · exact hweak _ hm
  · split
    · exact hheap _
    · split
      · exact henlist _ _ rfl
      · exact henlist _ _ rfl

end Lasting
end InstanceMemory
