import InstanceMemory.Proofs.Machine.HeapBuilding
import InstanceMemory.Proofs.Machine.Tally

/-!
# Operations that do not fault

`Faultless P act` says that an action answers wherever it starts from a state with the property `P`,
and leaves one. It is to `Keeps` what total correctness is to partial correctness, and like `Keeps` it
passes through sequences.

A machine is `Orderly` if it is in balance with its live objects and nothing interrupts an access. On
such a machine **every access that lies within a live object is answered**: its addresses end below the
address limit, and whatever is mapped is a page that is lent (`Orderly.readWords` and its companions).
So no new object faults while it is zeroed, and no allocation does (`Orderly.allocate`). Building a
controller faults on no machine at all (`Action.build_answers`).
-/

set_option autoImplicit false

namespace InstanceMemory

open Simulator (Device)

/-! ## Actions that answer -/

section

variable {σ α β : Type} {P : σ → Prop} {act : EStateM Fault σ α} {a : α}

/-- An action answers wherever it starts from a state with a property, and leaves one. -/
def Faultless (P : σ → Prop) (act : EStateM Fault σ α) : Prop :=
  ∀ s, P s → ∃ a s', act s = .ok a s' ∧ P s'

theorem faultless_pure (a : α) : Faultless P (pure a) := fun s hs => ⟨a, s, rfl, hs⟩

theorem Faultless.bind {next : α → EStateM Fault σ β} (h : Faultless P act)
    (hnext : ∀ a, Faultless P (next a)) : Faultless P (act >>= next) := by
  intro s hs
  obtain ⟨a, s₁, hact, h₁⟩ := h s hs
  rw [run_bind_of_ok hact]
  exact hnext a s₁ h₁

/-- A checked computation that answers comes first. -/
theorem Faultless.lift_bind {x : Except Fault α} {next : α → EStateM Fault σ β} (hx : x = .ok a)
    (hnext : Faultless P (next a)) : Faultless P (monadLift x >>= next) := by
  intro s hs
  rw [run_bind_of_ok (run_lift_of_ok hx s)]
  exact hnext s hs

theorem faultless_mapM {f : α → EStateM Fault σ β} {l : List α} (h : ∀ a ∈ l, Faultless P (f a)) :
    Faultless P (l.mapM f) := by
  induction l with
  | nil =>
    rw [List.mapM_nil]
    exact faultless_pure _
  | cons a rest ih =>
    obtain ⟨ha, hrest⟩ := List.forall_mem_cons.mp h
    rw [List.mapM_cons]
    exact ha.bind fun b => (ih hrest).bind fun bs => faultless_pure _

theorem faultless_forM {f : α → EStateM Fault σ PUnit} {l : List α} (h : ∀ a ∈ l, Faultless P (f a)) :
    Faultless P (l.forM f) := by
  induction l with
  | nil => exact faultless_pure _
  | cons a rest ih =>
    obtain ⟨ha, hrest⟩ := List.forall_mem_cons.mp h
    exact ha.bind fun _ => ih hrest

end

/-! ## Accesses -/

variable {α : Type} {m : Machine Device} {roster : List (Option FirmwareObjects)}
  {live : List InstanceObject} {o : InstanceObject} {i offset words : Nat}

/-- A machine in balance with its live objects, on which nothing interrupts an access. -/
structure Orderly (roster : List (Option FirmwareObjects)) (live : List InstanceObject)
    (m : Machine Device) : Prop where
  accounts : Accounts roster live m
  quiet : Quiet m

/-- What leaves the books alone leaves a machine orderly, if it keeps it quiet. -/
theorem faultless_of_books {act : Action Device α}
    (hbooks : ∀ books, Keeps (Machine.books · = books) act) (hquiet : Keeps Quiet act)
    (h : ∀ m, Orderly roster live m → ∃ a m', act m = .ok a m') :
    Faultless (Orderly roster live) act := by
  intro m hm
  obtain ⟨a, m', hact⟩ := h m hm
  exact ⟨a, m', hact, hm.accounts.of_books ((hbooks _).of_ok rfl hact), hquiet.of_ok hm.quiet hact⟩

namespace Orderly

/-- **Every device address can be read through the window.** -/
theorem readWindowed (h : Orderly roster live m) (i address : Nat) :
    ∃ value m', Action.readWindowed i address m = .ok value m' := by
  have hresolving := h.accounts.resolving.selecting (m.trusted i) (windowBase address)
  obtain ⟨value, hread⟩ := hresolving.readRegister address
  obtain ⟨journal, hrun⟩ :=
    h.quiet.throughWindow_of_ok (fun m hm => hm.readRegister _) hread
  exact ⟨value, _, hrun⟩

/-- **Every device address can be written through the window.** -/
theorem writeWindowed (h : Orderly roster live m) (i address : Nat) (value : UInt32) :
    ∃ m', Action.writeWindowed i address value m = .ok () m' := by
  have hresolving := h.accounts.resolving.selecting (m.trusted i) (windowBase address)
  obtain ⟨d, hwrite, -⟩ := hresolving.writeRegister address value
  obtain ⟨journal, hrun⟩ : ∃ journal, Action.writeWindowed i address value m =
      .ok () { m.showing i (windowBase address) with hardware := d, journal } :=
    h.quiet.throughWindow_of_ok (fun m hm => hm.writeRegister _ value) hwrite
  exact ⟨_, hrun⟩

end Orderly

/-- A word below the address limit can be read. -/
theorem faultless_readWord (haddress : o.offset + offset < addressLimit) :
    Faultless (Orderly roster live) (Action.readWord o offset) := by
  refine faultless_of_books (fun _ => Action.books_readWord o offset)
    (Quiet.keeps_readWord o offset) fun m h => ?_
  unfold Action.readWord
  rw [run_bind_of_ok (run_lift_of_ok (checkedAdd_of_lt haddress) m)]
  cases o.strategy with
  | heap =>
    dsimp only
    unfold Action.readAperture
    rw [run_get_bind, run_bind_of_ok (Action.record_eq _ m)]
    exact ⟨_, _, rfl⟩
  | iommu => exact h.readWindowed _ _
  | dma => exact h.readWindowed _ _

/-- A word below the address limit can be written. -/
theorem faultless_writeWord (haddress : o.offset + offset < addressLimit) (value : UInt32) :
    Faultless (Orderly roster live) (Action.writeWord o offset value) := by
  refine faultless_of_books (fun _ => Action.books_writeWord o offset value)
    (Quiet.keeps_writeWord o offset value) fun m h => ?_
  unfold Action.writeWord
  rw [run_bind_of_ok (run_lift_of_ok (checkedAdd_of_lt haddress) m)]
  cases o.strategy with
  | heap =>
    obtain ⟨m', hwrite, -⟩ := Action.writeAperture_writes (o.offset + offset) value m
    exact ⟨_, m', hwrite⟩
  | iommu =>
    obtain ⟨m', hwrite⟩ := h.writeWindowed o.owner (o.offset + offset) value
    exact ⟨_, m', hwrite⟩
  | dma =>
    obtain ⟨m', hwrite⟩ := h.writeWindowed o.owner (o.offset + offset) value
    exact ⟨_, m', hwrite⟩

/-- Words that end below the address limit can be read. -/
theorem faultless_readFrom (before : List UInt32)
    (hlimit : o.offset + offset + words * wordSize < addressLimit) :
    Faultless (Orderly roster live) (Action.readFrom o words offset before) := by
  induction words generalizing offset before with
  | zero => exact faultless_pure _
  | succ words ih =>
    rw [Nat.succ_mul] at hlimit
    have hword : o.offset + offset < addressLimit := by omega
    have hnext : checkedAdd offset wordSize = .ok (offset + wordSize) :=
      checkedAdd_of_lt (by omega)
    refine (faultless_readWord hword).bind fun value => .lift_bind hnext (ih _ ?_)
    omega

/-- Words that end below the address limit can be written. -/
theorem faultless_writeFrom {values : List UInt32}
    (hlimit : o.offset + offset + values.length * wordSize < addressLimit) :
    Faultless (Orderly roster live) (Action.writeFrom o values offset) := by
  induction values generalizing offset with
  | nil => exact faultless_pure _
  | cons value rest ih =>
    rw [List.length_cons, Nat.succ_mul] at hlimit
    have hword : o.offset + offset < addressLimit := by omega
    have hnext : checkedAdd offset wordSize = .ok (offset + wordSize) :=
      checkedAdd_of_lt (by omega)
    refine (faultless_writeWord hword value).bind fun _ => .lift_bind hnext (ih ?_)
    omega

/-- Words that end below the address limit can be filled. -/
theorem faultless_fillFrom (value : UInt32)
    (hlimit : o.offset + offset + words * wordSize < addressLimit) :
    Faultless (Orderly roster live) (Action.fillFrom o value words offset) := by
  induction words generalizing offset with
  | zero => exact faultless_pure _
  | succ words ih =>
    rw [Nat.succ_mul] at hlimit
    have hword : o.offset + offset < addressLimit := by omega
    refine (faultless_writeWord hword value).bind fun _ => ih ?_
    omega

namespace Orderly

/-- What lies within a live object ends below the address limit. -/
theorem limit_lt (h : Orderly roster live m) (ho : o ∈ live) (hfits : o.Fits offset words) :
    o.offset + offset + words * wordSize < addressLimit := by
  have hlimit := h.accounts.limit_lt ho
  have hstop := hfits.2
  omega

theorem checkAccess (h : Orderly roster live m) (ho : o ∈ live) (hfits : o.Fits offset words) :
    o.checkAccess offset words = .ok () := by
  have hlimit := h.accounts.limit_lt ho
  exact InstanceObject.checkAccess_of_fits (by omega) hfits

/-- **Words within a live object can be read.** -/
theorem readWords (h : Orderly roster live m) (ho : o ∈ live) (hfits : o.Fits offset words) :
    ∃ values m', Action.readWords o offset words m = .ok values m' ∧ Orderly roster live m' :=
  Faultless.lift_bind (h.checkAccess ho hfits) (faultless_readFrom [] (h.limit_lt ho hfits)) m h

theorem read32 (h : Orderly roster live m) (ho : o ∈ live) (hfits : o.Fits offset 1) :
    ∃ value m', Action.read32 o offset m = .ok value m' ∧ Orderly roster live m' :=
  Faultless.lift_bind (h.checkAccess ho hfits)
    (faultless_readWord (Nat.lt_of_le_of_lt (Nat.le_add_right _ _) (h.limit_lt ho hfits))) m h

/-- **Words within a live object can be written.** -/
theorem writeWords {values : List UInt32} (h : Orderly roster live m) (ho : o ∈ live)
    (hfits : o.Fits offset values.length) :
    ∃ a m', Action.writeWords o offset values m = .ok a m' ∧ Orderly roster live m' :=
  Faultless.lift_bind (h.checkAccess ho hfits) (faultless_writeFrom (h.limit_lt ho hfits)) m h

theorem write32 (h : Orderly roster live m) (ho : o ∈ live) (hfits : o.Fits offset 1)
    (value : UInt32) :
    ∃ a m', Action.write32 o offset value m = .ok a m' ∧ Orderly roster live m' :=
  Faultless.lift_bind (h.checkAccess ho hfits)
    (faultless_writeWord (Nat.lt_of_le_of_lt (Nat.le_add_right _ _) (h.limit_lt ho hfits)) value) m h

/-- **A live object can be filled.** -/
theorem fill (h : Orderly roster live m) (ho : o ∈ live) (value : UInt32) :
    ∃ a m', Action.fill o value m = .ok a m' ∧ Orderly roster live m' :=
  faultless_fillFrom value (h.limit_lt ho o.fits_all) m h

/-! ## Allocating -/

/-- **An allocation is granted or refused**, and does not fault while it zeroes the new object. -/
theorem allocate (h : Orderly roster live m) (hi : i < roster.length) (size align : Nat)
    (zeroed : Bool) : ∃ answer m', Action.allocate i size align zeroed m = .ok answer m' := by
  have hmake : ∃ answer m', Action.make i size align zeroed m = .ok answer m' := by
    unfold Action.make
    rcases h.accounts.place hi size align with
      ⟨cause, m₁, hcause, -, -⟩ | ⟨object, m₁, hobject, -, h₁, -⟩
    · exact ⟨_, m₁, run_bind_of_ok hcause _⟩
    · have hquiet : Quiet m₁ :=
        h.quiet.of_store ((Action.store_place i size align).of_ok rfl hobject)
      rw [run_bind_of_ok hobject]
      cases zeroed with
      | false => exact ⟨_, m₁, rfl⟩
      | true =>
        have horderly : Orderly roster (object :: live) m₁ := ⟨h₁, hquiet⟩
        obtain ⟨_, m₂, hfill, -⟩ := horderly.fill List.mem_cons_self 0
        exact ⟨_, m₂, run_bind_of_ok (Action.run_orUndo_of_ok hfill _) _⟩
  unfold Action.allocate
  rw [run_get_bind]
  cases (m.controller i).phase with
  | suspended => exact ⟨_, m, rfl⟩
  | constructed => exact hmake
  | initialized => exact hmake

end Orderly

/-! ## Requests for another phase -/

theorem faultless_init (i : Nat) : Faultless (Orderly roster live) (Action.init i) := by
  refine faultless_of_books (fun _ => Action.books_init i) (Quiet.phaseless.init i) fun m _ => ?_
  rcases Action.init_cases i m with ⟨-, cause, hact⟩ | ⟨-, journal, hact⟩
  · exact ⟨_, _, hact⟩
  · exact ⟨_, _, hact⟩

theorem faultless_suspend (i : Nat) : Faultless (Orderly roster live) (Action.suspend i) := by
  refine faultless_of_books (fun _ => Action.books_suspend i) (Quiet.phaseless.suspend i) fun m _ => ?_
  rcases Action.suspend_cases i m with ⟨cause, hact⟩ | ⟨-, journal, hact⟩
  · exact ⟨_, _, hact⟩
  · exact ⟨_, _, hact⟩

theorem faultless_resume (i : Nat) : Faultless (Orderly roster live) (Action.resume i) := by
  refine faultless_of_books (fun _ => Action.books_resume i) (Quiet.phaseless.resume i) fun m _ => ?_
  rcases Action.resume_cases i m with ⟨-, cause, hact⟩ | ⟨-, journal, hact⟩
  · exact ⟨_, _, hact⟩
  · exact ⟨_, _, hact⟩

/-! ## Building -/

namespace Action

/-- A heap is built upon or refused, whatever the aperture is like. -/
theorem buildOnHeap_answers (chipset : ChipsetInfo) (m : Machine Device) :
    ∃ answer m', buildOnHeap chipset m = .ok answer m' := by
  by_cases hfamily : chipset.family = .curie
  · cases hmap : Platform.mapBar m.hardware (servingBar m.hardware) with
    | none =>
      obtain ⟨m₁, hbar, hwrites, -⟩ := barLength_writes primaryBar m
      obtain ⟨m₂, hmapped, -⟩ := mapBar_writes (servingBar m.hardware) m₁
      have hanswer : mapBar (if Platform.barLength m.hardware primaryBar ≠ 0 then primaryBar
          else fallbackBar) m₁ = .ok none m₂ := by
        rw [hwrites.hardware] at hmapped
        exact hmapped.trans (congrArg (EStateM.Result.ok · m₂) hmap)
      obtain ⟨m₃, hnote, -⟩ := note_writes (n := .barUnmapped) rfl m₂
      have hreserve : ∃ cause, reserveHeap chipset m = .ok (.error cause) m₃ := by
        unfold reserveHeap
        rw [if_neg (not_not.mpr hfamily), run_bind_of_ok hbar]
        dsimp only
        rw [run_bind_of_ok hanswer]
        dsimp only
        rw [run_bind_of_ok hnote]
        exact ⟨_, rfl⟩
      obtain ⟨cause, hreserve⟩ := hreserve
      exact ⟨.error cause, m₃, run_bind_of_ok hreserve _⟩
    | some length =>
      have hunits : Platform.readRegister unitConfigRegister m.hardware =
          .ok m.hardware.config.unitConfig m.hardware := rfl
      obtain ⟨reserved, -, -, hlayout⟩ := ReservedLayout.compute_eq chipset.chipset
        (UInt32.ofNat (enabledShaderUnits m.hardware.config.unitConfig))
      have hwrites := buildOnHeap_writes hfamily hmap hunits hlayout
      split at hwrites
      · obtain ⟨m', hbuild, -⟩ := hwrites
        exact ⟨_, m', hbuild⟩
      · obtain ⟨m', hbuild, -⟩ := hwrites
        exact ⟨_, m', hbuild⟩
  · unfold buildOnHeap reserveHeap
    rw [if_pos hfamily]
    exact ⟨_, m, rfl⟩

/-- **A controller is built or refused**, on every machine with a simulated device. -/
theorem build_answers (m : Machine Device) : ∃ answer m', build m = .ok answer m' := by
  cases hvram : (Platform.chipset m.hardware).hasVram with
  | false =>
    rcases build_cases hvram with ⟨cause, hbuild⟩ | ⟨c, journal, -, -, -, hbuild⟩
    · exact ⟨_, m, hbuild⟩
    · exact ⟨_, _, hbuild⟩
  | true =>
    unfold build
    rw [run_get_bind]
    by_cases hfamily : ¬ (Platform.chipset m.hardware).family.isSupported
    · rw [if_pos hfamily]
      exact ⟨_, m, rfl⟩
    · rw [if_neg hfamily, if_pos hvram]
      exact buildOnHeap_answers _ m

end Action
end InstanceMemory
