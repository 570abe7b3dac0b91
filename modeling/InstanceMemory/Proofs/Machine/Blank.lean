import InstanceMemory.Proofs.Machine.Contents
import InstanceMemory.Proofs.Machine.Lasting

/-!
# Blank machines

A device starts with zero memory and an unprogrammed window. A machine is `Blank` for a controller if
it is settled for it and its memory is zero. That lasts until something other than zero is written, so
a machine is still blank when its first controller has been built, whatever was allocated, zeroed and
freed on the way (`Blank.build`), and every object that is placed in it contains zeros.
-/

set_option autoImplicit false

namespace InstanceMemory

open Simulator (Device Vram SystemMemory WordMemory)

variable {i address place : Nat} {m m' : Machine Device} {o : InstanceObject}

/-! ## Memory that is zero -/

namespace Simulator.Device

variable {d : Device}

/-- Every word of the memory is zero. -/
structure Zero (d : Device) : Prop where
  vram : ∀ word, d.vram.words.read word = 0
  memory : ∀ word, d.memory.words.read word = 0

theorem Zero.writeVram (h : d.Zero) (offset : Nat) :
    Zero { d with vram := d.vram.write offset 0 } := by
  refine ⟨?_, h.memory⟩
  intro word
  unfold Vram.write
  cases d.vram.word? offset with
  | none => exact h.vram word
  | some written =>
    have hwrite := d.vram.words.read_write written word 0
    split at hwrite
    · exact hwrite
    · exact hwrite.trans (h.vram word)

theorem Zero.writeMemory (h : d.Zero) (physical : Nat) :
    Zero { d with memory := (d.memory.write physical 0).2 } := by
  refine ⟨h.vram, ?_⟩
  intro word
  unfold SystemMemory.write
  cases d.memory.word? physical with
  | none => exact h.memory word
  | some written =>
    have hwrite := d.memory.words.read_write written word 0
    split at hwrite
    · exact hwrite
    · exact hwrite.trans (h.memory word)

/-- Writing zero keeps the memory zero. -/
theorem Zero.writeAt (h : d.Zero) (place : Nat) : Zero (d.writeAt place 0) := by
  unfold Device.writeAt
  dsimp only
  split
  · exact h.writeVram place
  · exact h.writeMemory place

theorem Zero.setWindow (h : d.Zero) (window : UInt32) (windowWrites : Nat) :
    Zero { d with window, windowWrites } := ⟨h.vram, h.memory⟩

/-- Every word that there is reads as zero. -/
theorem Zero.readAt (h : d.Zero) (hplace : d.HasWord place) : d.readAt place = 0 := by
  unfold HasWord at hplace
  unfold Device.readAt
  split at hplace
  · rename_i hvram
    obtain ⟨word, hword⟩ := Option.isSome_iff_exists.mp hplace
    rw [if_pos hvram, Vram.read, hword]
    exact h.vram word
  · rename_i hvram
    obtain ⟨word, hword⟩ := Option.isSome_iff_exists.mp hplace
    rw [if_neg hvram, SystemMemory.read?, hword]
    exact h.memory word

end Simulator.Device

/-- A machine with zero memory, settled for a controller. -/
structure Blank (i : Nat) (m : Machine Device) : Prop where
  settled : Settled i m
  zero : m.hardware.Zero

namespace Blank

/-- What is placed in zero memory contains zeros. -/
theorem contents (h : Blank i m) (ho : Placed m o) :
    m.contents o = List.replicate o.words 0 := by
  apply List.ext_getElem?
  intro k
  rw [List.getElem?_replicate]
  by_cases hk : k < o.words
  · have hword := ho.hasWord _ (InstanceObject.offset_lt hk) (Nat.dvd_mul_left wordSize k)
    rw [Machine.getElem?_contents hk, h.zero.readAt hword, if_pos hk]
  · rw [List.getElem?_eq_none (by rw [Machine.length_contents]; omega), if_neg hk]

theorem of_store (h : Blank i m) (hstore : m'.store = m.store) : Blank i m' := by
  refine ⟨h.settled.of_store hstore, ?_, ?_⟩
  · intro word
    have hvram : m'.hardware.vram = m.hardware.vram := congrArg (·.hardware.vram) hstore
    rw [hvram]
    exact h.zero.vram word
  · intro word
    have hwords : m'.hardware.memory.words = m.hardware.memory.words :=
      congrArg (·.hardware.memory.words) hstore
    rw [hwords]
    exact h.zero.memory word

/-! ## Zeroing -/

theorem keeps_serveInterrupt : Keeps (Blank i) (Action.serveInterrupt : Action Device Unit) := by
  intro m h
  rw [leaves_of_ok h.settled.serveInterrupt]
  exact h

theorem keeps_record (call : Call) : Keeps (Blank i) (Action.record call) := by
  intro m h
  rw [leaves_of_ok (h.settled.record call)]
  exact h

theorem keeps_readRegister (register : Nat) : Keeps (Blank i) (Action.readRegister register) := by
  have hread : Keeps (Blank i) (Action.onHardware (Platform.readRegister register)) := by
    apply Action.keeps_onHardware
    intro m h
    rwa [Action.leaves_platform_readRegister]
  exact keeps_serveInterrupt.bind fun _ => hread.bind fun _ => (keeps_record _).bind fun _ =>
    keeps_pure _

theorem keeps_writeAperture (address : Nat) : Keeps (Blank i) (Action.writeAperture address 0) := by
  intro m h
  rw [leaves_of_ok (h.settled.writeAperture address 0)]
  exact ⟨h.settled.setHardware rfl, h.zero.writeVram address⟩

/-- Zero is written, or nothing, whether the address can be resolved or not. -/
theorem keeps_writeShown (address : Nat) :
    Keeps (Blank i) (Action.writeRegister (apertureRegister + windowOffset address) 0) := by
  have hwrite : Keeps (Blank i) (Action.onHardware
      (Platform.writeRegister (apertureRegister + windowOffset address) 0) : Action Device _) := by
    apply Action.keeps_onHardware
    intro m h
    have hoffset := windowOffset_lt address
    have hshown : m.hardware.shownAddress? (apertureRegister + windowOffset address) = some _ :=
      if_pos ⟨Nat.le_add_right _ _, Nat.add_lt_add_left hoffset _⟩
    have hregister : Device.writeRegister (apertureRegister + windowOffset address) 0 m.hardware = _ :=
      Device.writeRegister_of_shown hshown 0
    unfold leaves Platform.writeRegister Simulator.instPlatformDevice
    dsimp only
    rw [hregister, Device.write]
    cases m.hardware.resolve _ with
    | error f => exact h
    | ok place =>
      cases place with
      | none => exact h
      | some place =>
        exact ⟨h.settled.setHardware (m.hardware.window_writeAt place 0), h.zero.writeAt place⟩
  exact keeps_serveInterrupt.bind fun _ => hwrite.bind fun _ => keeps_record _

theorem keeps_zeroing (hi : o.owner = i) : Keeps (Blank i) (Action.fill o 0) := by
  have hword : ∀ offset, Keeps (Blank i) (Action.writeWord o offset 0) := by
    intro offset
    have hwindowed : ∀ address, Keeps (Blank i) (Action.writeWindowed o.owner address 0) := by
      intro address m h
      subst hi
      have hkeeps : Keeps (fun m => Settled o.owner m ∧ m.hardware.Zero)
          (Action.writeWindowed o.owner address 0) := by
        apply Settled.keeps_throughWindow (fun d window writes hd => hd.setWindow window writes)
        intro m h
        obtain ⟨hsettled, hzero⟩ := keeps_writeShown address m ⟨h.1, h.2⟩
        exact ⟨hsettled, hzero⟩
      obtain ⟨hsettled, hzero⟩ := hkeeps m ⟨h.settled, h.zero⟩
      exact ⟨hsettled, hzero⟩
    unfold Action.writeWord
    refine Keeps.bind (keeps_lift _) ?_
    intro address
    cases o.strategy with
    | heap => exact keeps_writeAperture address
    | iommu => exact hwindowed address
    | dma => exact hwindowed address
  exact Action.keeps_fill hword

end Blank

/-! ## Building -/

/-- System memory lies low, and there are at most so many controllers. -/
structure Bounded (count : Nat) (m : Machine Device) : Prop where
  low : Low m
  length : m.controllers.length ≤ count

namespace Bounded

variable {count : Nat}

theorem of_books (h : Bounded count m) (hbooks : m'.books = m.books) : Bounded count m' :=
  ⟨h.low.of_books hbooks, Machine.length_of_books hbooks ▸ h.length⟩

theorem of_store (h : Bounded count m) (hstore : m'.store = m.store) : Bounded count m' := by
  have hlength := congrArg (·.controllers.length) hstore
  simp only [Machine.store, List.length_map] at hlength
  exact ⟨h.low.of_store hstore, hlength ▸ h.length⟩

theorem lasting (i count : Nat) : Lasting i (Bounded count) where
  of_store _ _ hstore h := h.of_store hstore
  zeroing o _ m h := h.of_books (Action.books_fill o 0 m rfl)
  register register m h := h.of_books (Action.books_readRegister register m rfl)

end Bounded

/-- A blank machine with at most so many controllers, whose system memory lies low. -/
structure New (count : Nat) (m : Machine Device) : Prop where
  blank : Blank 0 m
  bounded : Bounded count m

namespace New

/-- **A machine stays new while its controller makes and zeroes objects.** -/
theorem lasting (count : Nat) : Lasting 0 (New count) where
  of_store _ _ hstore h := ⟨h.blank.of_store hstore, h.bounded.of_store hstore⟩
  zeroing o ho m h := ⟨Blank.keeps_zeroing ho m h.blank,
    (Bounded.lasting 0 count).zeroing o ho m h.bounded⟩
  register register m h := ⟨Blank.keeps_readRegister register m h.blank,
    (Bounded.lasting 0 count).register register m h.bounded⟩

/-- **A machine is still new when its first controller is built**, or fails to be built. -/
theorem build (h : New 0 m) : New 1 (leaves (Action.build : Action Device _) m) := by
  refine Lasting.build (lasting 0) (lasting 1) ?_ ?_ ?_ h
  · intro m h
    exact ⟨h.blank, h.bounded.low, Nat.le_succ_of_le h.bounded.length⟩
  · intro m h
    exact Nat.le_zero.mp h.bounded.length
  · intro m c h hwindow
    obtain ⟨⟨hsettled, hzero⟩, hlow, hlength⟩ := h
    have hnone : m.controllers = [] := List.eq_nil_of_length_eq_zero (Nat.le_zero.mp hlength)
    refine ⟨⟨⟨hsettled.silent, hsettled.uninterrupted, ?_⟩, hzero⟩, hlow, ?_⟩
    · intro c' base hc' hcached
      -- the new controller knows nothing of the window yet
      simp only [hnone, List.nil_append] at hc'
      obtain rfl := Option.some.inj hc'
      rw [hwindow] at hcached
      cases hcached
    · simp only [hnone, List.nil_append]
      exact Nat.le_refl 1

end New
end InstanceMemory
