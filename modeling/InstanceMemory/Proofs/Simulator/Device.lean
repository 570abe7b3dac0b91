import InstanceMemory.Proofs.Actions
import InstanceMemory.Simulator.Device

/-!
# The memory of the device

A device has one memory that objects lie in: its dedicated memory, or else system memory. `d.readAt`
reads the word at a place of it, and `d.HasWord` says that there is one. A device address that
resolves to a place reads and writes what is there, and writing a word changes no other
(`Device.readAt_writeAt`).

A device that starts has all of its system memory free, and all device addresses behind its IOMMU if
it has one (`Device.start_eq_ok`).
-/

set_option autoImplicit false

namespace InstanceMemory.Simulator

/-! ## Words by their places -/

theorem Vram.read_write (vram : Vram) {place : Nat} (other : Nat) (value : UInt32)
    (h : (vram.word? place).isSome) :
    (vram.write place value).read other = if other = place then value else vram.read other := by
  obtain ⟨size, words⟩ := vram
  unfold word? at h
  split at h
  · rename_i hplace
    have hwrite : Vram.write place value ⟨size, words⟩ = ⟨size, words.write (place / 4) value⟩ := by
      simp only [write, word?, hplace, and_self, ↓reduceIte]
    rw [hwrite]
    unfold read word?
    by_cases hother : other % 4 = 0 ∧ other / 4 < size
    · simp only [hother, and_self, ↓reduceIte, WordMemory.read_write]
      congr 1
      simp only [eq_iff_iff]
      omega
    · have hne : other ≠ place := fun heq => hother (heq ▸ hplace)
      simp only [hother, ↓reduceIte, hne]
  · cases h

theorem SystemMemory.read?_write (memory : SystemMemory) {place : Nat} (other : Nat) (value : UInt32)
    (h : (memory.word? place).isSome) :
    (memory.write place value).2.read? other =
      if other = place then some value else memory.read? other := by
  obtain ⟨size, words, space, pageBudget, refusesBuffers, livePages, liveBuffers⟩ := memory
  unfold word? at h
  dsimp only at h
  split at h
  · rename_i hplace
    obtain ⟨hbase, haligned, hfits⟩ := hplace
    unfold write read? word?
    simp only [hbase, haligned, hfits, and_self, ↓reduceIte]
    by_cases hother : systemMemoryBase ≤ other ∧ (other - systemMemoryBase) % 4 = 0 ∧
        other - systemMemoryBase + 4 ≤ size
    · simp only [hother, and_self, ↓reduceIte, Option.map_some, WordMemory.read_write]
      by_cases heq : other = place
      · simp only [heq, ↓reduceIte]
      · have hne : (other - systemMemoryBase) / 4 ≠ (place - systemMemoryBase) / 4 := by omega
        simp only [heq, hne, ↓reduceIte]
    · have hne : other ≠ place := fun heq => hother (heq ▸ ⟨hbase, haligned, hfits⟩)
      simp only [hother, ↓reduceIte, hne, Option.map_none]
  · cases h

namespace Device

variable {config : Config} {device d : Device} {shared : Option RangeSpace}
  {address place : Nat} {value : UInt32}

/-- The word at a place of the memory that objects lie in. -/
def readAt (d : Device) (place : Nat) : UInt32 :=
  if d.config.hasVram then d.vram.read place else (d.memory.read? place).getD busError

/-- There is a word at a place of the memory that objects lie in. -/
def HasWord (d : Device) (place : Nat) : Prop :=
  if d.config.hasVram then (d.vram.word? place).isSome else (d.memory.word? place).isSome

/-- **Writing a word changes no other word.** -/
theorem readAt_writeAt (h : d.HasWord place) (other : Nat) (value : UInt32) :
    (d.writeAt place value).readAt other = if other = place then value else d.readAt other := by
  unfold HasWord at h
  unfold readAt writeAt
  by_cases hvram : d.config.hasVram = true
  · rw [if_pos hvram] at h
    simp only [hvram, ↓reduceIte]
    exact d.vram.read_write other value h
  · rw [if_neg hvram] at h
    simp only [hvram, Bool.false_eq_true, ↓reduceIte]
    rw [d.memory.read?_write other value h]
    split <;> rfl

/-! ## The window and the memory -/

/-- The window register does not tell where an address lies. -/
theorem resolve_setWindow (d : Device) (window : UInt32) (windowWrites address : Nat) :
    { d with window, windowWrites }.resolve address = d.resolve address := rfl

/-- The window register does not tell what a device address reads. -/
theorem read_setWindow (d : Device) (window : UInt32) (windowWrites address : Nat) :
    { d with window, windowWrites }.read address = d.read address := rfl

/-- The same result, on a device with another window. -/
def overWindow {α : Type} (window : UInt32) (windowWrites : Nat) :
    EStateM.Result Fault Device α → EStateM.Result Fault Device α
  | .ok a d => .ok a { d with window, windowWrites }
  | .error f d => .error f { d with window, windowWrites }

/-- The window register does not tell what a write at a device address does. -/
theorem write_setWindow (d : Device) (window : UInt32) (windowWrites address : Nat) (value : UInt32) :
    write address value { d with window, windowWrites } =
      overWindow window windowWrites (write address value d) := by
  unfold write
  rw [resolve_setWindow]
  cases d.resolve address with
  | error f => rfl
  | ok place =>
    cases place with
    | none => rfl
    | some place =>
      dsimp only [overWindow]
      unfold writeAt
      dsimp only
      split <;> rfl

theorem readAt_setWindow (d : Device) (window : UInt32) (windowWrites place : Nat) :
    { d with window, windowWrites }.readAt place = d.readAt place := rfl

theorem hasWord_setWindow (d : Device) (window : UInt32) (windowWrites place : Nat) :
    { d with window, windowWrites }.HasWord place ↔ d.HasWord place := .rfl

theorem window_writeAt (d : Device) (place : Nat) (value : UInt32) :
    (d.writeAt place value).window = d.window := by
  unfold writeAt
  dsimp only
  split <;> rfl

/-! ## Device addresses -/

theorem read_of_resolve (h : d.resolve address = .ok (some place)) :
    d.read address = .ok (d.readAt place) := by
  unfold read readAt
  rw [h, ok_bind]
  dsimp only
  split <;> rfl

theorem write_of_resolve (h : d.resolve address = .ok (some place)) (value : UInt32) :
    write address value d = .ok () (d.writeAt place value) := by
  simp only [write, h]

/-- On a device with dedicated memory, a device address is the place it resolves to. -/
theorem resolve_of_vram (h : d.config.hasVram = true) (address : Nat) :
    d.resolve address = .ok (some address) :=
  if_pos h

/-- The aperture shows the word that the device reads. -/
theorem readAt_of_vram (hvram : d.config.hasVram = true)
    (h : d.resolve address = .ok (some place)) : d.readAt place = d.vram.read address := by
  rw [resolve_of_vram hvram] at h
  cases h
  exact if_pos hvram

/-- A write through the aperture is a write of the device. -/
theorem writeAt_of_vram (hvram : d.config.hasVram = true)
    (h : d.resolve address = .ok (some place)) (value : UInt32) :
    d.writeAt place value = { d with vram := d.vram.write address value } := by
  rw [resolve_of_vram hvram] at h
  cases h
  simp only [writeAt, hvram, ↓reduceIte]

/-- The registers of the aperture are not the others that the device has. -/
theorem aperture_of_shown {register : Nat} (h : d.shownAddress? register = some address) :
    register ≠ unitConfigRegister ∧ register ≠ windowRegister := by
  unfold shownAddress? at h
  split at h
  · rename_i haperture
    unfold apertureRegister unitConfigRegister windowRegister at *
    omega
  · cases h

/-- A register that shows an address reads what is there. -/
theorem readRegister_of_shown {register : Nat} (h : d.shownAddress? register = some address) :
    d.readRegister register = d.read address := by
  obtain ⟨hunit, hwindow⟩ := aperture_of_shown h
  rw [readRegister, if_neg hunit, if_neg hwindow, h]

/-- A register that shows an address writes what is there. -/
theorem writeRegister_of_shown {register : Nat} (h : d.shownAddress? register = some address)
    (value : UInt32) : writeRegister register value d = write address value d := by
  obtain ⟨-, hwindow⟩ := aperture_of_shown h
  simp only [writeRegister, hwindow, ↓reduceIte, h]

/-! ## The device of a configuration -/

/-- A device that starts has fresh spaces, zero memory and nothing mapped. -/
theorem start_eq_ok {host : Host} (h : start config host = .ok (device, shared)) :
    ∃ memory : RangeSpace,
      RangeSpace.create "sysmem" systemMemoryBase config.systemMemorySize pageSize = .ok memory ∧
      device = ⟨config, 0, 0, ∅, .create (max config.primaryBarLength config.fallbackBarLength),
        ⟨config.systemMemorySize, .zero, memory, none, false, 0, 0⟩,
        shared.map fun _ => .empty, false⟩ ∧
      (∀ space, shared = some space → ∃ size, config.iommuSpace = some size ∧ size ≤ resolveBit ∧
        RangeSpace.create "iommu" 0 size pageSize = .ok space) := by
  unfold start at h
  obtain ⟨_, -, h⟩ := bind_eq_ok.mp h
  unfold SystemMemory.create at h
  cases hmemory : RangeSpace.create "sysmem" systemMemoryBase config.systemMemorySize pageSize with
  | error cause =>
    rw [hmemory] at h
    cases h
  | ok memory =>
    rw [hmemory] at h
    cases hsize : config.iommuSpace with
    | none =>
      rw [hsize] at h
      cases h
      exact ⟨memory, rfl, rfl, fun _ hnone => (by cases hnone)⟩
    | some size =>
      rw [hsize] at h
      by_cases hover : resolveBit < size
      · simp only [pure, Except.pure, Option.mapM_some, hover, ↓reduceIte] at h
        cases h
      · cases hspace : RangeSpace.create "iommu" 0 size pageSize with
        | error cause =>
          simp only [pure, Except.pure, Option.mapM_some, hover, ↓reduceIte, hspace] at h
          cases h
        | ok space =>
          simp only [pure, Except.pure, Option.mapM_some, hover, ↓reduceIte, hspace] at h
          cases h
          refine ⟨memory, rfl, rfl, ?_⟩
          intro next hnext
          obtain rfl := Option.some.inj hnext
          exact ⟨size, rfl, Nat.le_of_not_lt hover, hspace⟩

/-- A device has a shared space if its configuration says so. -/
theorem isSome_of_start {host : Host} (h : start config host = .ok (device, shared)) :
    shared.isSome = config.iommuSpace.isSome := by
  cases hsize : config.iommuSpace with
  | some size =>
    unfold start at h
    rw [hsize] at h
    simp only [Option.mapM_some] at h
    obtain ⟨_, -, h⟩ := bind_eq_ok.mp h
    generalize Except.mapError StartError.space (SystemMemory.create config.systemMemorySize) =
      memory at h
    generalize (if resolveBit < size then throw StartError.overlapsResolveBit
      else Except.mapError StartError.space (RangeSpace.create "iommu" 0 size pageSize) :
        Except StartError RangeSpace) = space at h
    cases memory with
    | error cause => cases h
    | ok memory =>
      cases space with
      | error cause => cases h
      | ok space =>
        cases h
        rfl
  | none =>
    cases hshared : shared with
    | none => rfl
    | some space =>
      obtain ⟨memory, -, -, hspace⟩ := start_eq_ok h
      obtain ⟨size, hsome, -⟩ := hspace space hshared
      cases hsize.symm.trans hsome

end Device
end InstanceMemory.Simulator
