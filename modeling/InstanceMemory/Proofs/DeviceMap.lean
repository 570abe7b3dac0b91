import InstanceMemory.DeviceMap

/-!
# Device addresses

An address below the resolve bit is resolved through the IOMMU exactly when the bit is set on it, and
without the bit it is the address that it was before. An address is the base of its window and an
offset, but for the bits that play no part, and the window register holds all of the base.
-/

set_option autoImplicit false

namespace InstanceMemory

variable {address : Nat}

theorem isResolved_of_lt (h : address < resolveBit) : isResolved address = false := by
  unfold isResolved
  rw [Nat.div_eq_of_lt h]
  rfl

theorem setResolveBit_of_lt (h : address < resolveBit) :
    setResolveBit address = address + resolveBit := by
  rw [setResolveBit, isResolved_of_lt h]
  rfl

theorem isResolved_add (h : address < resolveBit) : isResolved (address + resolveBit) = true := by
  have hdiv : (address + resolveBit) / resolveBit = 1 := by
    unfold resolveBit at *
    omega
  rw [isResolved, hdiv]
  rfl

theorem stripResolveBit_add (h : address < resolveBit) :
    stripResolveBit (address + resolveBit) = address := by
  rw [stripResolveBit, isResolved_add h, if_pos rfl, Nat.add_sub_cancel]

/-- The window register holds all of a window's base. -/
theorem windowSelector_toNat (address : Nat) :
    (windowSelector (windowBase address)).toNat = windowBase address / windowRegisterStep := by
  unfold windowSelector
  rw [UInt32.toNat_ofNat']
  apply Nat.mod_eq_of_lt
  unfold windowBase windowRegisterStep windowedLimit windowSize
  omega

/-- The window register selects the window of an address, and the aperture shows the address there,
without the bits that play no part. -/
theorem window_shows (address : Nat) :
    (windowSelector (windowBase address)).toNat * windowRegisterStep + windowOffset address =
      address % windowedLimit := by
  rw [windowSelector_toNat]
  unfold windowBase windowOffset windowRegisterStep windowedLimit windowSize
  omega

theorem windowSize_dvd_windowBase (address : Nat) : windowSize ∣ windowBase address :=
  Nat.dvd_mul_left _ _

theorem windowBase_lt (address : Nat) : windowBase address < windowedLimit := by
  unfold windowBase windowedLimit windowSize
  omega

/-- Below the limit, windows come in the order of their addresses. -/
theorem windowBase_mono {other : Nat} (h : address ≤ other) (hlimit : other < windowedLimit) :
    windowBase address ≤ windowBase other := by
  unfold windowBase
  rw [Nat.mod_eq_of_lt hlimit, Nat.mod_eq_of_lt (Nat.lt_of_le_of_lt h hlimit)]
  exact Nat.mul_le_mul_right _ (Nat.div_le_div_right h)

theorem windowOffset_lt (address : Nat) : windowOffset address < windowSize :=
  Nat.mod_lt _ (by decide)

end InstanceMemory
