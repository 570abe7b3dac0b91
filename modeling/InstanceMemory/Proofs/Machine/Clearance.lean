import InstanceMemory.Proofs.Machine.Dedicated

/-!
# Objects clear of each other

Two ranges are `Clear` of each other if they share no address. Objects on a heap lie in the dedicated
memory where they say (`Accounts.heap_inside`). The firmware structures of a controller are clear of
each other (`clear_laid`), and lie below `firmwareEnd`.
-/

set_option autoImplicit false

namespace InstanceMemory

open Simulator (Device)

/-- The ranges share no address. -/
def AddressRange.Clear (r s : AddressRange) : Prop := r.limit ≤ s.base ∨ s.limit ≤ r.base

instance (r s : AddressRange) : Decidable (r.Clear s) := inferInstanceAs (Decidable (_ ∨ _))

theorem AddressRange.Clear.symm {r s : AddressRange} (h : r.Clear s) : s.Clear r := Or.symm h

theorem AddressRange.Clear.not_holds {r s : AddressRange} {x : Nat} (h : r.Clear s) (hx : s.Holds x) :
    ¬ r.Holds x := by
  unfold Clear limit Holds at *
  unfold limit at *
  omega

namespace InstanceObject

variable {o : InstanceObject}

/-- The words of an access lie within its object. -/
theorem holds_of_access? {offset words x : Nat} {a : Access} (ha : a ∈ o.access? offset words)
    (hx : a.extent.Holds x) : o.extent.Holds x := by
  unfold access? at ha
  split at ha
  · rename_i hfits
    obtain rfl := Option.mem_some_iff.mp ha
    obtain ⟨-, hstop⟩ := hfits
    unfold AddressRange.Holds AddressRange.limit Access.extent at hx
    unfold AddressRange.Holds AddressRange.limit extent
    dsimp only at hx ⊢
    omega
  · cases ha

theorem holds_of_wholly {x : Nat} (hx : o.wholly.extent.Holds x) : o.extent.Holds x :=
  holds_of_access? (if_pos o.fits_all) hx

end InstanceObject

/-- A live object on the heap lies in the dedicated memory, and takes some of it. -/
theorem Accounts.heap_inside {roster : List (Option FirmwareObjects)} {live : List InstanceObject}
    {m : Machine Device} {o : InstanceObject} (h : Accounts roster live m) (ho : o ∈ live)
    (hheap : o.strategy = .heap) : 0 < o.size ∧ o.extent.limit ≤ m.hardware.vram.length := by
  cases hresource : o.resource with
  | iommu range pages => cases (congrArg Resource.strategy hresource).symm.trans hheap
  | dma buffer => cases (congrArg Resource.strategy hresource).symm.trans hheap
  | heap range =>
    have hfits := (h.made o ho).1.fits
    rw [hresource] at hfits
    obtain rfl : range = o.extent := hfits
    obtain ⟨space, ranges, hid, hlends, hmem⟩ :=
      h.range_lent ho (InstanceObject.range_mem_items hresource)
    obtain ⟨-, -, hpos, -, hlimit⟩ := hlends.inside hmem
    obtain ⟨hbase, hlength⟩ := h.geometry.heap o.owner space hid
    rw [hbase, Nat.zero_add] at hlimit
    exact ⟨hpos, Nat.le_trans hlimit hlength⟩

namespace FirmwareObjects

open ReservedLayout (vbiosSize ramhtSize ramroSize ramfcSize)

/-- No firmware structure reaches beyond their end. -/
theorem limit_laid (i : Nat) (key : FirmwareName) : ((laid i).get key).extent.limit ≤ firmwareEnd := by
  cases key <;>
    (simp only [get, laid, Stocking.next, InstanceObject.extent, AddressRange.limit, firmwareEnd,
      zeroedFirmware]
     unfold vbiosSize ramhtSize ramroSize ramfcSize
     omega)

/-- The firmware structures are clear of each other. -/
theorem clear_laid (i : Nat) {key other : FirmwareName} (h : key ≠ other) :
    ((laid i).get key).extent.Clear ((laid i).get other).extent := by
  unfold AddressRange.Clear
  cases key <;> cases other <;>
    simp only [ne_eq, not_true_eq_false, reduceCtorEq, not_false_eq_true] at h <;>
    (simp only [get, laid, Stocking.next, InstanceObject.extent, AddressRange.limit, vbiosSize, ramhtSize,
      ramroSize]
     omega)

end FirmwareObjects

end InstanceMemory
