import InstanceMemory.Proofs.Alignment
import InstanceMemory.Proofs.Fault
import InstanceMemory.ReservedLayout

/-!
# The reserved layout

There is a layout for every chipset and every number of shader units (`ReservedLayout.compute_eq`): no sum
or product on the way reaches the address limit. The firmware structures lie at the bottom of it, the
same for all, and behind them there is always room left (`ReservedLayout.lt_reserved`). The units that the
configuration register enables are counted by its bits 8 to 15 (`enabledShaderUnits_eq`).
-/

set_option autoImplicit false

namespace InstanceMemory

/-- The enabled units are the bits that are set among the bits 8 to 15 of the register. -/
theorem enabledShaderUnits_eq (value : UInt32) :
    enabledShaderUnits value = ((List.range' 8 8).filter value.toNat.testBit).length := by
  have hbits : ∀ k < 8, ((value &&& 0xff00) >>> 8).toNat.testBit k = value.toNat.testBit (8 + k) := by
    intro k hk
    have hmask : (0xff00 : Nat).testBit (8 + k) = true := by
      revert k
      decide
    have hshift : ((value &&& 0xff00) >>> 8).toNat = (value.toNat &&& 0xff00) >>> 8 := by
      rw [UInt32.toNat_shiftRight, UInt32.toNat_and]
      rfl
    rw [hshift, Nat.testBit_shiftRight, Nat.testBit_and, hmask, Bool.and_true]
  unfold enabledShaderUnits setBitsOfLowByte
  rw [List.range'_eq_map_range, List.filter_map, List.length_map]
  congr 1
  apply List.filter_congr
  intro k hk
  rw [Function.comp_apply]
  exact hbits k (List.mem_range.mp hk)

/-- The largest graphics context that one unit takes. -/
theorem contextSizePerUnit_le (chipset : UInt32) : contextSizePerUnit chipset ≤ 0x6aa0 := by
  unfold contextSizePerUnit
  split
  · decide
  · split
    · decide
    · split <;> decide

namespace ReservedLayout

variable {chipset units : UInt32} {layout : ReservedLayout}

/-- The bytes that the heap needs before they are rounded up to pages. -/
def needed (chipset units : UInt32) : Nat :=
  (contextSizePerUnit chipset * units.toNat + channelPad) * channels + translationTableSize +
    objectStorageSize

theorem needed_le (chipset units : UInt32) :
    0x180000 ≤ needed chipset units ∧ needed chipset units ≤ 0x100000000000000 := by
  have hcontext := Nat.mul_le_mul (contextSizePerUnit_le chipset) (Nat.le_of_lt units.toNat_lt)
  unfold needed channelPad channels translationTableSize objectStorageSize
  omega

/-- **There is a layout for every chipset and every number of units.** The firmware structures are packed
from offset zero on, and the size is the fewest whole pages that are enough. -/
theorem compute_eq (chipset units : UInt32) :
    ∃ reserved, LeastMultiple (needed chipset units) pageSize reserved ∧ reserved < addressLimit ∧
      compute chipset units = .ok {
        chipset
        shaderUnits := units
        contextSize := contextSizePerUnit chipset * units.toNat
        reserved
        vbios := ⟨0, vbiosSize⟩
        ramht := ⟨0x10000, ramhtSize⟩
        ramro := ⟨0x18000, ramroSize⟩
        ramfc := ⟨0x20000, ramfcSize⟩ } := by
  obtain ⟨-, hneeded⟩ := needed_le chipset units
  have hleast := leastMultiple_div_mul (needed chipset units) (by decide : 0 < pageSize)
  have hreserved : (needed chipset units + (pageSize - 1)) / pageSize * pageSize < addressLimit := by
    have hdiv := Nat.div_mul_le_self (needed chipset units + (pageSize - 1)) pageSize
    unfold pageSize addressLimit at *
    omega
  refine ⟨_, hleast, hreserved, ?_⟩
  have hcontext : contextSizePerUnit chipset * units.toNat < addressLimit := by
    unfold needed channels at hneeded
    unfold addressLimit
    omega
  have hpadded : contextSizePerUnit chipset * units.toNat + channelPad < addressLimit := by
    unfold needed channels at hneeded
    unfold addressLimit
    omega
  have hcontexts : (contextSizePerUnit chipset * units.toNat + channelPad) * channels < addressLimit := by
    unfold needed at hneeded
    unfold addressLimit
    omega
  have htable : (contextSizePerUnit chipset * units.toNat + channelPad) * channels +
      translationTableSize < addressLimit := by
    unfold needed at hneeded
    unfold addressLimit
    omega
  have hstorage : (contextSizePerUnit chipset * units.toNat + channelPad) * channels +
      translationTableSize + objectStorageSize < addressLimit := by
    unfold needed at hneeded
    unfold addressLimit
    omega
  have hround : roundUp (needed chipset units) pageSize =
      .ok ((needed chipset units + (pageSize - 1)) / pageSize * pageSize) :=
    (if_neg (by decide)).trans (checkedMul_of_lt hreserved)
  unfold compute
  rw [checkedMul_of_lt hcontext, ok_bind, checkedAdd_of_lt hpadded, ok_bind,
    checkedMul_of_lt hcontexts, ok_bind, checkedAdd_of_lt htable, ok_bind, checkedAdd_of_lt hstorage,
    ok_bind]
  unfold needed at hround
  rw [hround]
  rfl

/-- **The firmware structures leave room** in every layout, whose size is in whole pages. -/
theorem lt_reserved (h : compute chipset units = .ok layout) :
    pageSize ∣ layout.reserved ∧ 0x180000 ≤ layout.reserved ∧ layout.reserved < addressLimit := by
  obtain ⟨reserved, hleast, hlimit, hcompute⟩ := compute_eq chipset units
  obtain rfl := Except.ok.inj (h.symm.trans hcompute)
  exact ⟨hleast.dvd, Nat.le_trans (needed_le chipset units).1 hleast.le, hlimit⟩

/-- The firmware structures lie at the same place in every layout. -/
theorem ranges_of_compute (h : compute chipset units = .ok layout) :
    layout.vbios = ⟨0, vbiosSize⟩ ∧ layout.ramht = ⟨0x10000, ramhtSize⟩ ∧
      layout.ramro = ⟨0x18000, ramroSize⟩ ∧ layout.ramfc = ⟨0x20000, ramfcSize⟩ := by
  obtain ⟨reserved, -, -, hcompute⟩ := compute_eq chipset units
  obtain rfl := Except.ok.inj (h.symm.trans hcompute)
  exact ⟨rfl, rfl, rfl, rfl⟩

end ReservedLayout
end InstanceMemory
