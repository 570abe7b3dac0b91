import InstanceMemory.Controller
import InstanceMemory.Proofs.RangeSpace.Stocked
import InstanceMemory.Proofs.ReservedLayout

/-!
# The reserved heap

What a layout promises to the heap that is built on it. `ReservedLayout.Fitting` says of a layout that its
firmware structures tile the bottom of the heap page by page, that the heap is the least number of whole
pages for the contexts of all channels, the translation table and the object storage, and that it goes
on behind the structures.

`ReservedLayout.compute_fitting` finds a fitting layout for every chipset and every number of shader
units, also for those that no device has. More units never make the heap smaller, and the space of the
heap is always created. Whether the aperture of a device is as long as the heap is not said here.
-/

set_option autoImplicit false

namespace InstanceMemory

/-- A heap of whole pages that ends at an address is created, with nothing in it. -/
theorem Backing.ofReserved_of_pages {reserved : Nat} (hpos : 0 < reserved)
    (hpages : pageSize ∣ reserved) (hlimit : reserved < addressLimit) (apertureLength : Nat) :
    ∃ space, ofReserved reserved apertureLength = .ok (.heap space apertureLength) ∧
      Stocked 0 space ∧ space.length = reserved := by
  obtain ⟨space, hcreate, hstocked, hlength⟩ := Stocked.create "instmem heap" hpos hpages hlimit
  refine ⟨space, ?_, hstocked, hlength⟩
  rw [ofReserved, hcreate]
  rfl

namespace ReservedLayout

variable {chipset units more : UInt32} {layout larger : ReservedLayout}

/-- The firmware structures, in the order in which they are placed. -/
def structures (layout : ReservedLayout) : List AddressRange :=
  [layout.vbios, layout.ramht, layout.ramro, layout.ramfc]

/-- A layout that **fits** a chipset with a number of shader units. -/
structure Fitting (chipset units : UInt32) (layout : ReservedLayout) : Prop where
  chipset_eq : layout.chipset = chipset
  shaderUnits_eq : layout.shaderUnits = units
  contextSize_eq : layout.contextSize = contextSizePerUnit chipset * units.toNat
  /-- The heap is the least number of whole pages that is enough. -/
  reserved : LeastMultiple ((contextSizePerUnit chipset * units.toNat + 0x4000) * 32 + 0x100000)
    4096 layout.reserved
  reserved_lt : layout.reserved < addressLimit
  /-- The structures follow one another from the start of the heap on. -/
  tiles : Tiles 0 0x40000 layout.structures
  disjoint : layout.structures.Pairwise AddressRange.Disjoint
  paged : OnGrid 4096 layout.structures
  /-- The heap goes on behind the structures. -/
  inside : 0x40000 < layout.reserved
  dynamicBytes_eq : layout.dynamicBytes = .ok (layout.reserved - 0x40000)

theorem structures_of_compute (h : compute chipset units = .ok layout) :
    layout.structures = [⟨0, 0x10000⟩, ⟨0x10000, 0x8000⟩, ⟨0x18000, 0x8000⟩, ⟨0x20000, 0x20000⟩] := by
  obtain ⟨hvbios, hramht, hramro, hramfc⟩ := ranges_of_compute h
  rw [structures, hvbios, hramht, hramro, hramfc]
  rfl

/-- The size of the heap behind the structures is a difference that exists. -/
theorem dynamicBytes_of_compute (h : compute chipset units = .ok layout) :
    layout.dynamicBytes = .ok (layout.reserved - 0x40000) := by
  obtain ⟨-, hroom, -⟩ := lt_reserved h
  obtain ⟨-, -, -, hramfc⟩ := ranges_of_compute h
  have hstop : layout.ramfc.stop = .ok 0x40000 := by
    rw [hramfc]
    rfl
  rw [dynamicBytes, hstop, ok_bind]
  exact checkedSub_of_le (Nat.le_trans (by decide) hroom)

/-- **Every layout that is computed fits.** -/
theorem fitting_of_compute (h : compute chipset units = .ok layout) : layout.Fitting chipset units := by
  obtain ⟨-, hroom, hlimit⟩ := lt_reserved h
  have hstructures := structures_of_compute h
  have htiles : Tiles 0 0x40000 layout.structures := by
    rw [hstructures]
    exact ⟨rfl, by decide, rfl, by decide, rfl, by decide, rfl, by decide, rfl⟩
  have hpaged : OnGrid 4096 layout.structures := by
    rw [hstructures]
    unfold OnGrid
    decide
  have hneeded : needed chipset units =
      (contextSizePerUnit chipset * units.toNat + 0x4000) * 32 + 0x100000 :=
    Nat.add_assoc _ _ _
  obtain ⟨reserved, hleast, -, hcompute⟩ := compute_eq chipset units
  obtain rfl := Except.ok.inj (h.symm.trans hcompute)
  exact {
    chipset_eq := rfl
    shaderUnits_eq := rfl
    contextSize_eq := rfl
    reserved := hneeded ▸ hleast
    reserved_lt := hlimit
    tiles := htiles
    disjoint := htiles.ascending.1.disjoint
    paged := hpaged
    inside := Nat.lt_of_lt_of_le (by decide) hroom
    dynamicBytes_eq := dynamicBytes_of_compute h }

/-- **More units make no smaller heap.** -/
theorem Fitting.reserved_mono (h : layout.Fitting chipset units) (h' : larger.Fitting chipset more)
    (hle : units ≤ more) : layout.reserved ≤ larger.reserved := by
  refine h.reserved.mono h'.reserved ?_
  have hcontext : contextSizePerUnit chipset * units.toNat ≤ contextSizePerUnit chipset * more.toNat :=
    Nat.mul_le_mul_left _ (UInt32.le_iff_toNat_le.mp hle)
  omega

/-- **A fitting layout is computed for every chipset and every number of units.** No computation on the
way faults, more units make no smaller heap, and the space of the heap is created. -/
theorem compute_fitting (chipset units : UInt32) :
    ∃ layout, compute chipset units = .ok layout ∧ layout.Fitting chipset units ∧
      (∀ more, units ≤ more →
        ∃ larger, compute chipset more = .ok larger ∧ layout.reserved ≤ larger.reserved) ∧
      ∀ apertureLength, ∃ space,
        Backing.ofReserved layout.reserved apertureLength = .ok (.heap space apertureLength) ∧
          Stocked 0 space ∧ space.length = layout.reserved := by
  obtain ⟨_, -, -, hcompute⟩ := compute_eq chipset units
  have hfitting := fitting_of_compute hcompute
  refine ⟨_, hcompute, hfitting, fun more hle => ?_, ?_⟩
  · obtain ⟨_, -, -, hmore⟩ := compute_eq chipset more
    exact ⟨_, hmore, hfitting.reserved_mono (fitting_of_compute hmore) hle⟩
  · exact Backing.ofReserved_of_pages (Nat.zero_lt_of_lt hfitting.inside) hfitting.reserved.dvd
      hfitting.reserved_lt

/-- The chipset with the largest contexts, and the two greatest numbers of units there are. -/
theorem compute_fitting_most_units :
    (0xfffffffe : UInt32) ≤ 0xffffffff ∧
      ∃ layout larger, compute 0x40 0xfffffffe = .ok layout ∧ layout.Fitting 0x40 0xfffffffe ∧
        compute 0x40 0xffffffff = .ok larger ∧ layout.reserved ≤ larger.reserved ∧
        layout.reserved = 0xd53fffffd6000 ∧ larger.reserved = 0xd5400000ab000 := by
  have hle : (0xfffffffe : UInt32) ≤ 0xffffffff := by decide
  obtain ⟨layout, hcompute, hfitting, hmono, -⟩ := compute_fitting 0x40 0xfffffffe
  obtain ⟨larger, hlarger, hreserved⟩ := hmono 0xffffffff hle
  have hsize : (compute 0x40 0xfffffffe).map (·.reserved) = .ok 0xd53fffffd6000 := by decide +kernel
  have hsize' : (compute 0x40 0xffffffff).map (·.reserved) = .ok 0xd5400000ab000 := by decide +kernel
  rw [hcompute] at hsize
  rw [hlarger] at hsize'
  exact ⟨hle, layout, larger, hcompute, hfitting, hlarger, hreserved, Except.ok.inj hsize,
    Except.ok.inj hsize'⟩

end ReservedLayout
end InstanceMemory
