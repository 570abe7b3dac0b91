import InstanceMemory.Proofs.Machine.Extents
import InstanceMemory.Proofs.Session.Abiding
import InstanceMemory.Proofs.Session.Accounts

/-!
# Two classes of device addresses

The device resolves an address through the IOMMU if the address has the resolve bit. The two kinds of
addresses come from two allocators: the shared space behind the IOMMU, which ends below the bit and has
it set on every address that an object takes; and system memory, whose physical addresses are taken as
they are. **Behind the IOMMU the bit is always right** (`Accounts.resolved`): every address of an object
has it, is the address in its range without it, and is translated to the page of its slot.

In system memory the bit is right for the objects that end below it, and the device finds an object just
where its addresses do not have the bit (`Accounts.resolve_in_buffer`). Nothing keeps system memory below
the bit on a device without an IOMMU: where the host maps a memory that reaches beyond it, the memory
lends buffers there, and these the device looks for behind an IOMMU that it does not have
(`run_unseparated`). With an IOMMU no object lies in a buffer, and a memory that ends below the bit lends
no other buffers, so on such devices the bit separates the two classes in every run (`run_separated`).
-/

set_option autoImplicit false

namespace InstanceMemory

open Simulator (Config Device Move Translation systemMemoryBase)
open Simulator.Session (run)

variable {m : Machine Device} {roster : List (Option FirmwareObjects)} {live : List InstanceObject}
  {o : InstanceObject}

namespace Accounts

/-! ## Behind the IOMMU -/

/-- **Every address of an object behind the IOMMU has the resolve bit**, and is the address in its range
without it. The device resolves it to the place that its byte has in the mapped pages. -/
theorem resolved {range : AddressRange} {pages : List Nat} (h : Accounts roster live m) (ho : o ∈ live)
    (hresource : o.resource = .iommu range pages) {offset : Nat} (hoffset : offset < o.size) :
    isResolved (o.offset + offset) = true ∧
      stripResolveBit (o.offset + offset) = range.base + offset ∧
      ∃ t, m.hardware.translation = some t ∧
        m.hardware.resolve (o.offset + offset) = t.translate (range.base + offset) ∧
        t.translate (range.base + offset) = .ok (some (o.place offset)) := by
  obtain ⟨hbit, hstrip, t, ht, hresolve⟩ := h.translated_behind_iommu ho hresource hoffset
  exact ⟨hbit, hstrip, t, ht, hresolve, hresolve.symm.trans (h.resolves_behind_iommu ho hresource hoffset)⟩

/-! ## In system memory -/

/-- There is no IOMMU on a device that lends buffers. -/
theorem translation_eq_none (h : Accounts roster live m) (hdma : m.strategy = .dma) :
    m.hardware.translation = none := by
  unfold Machine.strategy at hdma
  split at hdma
  · cases hdma
  · split at hdma
    · cases hdma
    · rename_i hshared
      rw [← h.geometry.translation, Option.not_isSome_iff_eq_none] at hshared
      exact hshared

/-- **An address in a buffer is found unless it has the resolve bit.** -/
theorem resolve_in_buffer (h : Accounts roster live m) (ho : o ∈ live) (hdma : o.strategy = .dma)
    (address : Nat) : m.hardware.resolve address =
      .ok (if isResolved address then none else some address) := by
  have hstrategy : m.strategy = .dma := (h.made o ho).2.2.symm.trans hdma
  have hvram : ¬ m.hardware.config.hasVram = true := by
    rw [← hasVram_iff, hstrategy]
    exact Strategy.noConfusion
  rw [Device.resolve, if_neg hvram, h.translation_eq_none hstrategy]
  split <;> rfl

/-- A buffer lies in system memory. -/
theorem limit_in_buffer (h : Accounts roster live m) (ho : o ∈ live) (hdma : o.strategy = .dma) :
    o.extent.limit ≤ systemMemoryBase + m.hardware.memory.size := by
  unfold InstanceObject.strategy at hdma
  have hfits := (h.made o ho).1.fits
  cases hresource : o.resource with
  | heap range => rw [hresource] at hdma; cases hdma
  | iommu range pages => rw [hresource] at hdma; cases hdma
  | dma buffer =>
    rw [hresource] at hfits
    obtain rfl : buffer = ⟨o.offset, o.size⟩ := hfits
    have hstrategy := InstanceObject.strategy_ne_heap_of_dma hresource
    exact (h.block_inside ho hstrategy (InstanceObject.range_mem_blocks hresource)).2.2.2

/-- Without dedicated memory an object lies behind the IOMMU or in a buffer. -/
theorem iommu_or_dma (h : Accounts roster live m) (hheap : m.strategy ≠ .heap) (ho : o ∈ live) :
    (∃ range pages, o.resource = .iommu range pages) ∨ o.strategy = .dma := by
  have hstrategy := (h.made o ho).2.2.trans_ne hheap
  unfold InstanceObject.strategy at hstrategy ⊢
  cases hresource : o.resource with
  | heap range => rw [hresource] at hstrategy; exact absurd rfl hstrategy
  | iommu range pages => exact .inl ⟨range, pages, rfl⟩
  | dma buffer => exact .inr rfl

/-- **The resolve bit separates the objects**, but for buffers that reach it. -/
theorem isResolved_iff (h : Accounts roster live m) (hheap : m.strategy ≠ .heap) (ho : o ∈ live)
    (hlow : o.strategy = .dma → o.extent.limit ≤ resolveBit) {address : Nat}
    (haddress : o.extent.Holds address) : isResolved address = true ↔ o.strategy = .iommu := by
  obtain ⟨hfirst, hlast⟩ := haddress
  rcases h.iommu_or_dma hheap ho with ⟨range, pages, hresource⟩ | hdma
  · obtain ⟨offset, rfl⟩ := Nat.exists_eq_add_of_le hfirst
    have hoffset : offset < o.size := Nat.lt_of_add_lt_add_left hlast
    exact iff_of_true (h.resolved ho hresource hoffset).1 (congrArg Resource.strategy hresource)
  · have hbelow : address < resolveBit := Nat.lt_of_lt_of_le hlast (hlow hdma)
    rw [isResolved_of_lt hbelow, hdma]
    exact iff_of_false Bool.false_ne_true Strategy.noConfusion

end Accounts

namespace Session

variable {session : Session Device} {config : Config}

/-- The two classes of device addresses in a session on the device of a configuration. -/
structure Separated (config : Config) (session : Session Device) : Prop where
  /-- The resolve bit is on every address of an object behind the IOMMU, and on none of a buffer that
  ends below it. -/
  classes : ∀ o ∈ session.live, (o.strategy = .dma → o.extent.limit ≤ resolveBit) →
    ∀ address, o.extent.Holds address → (isResolved address = true ↔ o.strategy = .iommu)
  /-- Every buffer ends below the bit, unless there is no IOMMU and the memory reaches beyond the bit. -/
  low : config.iommuSpace.isSome = true ∨ systemMemoryBase + config.systemMemorySize ≤ resolveBit →
    ∀ o ∈ session.live, o.strategy = .dma → o.extent.limit ≤ resolveBit
  /-- An object behind the IOMMU is always resolved through it, at its addresses in the shared space. -/
  behind : ∀ o ∈ session.live, ∀ range pages, o.resource = .iommu range pages →
    ∃ space t, session.machine.shared = some space ∧ range.limit ≤ space.base + space.length ∧
      session.machine.hardware.translation = some t ∧ ∀ offset < o.size,
        stripResolveBit (o.offset + offset) = range.base + offset ∧
        session.machine.hardware.resolve (o.offset + offset) = t.translate (range.base + offset) ∧
        t.translate (range.base + offset) = .ok (some (o.place offset))
  /-- A buffer is addressed directly where its addresses do not have the bit, and else not found. -/
  direct : ∀ o ∈ session.live, o.strategy = .dma → ∀ address, o.extent.Holds address →
    session.machine.hardware.resolve address = .ok (if isResolved address then none else some address)

/-- **The resolve bit separates the two classes of addresses** on every device without dedicated memory,
whatever its host maps, in every state that controllers and objects reach, but for buffers in a system
memory that reaches beyond the bit. -/
theorem run_separated {journalOpen : Bool} {host : Simulator.Host}
    (h : Simulator.Session.start config journalOpen host = .ok session) (hmemory : config.hasVram = false)
    (moves : List Move) : Separated config (run moves session) := by
  have haccounts := (Booked.run h moves).accounts
  have hconfigured := (Configured.abiding config).run moves (Configured.start h)
  have hstrategy := hconfigured.strategy_eq
  rw [hmemory, if_neg Bool.false_ne_true] at hstrategy
  have hheap : (run moves session).machine.strategy ≠ .heap := by
    rw [hstrategy]
    split <;> exact Strategy.noConfusion
  refine ⟨fun o ho hlow address => haccounts.isResolved_iff hheap ho hlow, ?_, ?_,
    fun o ho hdma address _ => haccounts.resolve_in_buffer ho hdma address⟩
  · intro hlow o ho hdma
    rcases hlow with hiommu | hlow
    · rw [if_pos hiommu] at hstrategy
      cases hdma.symm.trans ((haccounts.made o ho).2.2.trans hstrategy)
    · have hlimit := haccounts.limit_in_buffer ho hdma
      rw [hconfigured.memory] at hlimit
      exact Nat.le_trans hlimit hlow
  · intro o ho range pages hresource
    obtain ⟨space, ranges, hshared, hlends, hmem, -⟩ := haccounts.behind_iommu ho hresource
    obtain ⟨-, -, hpos, -, hinside⟩ := hlends.inside hmem
    have hfits := (haccounts.made o ho).1.fits
    rw [hresource] at hfits
    obtain ⟨-, hlength, -⟩ := hfits
    obtain ⟨-, -, t, ht, -⟩ := haccounts.resolved ho hresource (hlength ▸ hpos)
    refine ⟨space, t, hshared, hinside, ht, fun offset hoffset => ?_⟩
    obtain ⟨-, hstrip, t', ht', hresolve, htranslate⟩ := haccounts.resolved ho hresource hoffset
    obtain rfl := Option.some.inj (ht.symm.trans ht')
    exact ⟨hstrip, hresolve, htranslate⟩

/-- An object behind the IOMMU, and one at the far end of a memory below the bit. -/
theorem run_separated_both : (∃ session : Session Device,
    Simulator.Session.start { Config.systemMemory 0xea with iommuSpace := some 0x10000 } false =
        .ok session ∧
      Separated { Config.systemMemory 0xea with iommuSpace := some 0x10000 } (run [
        .operation (.build "gpu"), .operation (.allocate "gpu" "table" 0x1000 0 false)] session)) ∧
    ∃ session : Session Device,
      Simulator.Session.start { Config.systemMemory 0xea with systemMemorySize := 0x3f0000000 } false
          .unlimited = .ok session ∧
        Separated { Config.systemMemory 0xea with systemMemorySize := 0x3f0000000 } (run [
          .operation (.build "gpu"), .operation (.allocate "gpu" "gap" 0x3effff000 0 false),
          .operation (.allocate "gpu" "table" 0x1000 0 false)] session) := by
  have hstart : Simulator.Session.start
      { Config.systemMemory 0xea with iommuSpace := some 0x10000 } false = .ok _ := rfl
  have hfar : Simulator.Session.start
      { Config.systemMemory 0xea with systemMemorySize := 0x3f0000000 } false .unlimited = .ok _ := rfl
  exact ⟨⟨_, hstart, run_separated hstart rfl _⟩, ⟨_, hfar, run_separated hfar rfl _⟩⟩

/-- On a host that maps every memory, a system memory that reaches beyond the resolve bit lends a buffer
there. The buffer has the bit, so the device looks for it behind an IOMMU: a write is lost, and a read
answers a bus error. -/
theorem run_unseparated : ∃ session : Session Device,
    Simulator.Session.start { Config.systemMemory 0xea with systemMemorySize := 0x3f0001000 } false
        .unlimited = .ok session ∧
      let last := run [.operation (.build "gpu"),
        .operation (.allocate "gpu" "gap" 0x3f0000000 0 false),
        .operation (.allocate "gpu" "table" 0x1000 0 false),
        .operation (.write32 (.object "table") 0 1)] session
      ∃ o ∈ last.live, o.strategy = .dma ∧ isResolved o.offset = true ∧
        last.machine.hardware.resolve o.offset = .ok none ∧
        (outcome (operate (.read32 (.object "table") 0)) last).1 = .reply (.word 0xffffffff) := by
  have hstart : Simulator.Session.start
      { Config.systemMemory 0xea with systemMemorySize := 0x3f0001000 } false .unlimited = .ok _ := rfl
  refine ⟨_, hstart, ⟨0, resolveBit, 0x1000, false, .dma ⟨resolveBit, 0x1000⟩⟩, ?_⟩
  decide +kernel

end Session
end InstanceMemory
