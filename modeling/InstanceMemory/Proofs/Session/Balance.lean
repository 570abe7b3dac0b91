import InstanceMemory.Proofs.Session.Accounts

/-!
# The balance of a session

After every run of a session the device is out of balance nowhere (`Session.run_balanced`): what is
taken of its memories is exactly what the live objects need, each piece once. The live objects are
the named ones and the firmware structures of the controllers that have not been destroyed; an object
that outlives its controller is still among them. What an object needs depends on the strategy of the
device:

* behind the IOMMU, a range of device addresses, pages of system memory, and a slot of the
  translation table for each page,
* with the buffer allocator, one buffer of system memory,
* on the heap, a range of the heap of its controller.

Failed requests, whatever they were refused for and at whatever step, are part of every run: a range,
page, slot or buffer that one of them left behind would be out of balance.
-/

set_option autoImplicit false

namespace InstanceMemory

open Simulator (Config Device Move pageRange)

variable {live : List InstanceObject} {m : Machine Device}

/-- Behind the IOMMU, live objects hold ranges of device addresses, and pages mapped there. -/
structure Machine.BehindIommu (m : Machine Device) (live : List InstanceObject) : Prop where
  addresses : ∃ space, m.shared = some space ∧
    space.allocated.Perm (live.flatMap (·.deviceRanges))
  /-- The table maps the places of each object's range to its pages, and nothing else. -/
  table : ∃ t, m.hardware.translation = some t ∧
    (∀ address page, t.table[address]? = some page ↔
      ∃ o ∈ live, ∃ range pages i, o.resource = .iommu range pages ∧ pages[i]? = some page ∧
        address = range.base + i * pageSize) ∧
    t.mappedPages = (live.flatMap (·.pages)).length
  memory : m.hardware.memory.space.allocated.Perm ((live.flatMap (·.pages)).map pageRange)
  distinct : (live.flatMap (·.pages)).Nodup
  livePages : m.hardware.memory.livePages = (live.flatMap (·.pages)).length
  liveBuffers : m.hardware.memory.liveBuffers = 0

/-- Without an IOMMU, live objects hold buffers of system memory. -/
structure Machine.InBuffers (m : Machine Device) (live : List InstanceObject) : Prop where
  memory : m.hardware.memory.space.allocated.Perm ((live.flatMap (·.buffers)).map Buffer.range)
  distinct : (live.flatMap (·.buffers)).Nodup
  liveBuffers : m.hardware.memory.liveBuffers = live.length
  livePages : m.hardware.memory.livePages = 0

/-- With dedicated memory, live objects hold ranges of the heaps of their controllers, and no system
memory. -/
structure Machine.InHeaps (m : Machine Device) (live : List InstanceObject) : Prop where
  heaps : ∀ (i : Nat) (c : Controller), m.controllers[i]? = some c →
    ∃ space length, c.backing = .heap space length ∧
      space.allocated.Perm (live.flatMap (·.heapRanges i))
  memory : m.hardware.memory.space.allocated = []

/-- What is taken of a machine is what its live objects need. -/
structure Machine.Balanced (m : Machine Device) (live : List InstanceObject) : Prop where
  /-- Every live object was made by the strategy of the device and is as large as what it takes. -/
  made : ∀ o ∈ live, o.WellMade ∧ o.strategy = m.strategy
  iommu : m.strategy = .iommu → m.BehindIommu live
  dma : m.strategy = .dma → m.InBuffers live
  heap : m.strategy = .heap → m.InHeaps live
  /-- Every controller counts its own live objects. -/
  counted : ∀ (i : Nat) (c : Controller), m.controllers[i]? = some c →
    c.live = live.countP (·.owner == i)

/-! ## From the accounts -/

namespace InstanceObject

variable {o : InstanceObject}

theorem pages_eq_nil (h : o.strategy ≠ .iommu) : o.pages = [] := by
  unfold pages
  cases hresource : o.resource with
  | iommu range ps => exact absurd (congrArg Resource.strategy hresource) h
  | heap range => rfl
  | dma buffer => rfl

theorem buffers_eq_nil (h : o.strategy ≠ .dma) : o.buffers = [] := by
  unfold buffers
  cases hresource : o.resource with
  | dma buffer => exact absurd (congrArg Resource.strategy hresource) h
  | heap range => rfl
  | iommu range ps => rfl

theorem length_buffers (h : o.strategy = .dma) : o.buffers.length = 1 := by
  unfold buffers
  cases hresource : o.resource with
  | dma buffer => rfl
  | heap range => cases (congrArg Resource.strategy hresource).symm.trans h
  | iommu range ps => cases (congrArg Resource.strategy hresource).symm.trans h

end InstanceObject

namespace Accounts

variable {roster : List (Option FirmwareObjects)}

/-- Objects made by other strategies have no pages. -/
theorem pages_eq_nil (h : Accounts roster live m) (hstrategy : m.strategy ≠ .iommu) :
    live.flatMap (·.pages) = [] :=
  List.flatMap_eq_nil_iff.mpr fun o ho =>
    InstanceObject.pages_eq_nil ((h.made o ho).2.2 ▸ hstrategy)

/-- Objects made by other strategies have no buffers. -/
theorem buffers_eq_nil (h : Accounts roster live m) (hstrategy : m.strategy ≠ .dma) :
    live.flatMap (·.buffers) = [] :=
  List.flatMap_eq_nil_iff.mpr fun o ho =>
    InstanceObject.buffers_eq_nil ((h.made o ho).2.2 ▸ hstrategy)

/-- System memory lends the pages and the buffers of the live objects. -/
theorem memory_lends (h : Accounts roster live m) :
    m.hardware.memory.Lends (live.flatMap (·.pages)) (live.flatMap (·.buffers)) := by
  have hmemory := h.holding.memory
  rwa [InstanceObject.pages_flatMap_items, InstanceObject.buffers_flatMap_items] at hmemory

theorem behindIommu (h : Accounts roster live m) (hstrategy : m.strategy = .iommu) :
    m.BehindIommu live := by
  have hmemory := h.memory_lends
  rw [h.buffers_eq_nil (by rw [hstrategy]; decide)] at hmemory
  have hspace := hmemory.space
  rw [List.map_nil, List.append_nil] at hspace
  have hshared : m.shared.isSome := by
    unfold Machine.strategy at hstrategy
    split at hstrategy
    · cases hstrategy
    · split at hstrategy
      · assumption
      · cases hstrategy
  refine ⟨?_, ?_, hspace.allocated, List.Nodup.of_map pageRange hspace.nodup, hmemory.livePages,
    hmemory.liveBuffers⟩
  · obtain ⟨space, hsome⟩ := Option.isSome_iff_exists.mp hshared
    have hlends := h.holding.spaces .shared space hsome
    rw [InstanceObject.rangesIn_shared_flatMap_items] at hlends
    exact ⟨space, hsome, hlends.allocated⟩
  · have htranslation := h.geometry.translation.trans hshared
    obtain ⟨t, ht⟩ := Option.isSome_iff_exists.mp htranslation
    have hmaps := h.holding.translation t ht
    refine ⟨t, ht, ?_, ?_⟩
    · intro address page
      exact (hmaps.lookup address page).trans (InstanceObject.mem_slots_flatMap_items live)
    · exact hmaps.mappedPages_eq.trans (InstanceObject.length_slots_flatMap_items live)

theorem inBuffers (h : Accounts roster live m) (hstrategy : m.strategy = .dma) :
    m.InBuffers live := by
  have hmemory := h.memory_lends
  rw [h.pages_eq_nil (by rw [hstrategy]; decide)] at hmemory
  have hspace : m.hardware.memory.space.Lends ((live.flatMap (·.buffers)).map Buffer.range) :=
    hmemory.space
  refine ⟨hspace.allocated, List.Nodup.of_map Buffer.range hspace.nodup, ?_, hmemory.livePages⟩
  have hone : live.map (·.buffers.length) = live.map fun _ => 1 :=
    List.map_congr_left fun o ho =>
      InstanceObject.length_buffers ((h.made o ho).2.2.trans hstrategy)
  rw [hmemory.liveBuffers, List.length_flatMap, hone, List.map_const', List.sum_replicate_nat,
    Nat.mul_one]

theorem inHeaps (h : Accounts roster live m) (hstrategy : m.strategy = .heap) :
    m.InHeaps live := by
  refine ⟨?_, ?_⟩
  · intro i c hc
    have hheap := (h.geometry.strategy i c hc).trans hstrategy
    cases hbacking : c.backing with
    | heap space length =>
      have hlends := h.holding.spaces (.heap i) space ⟨c, length, hc, hbacking⟩
      rw [InstanceObject.rangesIn_heap_flatMap_items] at hlends
      exact ⟨space, length, rfl, hlends.allocated⟩
    | iommu => cases (congrArg Backing.strategy hbacking).symm.trans hheap
    | dma => cases (congrArg Backing.strategy hbacking).symm.trans hheap
  · have hmemory := h.memory_lends
    rw [h.pages_eq_nil (by rw [hstrategy]; decide), h.buffers_eq_nil (by rw [hstrategy]; decide)]
      at hmemory
    exact hmemory.space.allocated.eq_nil

/-- A machine in balance with its live objects is balanced memory by memory. -/
theorem balanced (h : Accounts roster live m) : m.Balanced live where
  made o ho := ⟨(h.made o ho).1, (h.made o ho).2.2⟩
  iommu := h.behindIommu
  dma := h.inBuffers
  heap := h.inHeaps
  counted := h.counted

end Accounts

namespace Session

variable {session : Session Device}

/-- **No leak and no double use.** A session on any device, after any run of any number of
controllers, has taken of the device exactly what its live objects need. -/
theorem run_balanced {config : Config} {journalOpen : Bool} {host : Simulator.Host}
    (h : Simulator.Session.start config journalOpen host = .ok session) (moves : List Move) :
    (Simulator.Session.run moves session).machine.Balanced
      (Simulator.Session.run moves session).live := by
  obtain ⟨⟨count, hbooked, -⟩, -⟩ := Booked.run h moves
  exact hbooked.accounts.balanced

/-- An object behind the IOMMU outlives its controller, after a request was refused. -/
theorem run_balanced_outliving : ∃ session : Session Device,
    Simulator.Session.start { Config.systemMemory 0xea with iommuSpace := some 0x10000 } true =
        .ok session ∧
      let moves : List Move := [.operation (.build "gpu"),
        .operation (.allocate "gpu" "table" 0x3000 0 true), .faults (.limitMappings 1) rfl,
        .operation (.allocate "gpu" "other" 0x2000 0 false), .faults .clearFaults rfl,
        .operation (.destroy "gpu")]
      (Simulator.Session.run moves session).machine.Balanced
        (Simulator.Session.run moves session).live :=
  have hstart : Simulator.Session.start
      { Config.systemMemory 0xea with iommuSpace := some 0x10000 } true = .ok _ := rfl
  ⟨_, hstart, run_balanced hstart _⟩

end Session
end InstanceMemory
