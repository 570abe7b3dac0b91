import InstanceMemory.Proofs.Machine.Calls
import InstanceMemory.Proofs.Machine.Items
import Mathlib.Data.List.Induction

/-!
# Placing objects and giving them back

By whichever strategy, **placing an object either adds exactly its items or leaves everything held as
it was** (`During.placeInHeap`, `During.placeBehindIommu`, `During.placeInBuffer`), and giving it back
removes exactly its items (`During.giveBack`). Neither faults.

Behind the IOMMU an object is made in three stages, and every stage can fail at any page. What is held
on the way is said by the loops themselves: the pages taken so far, then the range, then the slots
mapped so far. Undoing takes exactly these items back. A space that is held ends at a whole page below
the limit of the addresses, so that an address can be drawn behind its last slot too.
-/

set_option autoImplicit false

namespace InstanceMemory

open Simulator (Device)

variable {base m : Machine Device} {items : List Item} {space : RangeSpace} {range : AddressRange}

/-- Rounding answers the fewest whole pages that are enough, at least one, and a step that is not zero. -/
theorem Action.pageRound_eq_ok {size align pages step : Nat}
    (h : pageRound size align = .ok (pages, step)) :
    LeastMultiple (max size 1) pageSize pages ∧ 0 < step := by
  unfold pageRound at h
  split at h
  · rename_i hsize hstep
    split at h
    · rename_i hpow
      cases h
      exact ⟨(nextMultiple?_eq_some_iff.mp hsize).2.1, pos_of_isPowerOfTwo hpow⟩
    · cases h
  · cases h

namespace Action

/-! ## Drawing device addresses -/

variable {π : Type} {address : Nat}

/-- An address is drawn if there is one after it. -/
theorem ends_drawAddress (address : Nat) (m : Machine π) :
    Ends (fun _ m' => m' = m ∧ address + 1 < addressLimit)
      (fun m' => m' = m ∧ addressLimit ≤ address + 1)
      ((liftM (drawAddress address) : Action π Unit) m) := by
  by_cases h : address + 1 < addressLimit
  · rw [drawAddress_of_lt h]
    exact ⟨rfl, h⟩
  · rw [drawAddress_of_le (Nat.not_lt.mp h)]
    exact ⟨rfl, Nat.not_lt.mp h⟩

/-- What comes after an address that is drawn needs no undoing of it. -/
theorem orUndo_drawAddress_bind {β : Type} (h : address + 1 < addressLimit) (undo : Action π Unit)
    (next : Unit → Action π β) : (orUndo (liftM (drawAddress address)) undo >>= next) = next () := by
  rw [drawAddress_of_lt h]
  rfl

variable [Platform π]

theorem mapPages_nil (h : address + 1 < addressLimit) (range : AddressRange) (taken : List Nat)
    (slots : Nat) : mapPages range taken [] slots address = (pure (.ok ()) : Action π _) := by
  unfold mapPages
  exact orUndo_drawAddress_bind h _ _

theorem mapPages_cons (h : address + 1 < addressLimit) (range : AddressRange)
    (taken rest : List Nat) (slots page : Nat) :
    mapPages range taken (page :: rest) slots address = (do
      match ← orUndo (mapPage address page) (undoPlacement range slots taken) with
      | .ok () => mapPages range taken rest (slots + 1) (address + pageSize)
      | .error code =>
        note (.mappingRefused code)
        undoPlacement range slots taken
        return .error (.platformFailed (.refusedMapping address code)) : Action π _) := by
  conv_lhs => unfold mapPages
  exact orUndo_drawAddress_bind h _ _

theorem unmapAndFree_nil (h : address + 1 < addressLimit) :
    unmapAndFree address [] = (pure () : Action π Unit) := by
  unfold unmapAndFree
  exact lift_bind_of_ok (drawAddress_of_lt h) _

theorem unmapAndFree_cons (h : address + 1 < addressLimit) (page : Nat) (rest : List Nat) :
    unmapAndFree address (page :: rest) = (do
      unmapPage address
      freePage page
      unmapAndFree (address + pageSize) rest : Action π Unit) := by
  conv_lhs => unfold unmapAndFree
  exact lift_bind_of_ok (drawAddress_of_lt h) _

end Action

namespace Holding

/-- A range that is held is lent by its space. -/
theorem range_lent {id : SpaceId} (h : Holding items m) (hr : .range id range ∈ items) :
    ∃ space, m.Has id space ∧ space.Lends (Item.rangesIn id items) ∧
      range ∈ Item.rangesIn id items := by
  have hmem := Item.mem_rangesIn hr
  obtain ⟨space, hid⟩ := h.placed id (List.ne_nil_of_mem hmem)
  exact ⟨space, hid, h.spaces id space hid, hmem⟩

theorem succ_range_limit_lt {id : SpaceId} (h : Holding items m) (hr : .range id range ∈ items) :
    range.limit + 1 < addressLimit := by
  obtain ⟨space, -, hlends, hmem⟩ := h.range_lent hr
  exact hlends.succ_limit_lt hmem

/-- A page that is held is an address. -/
theorem page_lt {page : Nat} (h : Holding items m) (hp : .page page ∈ items) :
    page < addressLimit := by
  have hpage : page ∈ Item.pages items := List.mem_filterMap.mpr ⟨_, hp, rfl⟩
  have hlimit := h.memory.space.limit_lt
    (List.mem_append_left _ (List.mem_map_of_mem (f := Simulator.pageRange) hpage))
  exact Nat.lt_of_le_of_lt (Nat.le_add_right page pageSize) hlimit

/-- The pages that an object is mapped to fit below the address limit, with an address left over. -/
theorem pages_limit_lt {owner offset size : Nat} {misaligned : Bool} {pages : List Nat}
    (h : Holding ((Resource.iommu range pages).items owner ++ items) m)
    (hmade : InstanceObject.WellMade ⟨owner, offset, size, misaligned, .iommu range pages⟩) :
    range.base + pages.length * pageSize + 1 < addressLimit := by
  obtain ⟨-, hlength, hpages⟩ := hmade.fits
  dsimp only at hlength hpages
  rw [hpages, ← hlength]
  exact h.succ_range_limit_lt (List.mem_append_left _ (List.mem_append_right _ List.mem_cons_self))

/-- Pages that were taken for a range fit into it, below the address limit with an address left over. -/
theorem taken_lt {taken : List Nat}
    (h : Holding (.range .shared range :: (taken.map Item.page ++ items)) m)
    (hlength : taken.length * pageSize = range.length) :
    range.base + taken.reverse.length * pageSize + 1 < addressLimit ∧
      ∀ page ∈ taken.reverse, page < addressLimit := by
  refine ⟨?_, fun page hpage => ?_⟩
  · rw [List.length_reverse, hlength]
    exact h.succ_range_limit_lt List.mem_cons_self
  · exact h.page_lt (List.mem_cons_of_mem _ (List.mem_append_left _
      (List.mem_map_of_mem (List.mem_reverse.mp hpage))))

end Holding

namespace During

/-! ## Giving back -/

/-- Pages are given back. -/
theorem freePages {pages : List Nat} (h : During base (pages.map Item.page ++ items) m) :
    ∃ m', Action.freePages pages m = .ok () m' ∧ During base items m' := by
  induction pages generalizing m with
  | nil => exact ⟨m, rfl, h⟩
  | cons page rest ih =>
    obtain ⟨m₁, hfree, h₁⟩ := h.freePage
    unfold Action.freePages
    rw [run_bind_of_ok hfree]
    exact ih h₁

/-- The slots of mapped pages are taken back, the last slot first. -/
theorem unmapSlots {address : Nat} (pages : List Nat)
    (h : During base (Item.slotsFrom address pages ++ items) m) :
    ∃ m', Action.unmapSlots address pages.length m = .ok () m' ∧ During base items m' := by
  induction pages using List.reverseRecOn generalizing m with
  | nil => exact ⟨m, rfl, h⟩
  | append_singleton pages page ih =>
    rw [Item.slotsFrom_append, List.append_assoc] at h
    obtain ⟨m₁, hunmap, h₁⟩ := (h.perm List.perm_middle).unmapPage
    rw [List.length_append]
    show ∃ m', Action.unmapSlots address (pages.length + 1) m = .ok () m' ∧ During base items m'
    unfold Action.unmapSlots
    rw [run_bind_of_ok hunmap]
    exact ih h₁

/-- A placement under way is undone. -/
theorem undoPlacement (mapped : List Nat) {taken : List Nat}
    (h : During base (Item.slotsFrom range.base mapped ++
      .range .shared range :: (taken.map Item.page ++ items)) m) :
    ∃ m', Action.undoPlacement range mapped.length taken m = .ok () m' ∧ During base items m' := by
  obtain ⟨m₁, hunmap, h₁⟩ := h.unmapSlots
  obtain ⟨m₂, hrelease, h₂⟩ := h₁.release
  unfold Action.undoPlacement
  rw [run_bind_of_ok hunmap, run_bind_of_ok hrelease]
  exact h₂.freePages

/-- Mapped pages are taken back, the first slot first. -/
theorem unmapAndFree {address : Nat} {pages : List Nat}
    (hlimit : address + pages.length * pageSize + 1 < addressLimit)
    (h : During base (Item.slotsFrom address pages ++ (pages.map Item.page ++ items)) m) :
    ∃ m', Action.unmapAndFree address pages m = .ok () m' ∧ During base items m' := by
  induction pages generalizing m address with
  | nil =>
    rw [Action.unmapAndFree_nil (by omega)]
    exact ⟨m, rfl, h⟩
  | cons page rest ih =>
    obtain ⟨m₁, hunmap, h₁⟩ := h.unmapPage
    obtain ⟨m₂, hfree, h₂⟩ := (h₁.perm List.perm_middle).freePage
    rw [List.length_cons, Nat.succ_mul] at hlimit
    rw [Action.unmapAndFree_cons (by omega), run_bind_of_ok hunmap, run_bind_of_ok hfree]
    exact ih (by omega) h₂

/-- **What an object takes is given back.** -/
theorem giveBack {object : InstanceObject} (hmade : object.WellMade)
    (h : During base (object.items ++ items) m) :
    ∃ m', Action.giveBack object.owner object.resource m = .ok () m' ∧ During base items m' := by
  obtain ⟨owner, offset, size, isMisaligned, resource⟩ := object
  cases resource with
  | heap range => exact h.release
  | iommu range pages =>
    have hlimit := h.holding.pages_limit_lt hmade
    have h' := h
    simp only [InstanceObject.items, Resource.items, List.append_assoc] at h'
    obtain ⟨m₁, hunmap, h₁⟩ := h'.unmapAndFree hlimit
    obtain ⟨m₂, hrelease, h₂⟩ := h₁.release
    unfold Action.giveBack
    dsimp only
    rw [run_bind_of_ok hunmap]
    exact ⟨m₂, hrelease, h₂⟩
  | dma buffer => exact h.freeBuffer

/-! ## Placing in the heap -/

theorem placeInHeap {i : Nat} (h : During base items m) (hid : m.Has (.heap i) space)
    {size : Nat} (hsize : pageSize ∣ size) (align : Nat) :
    (∃ cause m', Action.placeInHeap i size align m = .ok (.error cause) m' ∧ During base items m') ∨
      ∃ object m', Action.placeInHeap i size align m = .ok (.ok object) m' ∧
        During base (object.items ++ items) m' ∧ object.MadeFor i size .heap := by
  unfold Action.placeInHeap
  rcases h.reserve hid size align with ⟨cause, hcause⟩ | ⟨range, m₁, hrange, h₁, hleast⟩
  · obtain ⟨m₁, hnote, h₁⟩ := h.note (n := .heapExhausted cause) rfl
    rw [run_bind_of_ok hcause]
    dsimp only
    rw [run_bind_of_ok hnote]
    exact .inl ⟨cause, m₁, rfl, h₁⟩
  · rw [run_bind_of_ok hrange]
    refine .inr ⟨_, m₁, rfl, h₁, ⟨hsize, ?_⟩, rfl, rfl, rfl⟩
    rw [← hleast.eq_of_dvd hsize]

/-! ## Placing behind the IOMMU -/

/-- **Pages are taken all or none.** -/
theorem takePages (count more : Nat) {taken : List Nat}
    (h : During base (taken.map Item.page ++ items) m) :
    (∃ m', Action.takePages count more taken m = .ok none m' ∧ During base items m') ∨
      ∃ all m', Action.takePages count more taken m = .ok (some all) m' ∧
        During base (all.map Item.page ++ items) m' ∧ all.length = taken.length + more := by
  induction more generalizing m taken with
  | zero => exact .inr ⟨taken, m, rfl, h, rfl⟩
  | succ more ih =>
    obtain ⟨page, m₁, hpage, h₁⟩ := h.allocPage
    unfold Action.takePages
    rw [run_bind_of_ok (Action.run_orUndo_of_ok hpage _)]
    cases page with
    | some page =>
      have htaken : During base ((page :: taken).map Item.page ++ items) m₁ := h₁
      rcases ih htaken with ⟨m₂, hnone, h₂⟩ | ⟨all, m₂, hsome, h₂, hlength⟩
      · exact .inl ⟨m₂, hnone, h₂⟩
      · refine .inr ⟨all, m₂, hsome, h₂, ?_⟩
        rw [List.length_cons] at hlength
        omega
    | none =>
      have htaken : During base (taken.map Item.page ++ items) m₁ := h₁
      obtain ⟨m₂, hnote, h₂⟩ := htaken.note (n := .pageRefused taken.length count) rfl
      obtain ⟨m₃, hfree, h₃⟩ := h₂.freePages
      dsimp only
      rw [run_bind_of_ok hnote, run_bind_of_ok hfree]
      exact .inl ⟨m₃, rfl, h₃⟩

/-- A new slot is the next of those mapped so far. -/
theorem mapped {mapped : List Nat} {address page : Nat}
    (h : During base (.slot address page :: (Item.slotsFrom range.base mapped ++ items)) m)
    (haddress : address = range.base + mapped.length * pageSize) :
    During base (Item.slotsFrom range.base (mapped ++ [page]) ++ items) m ∧
      address + pageSize = range.base + (mapped ++ [page]).length * pageSize := by
  constructor
  · rw [Item.slotsFrom_append, ← haddress, List.append_assoc]
    exact h.perm List.perm_middle.symm
  · rw [List.length_append, List.length_singleton, Nat.succ_mul]
    omega

/-- **Pages are mapped to the slots of a range all or none**: if one is refused, the whole placement
is undone. -/
theorem mapPages {taken rest mapped : List Nat} {address : Nat}
    (h : During base (Item.slotsFrom range.base mapped ++
      .range .shared range :: (taken.map Item.page ++ items)) m)
    (haddress : address = range.base + mapped.length * pageSize)
    (hlimit : address + rest.length * pageSize + 1 < addressLimit)
    (hpages : ∀ page ∈ rest, page < addressLimit) :
    (∃ cause m', Action.mapPages range taken rest mapped.length address m = .ok (.error cause) m' ∧
        During base items m') ∨
      ∃ m', Action.mapPages range taken rest mapped.length address m = .ok (.ok ()) m' ∧
        During base (Item.slotsFrom range.base (mapped ++ rest) ++
          .range .shared range :: (taken.map Item.page ++ items)) m' := by
  induction rest generalizing m mapped address with
  | nil =>
    rw [Action.mapPages_nil (by omega), List.append_nil]
    exact .inr ⟨m, rfl, h⟩
  | cons page rest ih =>
    rw [List.length_cons, Nat.succ_mul] at hlimit
    obtain ⟨hpage, hrest⟩ := List.forall_mem_cons.mp hpages
    rw [Action.mapPages_cons (by omega)]
    have hslot : address + pageSize < addressLimit := by omega
    rcases h.mapPage hslot hpage with ⟨code, m₁, hcode, h₁⟩ | ⟨m₁, hmap, h₁⟩
    · obtain ⟨m₂, hnote, h₂⟩ := h₁.note (n := .mappingRefused code) rfl
      obtain ⟨m₃, hundo, h₃⟩ := h₂.undoPlacement
      rw [run_bind_of_ok (Action.run_orUndo_of_ok hcode _)]
      dsimp only
      rw [run_bind_of_ok hnote, run_bind_of_ok hundo]
      exact .inl ⟨_, m₃, rfl, h₃⟩
    · rw [run_bind_of_ok (Action.run_orUndo_of_ok hmap _)]
      dsimp only
      obtain ⟨h₂, hnextAddress⟩ := h₁.mapped haddress
      have hlast := ih h₂ hnextAddress (by omega) hrest
      rw [List.length_append, List.append_assoc] at hlast
      exact hlast

theorem placeBehindIommu {i : Nat} (h : During base items m) (hid : m.Has .shared space)
    {size : Nat} (hsize : pageSize ∣ size) (align : Nat) :
    (∃ cause m', Action.placeBehindIommu i size align m = .ok (.error cause) m' ∧
        During base items m') ∨
      ∃ object m', Action.placeBehindIommu i size align m = .ok (.ok object) m' ∧
        During base (object.items ++ items) m' ∧ object.MadeFor i size .iommu := by
  have hshared : m.shared = some space := hid
  unfold Action.placeBehindIommu
  rw [run_get_bind]
  split
  · obtain ⟨m₁, hnote, h₁⟩ := h.note (n := .spaceFull) rfl
    rw [run_bind_of_ok hnote]
    exact .inl ⟨_, m₁, rfl, h₁⟩
  · have hnothing : During base (([] : List Nat).map Item.page ++ items) m := h
    rcases hnothing.takePages (size / pageSize) (size / pageSize) with
      ⟨m₁, hnone, h₁⟩ | ⟨taken, m₁, htaken, h₁, hlength⟩
    · rw [run_bind_of_ok hnone]
      exact .inl ⟨_, m₁, rfl, h₁⟩
    · rw [run_bind_of_ok htaken]
      dsimp only
      have hframe : m₁.frame = m.frame := h₁.steady.frame.trans h.steady.frame.symm
      obtain ⟨space₁, hid₁, -⟩ := hid.of_spaces_eq (Machine.spaces_of_frame hframe)
      rcases h₁.reserve hid₁ size align with ⟨cause, hcause⟩ | ⟨range, m₂, hrange, h₂, hleast⟩
      · obtain ⟨m₂, hnote, h₂⟩ := h₁.note (n := .spaceFull) rfl
        obtain ⟨m₃, hfree, h₃⟩ := h₂.freePages
        rw [run_bind_of_ok (Action.run_orUndo_of_ok hcause _)]
        dsimp only
        rw [run_bind_of_ok hnote, run_bind_of_ok hfree]
        exact .inl ⟨cause, m₃, rfl, h₃⟩
      · have hcount : taken.length * pageSize = size := by
          rw [hlength, List.length_nil, Nat.zero_add]
          exact Nat.div_mul_cancel hsize
        have hrangeLength : range.length = size := hleast.eq_of_dvd hsize
        obtain ⟨hlimit, hpages⟩ := h₂.holding.taken_lt (hcount.trans hrangeLength.symm)
        have hbase : range.base = range.base + ([] : List Nat).length * pageSize := by
          rw [List.length_nil, Nat.zero_mul, Nat.add_zero]
        have hnoSlots : During base (Item.slotsFrom range.base [] ++
            .range .shared range :: (taken.map Item.page ++ items)) m₂ := h₂
        rw [run_bind_of_ok (Action.run_orUndo_of_ok hrange _)]
        dsimp only
        rcases hnoSlots.mapPages hbase hlimit hpages with
          ⟨cause, m₃, hcause, h₃⟩ | ⟨m₃, hmap, h₃⟩
        · rw [List.length_nil] at hcause
          rw [run_bind_of_ok hcause]
          exact .inl ⟨cause, m₃, rfl, h₃⟩
        · rw [List.length_nil] at hmap
          rw [run_bind_of_ok hmap]
          have hmapped : taken.reverse.length * pageSize = size := by
            rw [List.length_reverse, hcount]
          refine .inr ⟨_, m₃, rfl, h₃.perm ?_, ⟨hsize, rfl, hrangeLength, hmapped⟩, rfl, rfl, rfl⟩
          simp only [InstanceObject.items, Resource.items, List.nil_append, List.append_assoc,
            List.cons_append]
          apply List.Perm.append_left _
          have hreverse := (List.reverse_perm taken).symm.map Item.page
          exact List.perm_middle.symm.trans (hreverse.append_right _)

/-! ## Placing in a buffer -/

theorem placeInBuffer {i : Nat} (h : During base items m) {size align : Nat}
    (hsize : pageSize ∣ size) (halign : 0 < align) :
    (∃ cause m', Action.placeInBuffer i size align m = .ok (.error cause) m' ∧
        During base items m') ∨
      ∃ object m', Action.placeInBuffer i size align m = .ok (.ok object) m' ∧
        During base (object.items ++ items) m' ∧ object.MadeFor i size .dma := by
  unfold Action.placeInBuffer
  obtain ⟨buffer, m₁, hbuffer, h₁, hleast⟩ := h.allocBuffer size
  rw [run_bind_of_ok hbuffer]
  cases buffer with
  | none =>
    have hnone : During base items m₁ := h₁
    obtain ⟨m₂, hnote, h₂⟩ := hnone.note (n := .bufferRefused) rfl
    dsimp only
    rw [run_bind_of_ok hnote]
    exact .inl ⟨_, m₂, rfl, h₂⟩
  | some buffer =>
    have hsome : During base (.buffer buffer :: items) m₁ := h₁
    have hsub : checkedSub align 1 = .ok (align - 1) := checkedSub_of_le halign
    have haligned : isAligned buffer.handle align =
        .ok (buffer.handle &&& (align - 1) == 0) := by
      unfold isAligned
      rw [hsub, ok_bind]
      rfl
    have hmade : ∀ misaligned, InstanceObject.WellMade
        ⟨i, buffer.handle, size, misaligned, .dma buffer⟩ := by
      refine fun misaligned => ⟨hsize, ?_⟩
      show buffer = ⟨buffer.handle, size⟩
      rw [← (hleast buffer rfl).eq_of_dvd hsize]
    dsimp only
    rw [run_bind_of_ok (run_lift_of_ok haligned m₁)]
    split
    · obtain ⟨m₂, hnote, h₂⟩ := hsome.note (n := .misaligned buffer.handle align) rfl
      rw [run_bind_of_ok hnote]
      exact .inr ⟨_, m₂, rfl, h₂, hmade _, rfl, rfl, rfl⟩
    · exact .inr ⟨_, m₁, rfl, hsome, hmade _, rfl, rfl, rfl⟩

end During
end InstanceMemory
