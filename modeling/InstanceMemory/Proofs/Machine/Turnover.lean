import InstanceMemory.Proofs.Machine.Accounts
import InstanceMemory.Proofs.Machine.Owing

/-!
# Placing and freeing on any platform

Whatever a platform answers, **placing an object takes exactly its items or gives back all that it
took, and freeing the object gives exactly its items back** (`Owing.place`, `Owing.giveBack`; with
the zeroing of a new object, `Owing.allocate`).

A placement behind the IOMMU has three stages, each with what is owed on the way: the pages taken so
far, then the range, then the slots mapped so far. Where a step is refused or faults, everything is
given back. The undoing and the freeing of an object are loops of their own, in different orders;
each is followed item by item down to nothing.
-/

set_option autoImplicit false

namespace InstanceMemory

variable {π : Type} [Platform π] {start : List Call} {kept own : List Item} {m : Machine π}
  {i : Nat} {F : Machine π → Prop} {range : AddressRange}

/-- A request is refused and owes nothing, or owes the items of the object that it made. -/
def AllOrNothing (start : List Call) (kept : List Item) :
    Except Error InstanceObject → Machine π → Prop
  | .error _ => Owing start kept []
  | .ok object => fun m => Owing start kept object.items m ∧ object.Fitted

namespace Owing

/-- Pages rest on nothing. -/
theorem backed_pages (pages : List Nat) : Item.Backed (pages.map Item.page) :=
  Item.backed_of_slots_eq_nil (Item.filterMap_pages (fun _ => rfl) pages)

/-! ## Giving back -/

theorem freePages (hback : TakesBack π) {pages : List Nat}
    (h : Owing start kept (pages.map Item.page) m) :
    Ends (fun _ => Owing start kept []) F (Action.freePages pages m) := by
  induction pages generalizing m with
  | nil => exact h
  | cons page rest ih => exact (h.freePage hback (backed_pages rest)).bind fun _ _ h => ih h

/-- The slots of mapped pages are taken back, the last slot first. -/
theorem unmapSlots (hback : TakesBack π) (mapped : List Nat) {taken : List Nat}
    (h : Owing start kept
      (Item.slotsFrom range.base mapped ++ .range .shared range :: taken.map Item.page) m)
    (hfits : mapped.length * pageSize ≤ range.length) (hmapped : ∀ p ∈ mapped, p ∈ taken) :
    Ends (fun _ => Owing start kept (.range .shared range :: taken.map Item.page)) F
      (Action.unmapSlots range.base mapped.length m) := by
  induction mapped using List.reverseRecOn generalizing m with
  | nil => exact h
  | append_singleton mapped page ih =>
    rw [Item.slotsFrom_append, List.append_assoc] at h
    rw [List.length_append, List.length_singleton, Nat.succ_mul] at hfits
    have hrest : ∀ p ∈ mapped, p ∈ taken := fun p hp => hmapped p (List.mem_append_left _ hp)
    have hlimit : range.base + mapped.length * pageSize ≤ range.limit :=
      Nat.add_le_add_left (by omega) _
    have hunmap := (h.perm List.perm_middle).unmapPage (F := F) hback
      (Item.backed_slotsFrom (Nat.le_refl _) hlimit hrest)
    rw [List.length_append]
    exact hunmap.bind fun _ _ h => ih h (by omega) hrest

/-- **A placement under way is undone.** -/
theorem undoPlacement (hback : TakesBack π) (mapped : List Nat) {taken : List Nat}
    (h : Owing start kept
      (Item.slotsFrom range.base mapped ++ .range .shared range :: taken.map Item.page) m)
    (hfits : mapped.length * pageSize ≤ range.length) (hmapped : ∀ p ∈ mapped, p ∈ taken) :
    Ends (fun _ => Owing start kept []) F (Action.undoPlacement range mapped.length taken m) := by
  refine (h.unmapSlots hback mapped hfits hmapped).bind fun _ _ h => ?_
  refine (h.release (backed_pages taken)).bind fun _ _ h => ?_
  exact h.freePages hback

/-- Mapped pages are taken back, the first slot first. -/
theorem unmapAndFree (hback : TakesBack π) {address : Nat} {pages : List Nat}
    (h : Owing start kept
      (Item.slotsFrom address pages ++ .range .shared range :: pages.map Item.page) m)
    (hbase : range.base ≤ address) (hfits : address + pages.length * pageSize ≤ range.limit)
    (hlimit : address + pages.length * pageSize + 1 < addressLimit) :
    Ends (fun _ => Owing start kept [.range .shared range]) F
      (Action.unmapAndFree address pages m) := by
  induction pages generalizing m address with
  | nil =>
    rw [Action.unmapAndFree_nil (by omega)]
    exact h
  | cons page rest ih =>
    rw [List.length_cons, Nat.succ_mul] at hfits hlimit
    have hrest : address + pageSize + rest.length * pageSize ≤ range.limit := by omega
    have hbase' : range.base ≤ address + pageSize := by omega
    rw [Action.unmapAndFree_cons (by omega)]
    refine (h.unmapPage hback (Item.backed_slotsFrom hbase' hrest
      fun p hp => List.mem_cons_of_mem page hp)).bind fun _ m₁ h₁ => ?_
    have h₂ : Owing start kept (.page page :: (Item.slotsFrom (address + pageSize) rest ++
        .range .shared range :: rest.map Item.page)) m₁ :=
      h₁.perm (((List.Perm.swap _ _ _).append_left _).trans List.perm_middle)
    refine (h₂.freePage hback (Item.backed_slotsFrom hbase' hrest fun p hp => hp)).bind
      fun _ m₃ h₃ => ?_
    exact ih h₃ hbase' hrest (by omega)

/-- **What an object takes is given back.** -/
theorem giveBack (hback : TakesBack π) {object : InstanceObject} (hfitted : object.Fitted)
    (h : Owing start kept object.items m) :
    Ends (fun _ => Owing start kept []) F (Action.giveBack object.owner object.resource m) := by
  obtain ⟨owner, offset, size, isMisaligned, resource⟩ := object
  cases resource with
  | heap range => exact hfitted.elim
  | iommu range pages =>
    obtain ⟨hfits, hlimit⟩ := hfitted
    have hfits : range.base + pages.length * pageSize ≤ range.limit := Nat.add_le_add_left hfits _
    have hunmap := (h.perm (Resource.items_iommu_perm owner range pages).symm).unmapAndFree (F := F)
      hback (Nat.le_refl _) hfits hlimit
    exact hunmap.bind fun _ _ h => h.release (Item.backed_of_slots_eq_nil rfl)
  | dma buffer => exact h.freeBuffer hback (Item.backed_of_slots_eq_nil rfl)

/-- **A freed object owes nothing.** -/
theorem free (hback : TakesBack π) {object : InstanceObject} (hfitted : object.Fitted)
    (h : Owing start kept object.items m) :
    Ends (fun _ => Owing start kept []) F (Action.free object m) := by
  refine Action.ends_andFinally ((h.giveBack hback hfitted).imp ?_)
  exact fun _ m h => h.onController fun _ _ => ⟨rfl, rfl⟩

/-! ## Placing behind the IOMMU -/

/-- **Pages are taken all or none.** -/
theorem takePages (hback : TakesBack π) (count more : Nat) {taken : List Nat}
    (h : Owing start kept (taken.map Item.page) m) :
    Ends (fun answer m => match answer with
      | none => Owing start kept [] m
      | some all => Owing start kept (all.map Item.page) m ∧ all.length = taken.length + more)
      (Owing start kept []) (Action.takePages count more taken m) := by
  induction more generalizing m taken with
  | zero => exact ⟨h, rfl⟩
  | succ more ih =>
    unfold Action.takePages
    refine (Action.ends_orUndo (h.allocPage (backed_pages taken))
      fun _ h => h.freePages hback).bind fun page m₁ h₁ => ?_
    cases page with
    | some page =>
      have htaken : Owing start kept ((page :: taken).map Item.page) m₁ := h₁
      refine (ih htaken).imp fun answer _ h => ?_
      cases answer with
      | none => exact h
      | some all =>
        refine ⟨h.1, h.2.trans ?_⟩
        rw [List.length_cons]
        omega
    | none =>
      have htaken : Owing start kept (taken.map Item.page) m₁ := h₁
      refine (htaken.note (n := .pageRefused taken.length count) rfl).bind fun _ _ h => ?_
      exact (h.freePages hback).bind fun _ _ h => h

/-- **Pages are mapped to the slots of a range all or none**: if one is refused, the whole placement
is undone. -/
theorem mapPages (hback : TakesBack π) {taken rest mapped : List Nat} {address : Nat}
    (h : Owing start kept
      (Item.slotsFrom range.base mapped ++ .range .shared range :: taken.map Item.page) m)
    (haddress : address = range.base + mapped.length * pageSize)
    (hfits : (mapped ++ rest).length * pageSize ≤ range.length)
    (htaken : ∀ p ∈ mapped ++ rest, p ∈ taken) :
    Ends (fun answer => match answer with
      | .error _ => Owing start kept []
      | .ok () => fun m => Owing start kept (Item.slotsFrom range.base (mapped ++ rest) ++
          .range .shared range :: taken.map Item.page) m ∧
        range.base + (mapped ++ rest).length * pageSize + 1 < addressLimit)
      (Owing start kept []) (Action.mapPages range taken rest mapped.length address m) := by
  induction rest generalizing m mapped address with
  | nil =>
    rw [List.append_nil] at hfits htaken ⊢
    unfold Action.mapPages
    refine (Action.ends_orUndo (Action.ends_drawAddress address m) ?_).bind ?_
    · rintro _ ⟨rfl, -⟩
      exact h.undoPlacement hback mapped hfits htaken
    · rintro _ _ ⟨rfl, hdraw⟩
      exact ⟨h, haddress ▸ hdraw⟩
  | cons page rest ih =>
    rw [List.append_cons] at hfits htaken
    have hmore : (mapped ++ [page]).length * pageSize ≤ range.length :=
      Nat.le_trans (Nat.mul_le_mul_right _ (List.prefix_append _ rest).length_le) hfits
    have hless : mapped.length * pageSize ≤ range.length := by
      rw [List.length_append, List.length_singleton, Nat.succ_mul] at hmore
      omega
    have hmoreTaken : ∀ p ∈ mapped ++ [page], p ∈ taken := fun p hp =>
      htaken p (List.mem_append_left _ hp)
    have hlessTaken : ∀ p ∈ mapped, p ∈ taken := fun p hp =>
      hmoreTaken p (List.mem_append_left _ hp)
    -- the new slot is the next of those mapped so far
    have hnext : Item.slotsFrom range.base (mapped ++ [page]) ++
          .range .shared range :: taken.map Item.page =
        Item.slotsFrom range.base mapped ++
          .slot address page :: .range .shared range :: taken.map Item.page := by
      rw [Item.slotsFrom_append, ← haddress, List.append_assoc, List.singleton_append]
    have hbacked := Item.backed_slotsFrom (Nat.le_refl range.base)
      (Nat.add_le_add_left hmore range.base) hmoreTaken
    rw [hnext] at hbacked
    unfold Action.mapPages
    refine (Action.ends_orUndo (Action.ends_drawAddress address m) ?_).bind ?_
    · rintro _ ⟨rfl, -⟩
      exact h.undoPlacement hback mapped hless hlessTaken
    rintro _ _ ⟨rfl, -⟩
    refine (Action.ends_orUndo (h.mapPage (Item.backed_slotsFrom (Nat.le_refl _)
        (Nat.add_le_add_left hless _) hlessTaken) (hbacked.perm List.perm_middle))
      fun _ h => h.undoPlacement hback mapped hless hlessTaken).bind fun answer m₁ h₁ => ?_
    cases answer with
    | error code =>
      refine (Owing.note h₁ (n := .mappingRefused code) rfl).bind fun _ _ h => ?_
      exact (h.undoPlacement hback mapped hless hlessTaken).bind fun _ _ h => h
    | ok _ =>
      have h₂ : Owing start kept (Item.slotsFrom range.base (mapped ++ [page]) ++
          .range .shared range :: taken.map Item.page) m₁ := by
        rw [hnext]
        exact Owing.perm h₁ List.perm_middle.symm
      have hslots : (mapped ++ [page]).length = mapped.length + 1 := List.length_append
      have hnextAddress : address + pageSize =
          range.base + (mapped ++ [page]).length * pageSize := by
        rw [hslots, Nat.succ_mul]
        omega
      rw [List.append_cons mapped page rest, ← hslots]
      exact ih h₂ hnextAddress hfits htaken

theorem placeBehindIommu (hback : TakesBack π) (h : Owing start kept [] m) (i size align : Nat) :
    Ends (AllOrNothing start kept) (Owing start kept [])
      (Action.placeBehindIommu i size align m) := by
  unfold Action.placeBehindIommu
  rw [run_get_bind]
  dsimp only
  split
  · exact (h.note (n := .spaceFull) rfl).bind fun _ _ h => h
  · have hnothing : Owing start kept (([] : List Nat).map Item.page) m := h
    refine (hnothing.takePages hback (size / pageSize) (size / pageSize)).bind
      fun answer m₁ h₁ => ?_
    cases answer with
    | none => exact h₁
    | some taken =>
      obtain ⟨h₁, hlength⟩ := h₁
      refine (Action.ends_orUndo (h₁.reserve (backed_pages taken) size align)
        fun _ h => Owing.freePages hback h).bind fun answer m₂ h₂ => ?_
      cases answer with
      | error cause =>
        refine (Owing.note h₂ (n := .spaceFull) rfl).bind fun _ _ h => ?_
        exact (h.freePages hback).bind fun _ _ h => h
      | ok range =>
        obtain ⟨h₂, hsize⟩ := h₂
        have hfits : taken.reverse.length * pageSize ≤ range.length := by
          rw [List.length_reverse, hlength, List.length_nil, Nat.zero_add]
          exact Nat.le_trans (Nat.div_mul_le_self size pageSize) hsize
        have hbase : range.base = range.base + ([] : List Nat).length * pageSize := by
          rw [List.length_nil, Nat.zero_mul, Nat.add_zero]
        have hnoSlots : Owing start kept (Item.slotsFrom range.base [] ++
            .range .shared range :: taken.map Item.page) m₂ := h₂
        refine (hnoSlots.mapPages hback hbase hfits
          fun p hp => List.mem_reverse.mp hp).bind fun answer m₃ h₃ => ?_
        cases answer with
        | error cause => exact h₃
        | ok _ =>
          obtain ⟨h₃, hlimit⟩ := h₃
          have hitems := Resource.items_iommu_perm i range taken.reverse
          have hreverse := (List.reverse_perm taken).symm.map Item.page
          exact ⟨h₃.perm (((hreverse.cons _).append_left _).trans hitems), hfits, hlimit⟩

/-! ## Placing in a buffer, and by either strategy -/

theorem placeInBuffer (h : Owing start kept [] m) (i size : Nat) {align : Nat}
    (halign : 0 < align) :
    Ends (AllOrNothing start kept) (Owing start kept []) (Action.placeInBuffer i size align m) := by
  have hnothing : Item.Backed [] := Item.backed_of_slots_eq_nil rfl
  unfold Action.placeInBuffer
  refine (h.allocBuffer hnothing size).bind fun buffer m₁ h₁ => ?_
  cases buffer with
  | none =>
    have hnone : Owing start kept [] m₁ := h₁
    exact (hnone.note (n := .bufferRefused) rfl).bind fun _ _ h => h
  | some buffer =>
    have hsome : Owing start kept [.buffer buffer] m₁ := h₁
    have haligned : isAligned buffer.handle align =
        .ok (buffer.handle &&& (align - 1) == 0) := by
      unfold isAligned
      rw [checkedSub_of_le halign, ok_bind]
      rfl
    dsimp only
    rw [run_bind_of_ok (run_lift_of_ok haligned m₁)]
    split
    · refine (hsome.note (n := .misaligned buffer.handle align) rfl).bind fun _ _ h => ?_
      exact ⟨h, trivial⟩
    · exact ⟨hsome, trivial⟩

/-- **A controller without a heap places an object all or not at all.** -/
theorem place (hback : TakesBack π) (h : Owing start kept [] m)
    (hheap : (m.controller i).strategy ≠ .heap) (size align : Nat) :
    Ends (AllOrNothing start kept) (Owing start kept []) (Action.place i size align m) := by
  have hplaceBy : ∀ {m : Machine π} {strategy : Strategy} {size align : Nat},
      Owing start kept [] m → strategy ≠ .heap → 0 < align →
      Ends (AllOrNothing start kept) (Owing start kept [])
        (Action.placeBy strategy i size align m) := by
    intro m strategy size align h hheap halign
    cases strategy with
    | heap => exact absurd rfl hheap
    | iommu => exact h.placeBehindIommu hback i size align
    | dma => exact h.placeInBuffer i size halign
  unfold Action.place
  rw [run_get_bind]
  refine (h.note (n := .requested (m.controller i).strategy size align) rfl).bind fun _ m₁ h₁ => ?_
  cases hround : Action.pageRound size align with
  | error cause => exact h₁
  | ok rounded =>
    obtain ⟨pages, step⟩ := rounded
    obtain ⟨-, hstep⟩ := Action.pageRound_eq_ok hround
    refine (hplaceBy h₁ hheap hstep).bind fun answer m₂ h₂ => ?_
    cases answer with
    | error cause => exact h₂
    | ok object =>
      obtain ⟨h₂, hfitted⟩ := h₂
      refine (Owing.note h₂ (n := .placed pages step object.offset) rfl).bind fun _ m₃ h₃ => ?_
      exact ⟨h₃.onController fun _ _ => ⟨rfl, rfl⟩, hfitted⟩

/-! ## Requests -/

/-- **A request makes an object all or not at all**, also if the zeroing of the object faults. -/
theorem allocate (hback : TakesBack π) (h : Owing start kept [] m)
    (hheap : (m.controller i).strategy ≠ .heap) (size align : Nat) (zeroed : Bool) :
    Ends (AllOrNothing start kept) (Owing start kept [])
      (Action.allocate i size align zeroed m) := by
  have hmake : Ends (AllOrNothing start kept) (Owing start kept [])
      (Action.make i size align zeroed m) := by
    refine (h.place hback hheap size align).bind fun answer m₁ h₁ => ?_
    cases answer with
    | error cause => exact h₁
    | ok object =>
      obtain ⟨h₁, hfitted⟩ := h₁
      cases zeroed with
      | false => exact ⟨h₁, hfitted⟩
      | true =>
        have hfill : Keeps (Owing start kept object.items) (Action.fill object 0 : Action π Unit) :=
          Action.keeps_fill fun offset => (aside hfitted.backed).writeWord object offset 0
        exact (Action.ends_orUndo (.of_keeps hfill h₁) fun _ h => Owing.free hback hfitted h).bind
          fun _ _ h => ⟨h, hfitted⟩
  unfold Action.allocate
  rw [run_get_bind]
  cases (m.controller i).phase with
  | suspended => exact h
  | constructed => exact hmake
  | initialized => exact hmake

end Owing

end InstanceMemory
