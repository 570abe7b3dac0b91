import InstanceMemory.Proofs.Machine.Recycling
import InstanceMemory.Proofs.Machine.Windowed

/-!
# How often a window is selected

A controller sees the words it accesses through windows, one after the other, and writes the window
register for a word unless it remembers that the window is selected. A **tally** is what it remembers
and how often the register was written. `Tally.sees` says what becomes of a tally when words are seen
through windows, and accesses do nothing else to the tally of the controller (`Visible.leaves_read32`
and its companions): what was remembered before is all that counts for the first word, whoever
selected it and whenever.

Where the device finds the words does not matter to this, as long as it finds them somewhere or
answers that there are none. So an object is `Visible` also in system memory that lies so high that
its physical addresses have the resolve bit.
-/

set_option autoImplicit false

namespace InstanceMemory

open Simulator (Device)

/-! ## Tallies -/

/-- The window that is remembered to be selected, and how often the register was written. -/
structure Tally where
  last : Option Nat
  writes : Nat
  deriving DecidableEq

namespace Tally

/-- A word is seen through a window. The register is written for it unless the window is remembered. -/
def see (t : Tally) (base : Nat) : Tally :=
  if t.last = some base then t else ⟨some base, t.writes + 1⟩

/-- Words are seen through windows, one for each word. -/
def sees (t : Tally) (bases : List Nat) : Tally := bases.foldl see t

/-- Nothing is remembered any more. -/
def forget (t : Tally) : Tally := ⟨none, t.writes⟩

theorem see_eq (t : Tally) (base : Nat) :
    t.see base = ⟨some base, t.writes + if t.last = some base then 0 else 1⟩ := by
  unfold see
  by_cases h : t.last = some base
  · rw [if_pos h, if_pos h, ← h, Nat.add_zero]
  · rw [if_neg h, if_neg h]

theorem sees_append (t : Tally) (bases others : List Nat) :
    t.sees (bases ++ others) = (t.sees bases).sees others := List.foldl_append

/-- The window of the last word is remembered. -/
theorem last_sees (t : Tally) (bases : List Nat) :
    (t.sees bases).last = bases.getLast?.or t.last := by
  induction bases generalizing t with
  | nil => rfl
  | cons base rest ih =>
    have hcons : t.sees (base :: rest) = (t.see base).sees rest := rfl
    rw [hcons, ih, see_eq, List.getLast?_cons, Option.some_or]
    cases rest.getLast? <;> rfl

end Tally

variable {α β : Type} {i base offset words : Nat} {bases others : List Nat}
  {m m' m₁ : Machine Device} {o : InstanceObject} {roster : List (Option FirmwareObjects)}
  {live : List InstanceObject}

/-- The tally of a controller. -/
def Machine.tally (m : Machine Device) (i : Nat) : Tally :=
  ⟨m.trusted i, m.hardware.windowWrites⟩

/-- The tally can be read from the store. -/
theorem Machine.tally_of_store (h : m'.store = m.store) (i : Nat) : m'.tally i = m.tally i := by
  have hwrites : m'.hardware.windowWrites = m.hardware.windowWrites :=
    congrArg (·.hardware.windowWrites) h
  rw [tally, tally, trusted_of_store h, hwrites]

/-! ## What words are seen through -/

/-- Consecutive words of an object. -/
structure Access where
  object : InstanceObject
  offset : Nat
  words : Nat

namespace InstanceObject

/-- The windows that consecutive words of an object are seen through. -/
def windows (o : InstanceObject) : (offset words : Nat) → List Nat
  | _, 0 => []
  | offset, words + 1 => o.window offset :: o.windows (offset + wordSize) words

/-- The words from an offset on, if they lie within the object. -/
def access? (o : InstanceObject) (offset words : Nat) : Option Access :=
  if o.Fits offset words then some ⟨o, offset, words⟩ else none

/-- All words of the object. -/
def wholly (o : InstanceObject) : Access := ⟨o, 0, o.words⟩

end InstanceObject

/-- The windows that the words of an access are seen through, one for each word; no access, no
windows. -/
def windowsOf : Option Access → List Nat
  | none => []
  | some a => a.object.windows a.offset a.words

/-- Apart from what lies in memory, a controller has done nothing but to see words through windows. -/
structure Sees (i : Nat) (bases : List Nat) (m m' : Machine Device) : Prop where
  length : m'.controllers.length = m.controllers.length
  phase : (m'.controller i).phase = (m.controller i).phase
  tally : m'.tally i = (m.tally i).sees bases

namespace Sees

theorem of_store (hstore : m'.store = m.store) : Sees i [] m m' := by
  have hlength := congrArg (·.controllers.length) hstore
  simp only [Machine.store, List.length_map] at hlength
  exact ⟨hlength, congrArg (·.phase) (Machine.controller_of_store hstore i),
    Machine.tally_of_store hstore i⟩

theorem trans (h : Sees i bases m m₁) (h' : Sees i others m₁ m') :
    Sees i (bases ++ others) m m' := by
  refine ⟨h'.length.trans h.length, h'.phase.trans h.phase, ?_⟩
  rw [h'.tally, h.tally, Tally.sees_append]

end Sees

/-! ## What can be seen -/

/-- The device finds every address somewhere, or finds that there is nothing. -/
def Simulator.Device.Resolving (d : Device) : Prop := ∀ address, ∃ place, d.resolve address = .ok place

/-- An object that is seen through the window, in a machine where nothing comes in between. -/
structure Visible (o : InstanceObject) (m : Machine Device) : Prop where
  quiet : Quiet m
  resolving : m.hardware.Resolving
  strategy : o.strategy ≠ .heap
  owner : o.owner < m.controllers.length
  limit : o.offset + o.size < addressLimit

theorem Visible.of_books (h : Visible o m) (hquiet : Quiet m') (hbooks : m'.books = m.books) :
    Visible o m' := by
  refine ⟨hquiet, ?_, h.strategy, Machine.length_of_books hbooks ▸ h.owner, h.limit⟩
  intro address
  rw [Device.resolve_of_books (congrArg (·.hardware) hbooks)]
  exact h.resolving address

namespace Accounts

/-- What is mapped is a page of a live object, so no address behind it overflows. -/
theorem resolving (h : Accounts roster live m) : m.hardware.Resolving := by
  intro address
  unfold Device.resolve
  split
  · exact ⟨_, rfl⟩
  · split
    · cases ht : m.hardware.translation with
      | none => exact ⟨none, rfl⟩
      | some t =>
        dsimp only
        rw [Simulator.Translation.translate]
        cases hslot : t.table[Simulator.Translation.pageOf (stripResolveBit address)]? with
        | none => exact ⟨none, rfl⟩
        | some page =>
          -- the page is lent, so it ends below the address limit
          obtain ⟨o, ho, range, pages, k, hresource, hpage, -⟩ :=
            (InstanceObject.mem_slots_flatMap_items live).mp
              (((h.holding.translation t ht).lookup _ _).mp hslot)
          dsimp only
          rw [checkedAdd_of_lt (h.page_limit_lt ho hresource hpage _)]
          exact ⟨_, rfl⟩
    · exact ⟨_, rfl⟩

/-- The device addresses of a live object end below the address limit. -/
theorem limit_lt (h : Accounts roster live m) (ho : o ∈ live) : o.offset + o.size < addressLimit := by
  cases hresource : o.resource with
  | heap range => exact (h.placed_on_heap ho hresource).limit
  | iommu range pages => exact (h.placed_behind_iommu ho hresource).limit
  | dma buffer =>
    have hstrategy := InstanceObject.strategy_ne_heap_of_dma hresource
    have hblock := InstanceObject.range_mem_blocks hresource
    have hlimit := h.holding.memory.space.limit_lt (InstanceObject.block_lent ho hstrategy hblock)
    have hfits := (h.made o ho).1.fits
    rw [hresource] at hfits
    simpa only [hfits, Buffer.range, AddressRange.limit] using hlimit

/-- **Every live object is visible** on a device without dedicated memory, wherever its system memory
lies. -/
theorem visible (h : Accounts roster live m) (hquiet : Quiet m) (hheap : m.strategy ≠ .heap)
    (ho : o ∈ live) : Visible o m := by
  obtain ⟨-, howner, hstrategy⟩ := h.made o ho
  exact ⟨hquiet, h.resolving, hstrategy.trans_ne hheap, h.length_controllers ▸ howner, h.limit_lt ho⟩

end Accounts

/-! ## One word -/

/-- A selection writes the register unless the window is trusted to be selected. -/
theorem Simulator.Device.windowWrites_selecting (trusted : Option Nat) (base : Nat) (d : Device) :
    (d.selecting trusted base).windowWrites =
      d.windowWrites + if trusted = some base then 0 else 1 := by
  by_cases h : trusted = some base
  · rw [selecting_of_eq h, if_pos h, Nat.add_zero]
  · rw [selecting_of_ne h, if_neg h]

namespace Simulator.Device.Resolving

variable {d : Device}

theorem selecting (h : d.Resolving) (trusted : Option Nat) (base : Nat) :
    (d.selecting trusted base).Resolving := by
  obtain ⟨window, windowWrites, hselecting⟩ := d.exists_selecting trusted base
  rw [hselecting]
  exact h

/-- Every register of the aperture can be read. -/
theorem readRegister (h : d.Resolving) (address : Nat) : ∃ value,
    (Platform.readRegister (apertureRegister + windowOffset address) : EStateM Fault Device UInt32) d =
      .ok value d := by
  obtain ⟨place, hplace⟩ := h (d.selectedBase + windowOffset address)
  obtain ⟨value, hread⟩ : ∃ value, d.read (d.selectedBase + windowOffset address) = .ok value := by
    cases place with
    | none => exact ⟨busError, by rw [Device.read, hplace]; rfl⟩
    | some place => exact ⟨_, Device.read_of_resolve hplace⟩
  have hregister := Device.readRegister_of_shown (d.shownAddress?_aperture address)
  refine ⟨value, ?_⟩
  simp only [Platform.readRegister, hregister, hread]

/-- Every register of the aperture can be written, which does not select a window. -/
theorem writeRegister (h : d.Resolving) (address : Nat) (value : UInt32) : ∃ d',
    (Platform.writeRegister (apertureRegister + windowOffset address) value :
      EStateM Fault Device Unit) d = .ok () d' ∧ d'.windowWrites = d.windowWrites := by
  obtain ⟨place, hplace⟩ := h (d.selectedBase + windowOffset address)
  have hregister : (Platform.writeRegister (apertureRegister + windowOffset address) value :
      EStateM Fault Device Unit) d = Device.write (d.selectedBase + windowOffset address) value d :=
    Device.writeRegister_of_shown (d.shownAddress?_aperture address) value
  rw [hregister]
  cases place with
  | none => exact ⟨d, by rw [Device.write, hplace], rfl⟩
  | some place =>
    refine ⟨_, Device.write_of_resolve hplace value, ?_⟩
    unfold Device.writeAt
    dsimp only
    split <;> rfl

end Simulator.Device.Resolving

/-- **An access through the window sees one word**, if the device answers and does not select a window
itself. -/
theorem Quiet.sees_throughWindow (h : Quiet m) (hi : i < m.controllers.length) {address : Nat}
    {access : Nat → Action Device α} {act : EStateM Fault Device α} (haccess : ∀ m, Quiet m →
      access (apertureRegister + windowOffset address) m = Action.onHardware act m)
    {answer : α} {d : Device}
    (hact : act (m.hardware.selecting (m.trusted i) (windowBase address)) = .ok answer d)
    (hwrites : d.windowWrites =
      (m.hardware.selecting (m.trusted i) (windowBase address)).windowWrites) :
    ∃ m', Action.throughWindow i address access m = .ok answer m' ∧
      Sees i [windowBase address] m m' := by
  obtain ⟨journal, hrun⟩ := h.throughWindow_of_ok haccess hact
  have hcontroller : (m.showing i (windowBase address)).controller i = _ :=
    (Machine.controller_mapController hi i _).trans (if_pos rfl)
  refine ⟨_, hrun, List.length_modify _ _ _, congrArg (·.phase) hcontroller, ?_⟩
  have hlast : (m.showing i (windowBase address)).trusted i = some (windowBase address) :=
    congrArg (·.window.cached) hcontroller
  have htally : (m.tally i).sees [windowBase address] = (m.tally i).see (windowBase address) := rfl
  rw [htally, Tally.see_eq, Machine.tally]
  exact congr (congrArg Tally.mk hlast) (hwrites.trans (Device.windowWrites_selecting _ _ _))

/-- Apart from what lies in memory, an action answers and has done nothing but to see words of an
object through windows. -/
def Looks (o : InstanceObject) (bases : List Nat) (act : Action Device α) (m : Machine Device) :
    Prop :=
  ∃ answer m', act m = .ok answer m' ∧ Visible o m' ∧ Sees o.owner bases m m'

theorem Looks.bind {act : Action Device α} {next : α → Action Device β} (h : Looks o bases act m)
    (hnext : ∀ answer m', Visible o m' → Looks o others (next answer) m') :
    Looks o (bases ++ others) (act >>= next) m := by
  obtain ⟨answer, m₁, hact, hvisible, hsees⟩ := h
  obtain ⟨reply, m', hrest, hvisible', hsees'⟩ := hnext answer m₁ hvisible
  exact ⟨reply, m', (run_bind_of_ok hact next).trans hrest, hvisible', hsees.trans hsees'⟩

namespace Visible

theorem looks_pure (h : Visible o m) (a : α) : Looks o [] (pure a) m :=
  ⟨a, m, rfl, h, .of_store rfl⟩

theorem readWord (h : Visible o m) (hoffset : offset < o.size) :
    Looks o [o.window offset] (Action.readWord o offset) m := by
  have hlimit := h.limit
  have hsum := checkedAdd_of_lt (a := o.offset) (b := offset) (by omega)
  obtain ⟨value, hread⟩ :=
    (h.resolving.selecting (m.trusted o.owner) (o.window offset)).readRegister (o.offset + offset)
  obtain ⟨m', hwindowed, hsees⟩ : ∃ m', Action.readWindowed o.owner (o.offset + offset) m =
      .ok value m' ∧ Sees o.owner [o.window offset] m m' :=
    h.quiet.sees_throughWindow h.owner (fun m hm => hm.readRegister _) hread rfl
  have hact : Action.readWord o offset m = .ok value m' := by
    rw [Action.readWord, run_bind_of_ok (run_lift_of_ok hsum m)]
    cases hcase : o.strategy with
    | heap => exact absurd hcase h.strategy
    | iommu => exact hwindowed
    | dma => exact hwindowed
  exact ⟨value, m', hact, h.of_books ((Quiet.keeps_readWord o offset).of_ok h.quiet hact)
    ((Action.books_readWord o offset).of_ok rfl hact), hsees⟩

theorem writeWord (h : Visible o m) (hoffset : offset < o.size) (value : UInt32) :
    Looks o [o.window offset] (Action.writeWord o offset value) m := by
  have hlimit := h.limit
  have hsum := checkedAdd_of_lt (a := o.offset) (b := offset) (by omega)
  obtain ⟨d, hwrite, hwrites⟩ := (h.resolving.selecting (m.trusted o.owner)
    (o.window offset)).writeRegister (o.offset + offset) value
  obtain ⟨m', hwindowed, hsees⟩ : ∃ m', Action.writeWindowed o.owner (o.offset + offset) value m =
      .ok () m' ∧ Sees o.owner [o.window offset] m m' :=
    h.quiet.sees_throughWindow h.owner (fun m hm => hm.writeRegister _ value) hwrite hwrites
  have hact : Action.writeWord o offset value m = .ok () m' := by
    rw [Action.writeWord, run_bind_of_ok (run_lift_of_ok hsum m)]
    cases hcase : o.strategy with
    | heap => exact absurd hcase h.strategy
    | iommu => exact hwindowed
    | dma => exact hwindowed
  exact ⟨(), m', hact, h.of_books ((Quiet.keeps_writeWord o offset value).of_ok h.quiet hact)
    ((Action.books_writeWord o offset value).of_ok rfl hact), hsees⟩

/-! ## Consecutive words -/

/-- The offset behind a word of an object is below the address limit. -/
theorem checkedAdd_wordSize (h : Visible o m) (hoffset : offset + wordSize ≤ o.size) :
    checkedAdd offset wordSize = .ok (offset + wordSize) := by
  have hlimit := h.limit
  exact checkedAdd_of_lt (by omega)

theorem readFrom (h : Visible o m) (hstop : offset + words * wordSize ≤ o.size)
    (before : List UInt32) :
    Looks o (o.windows offset words) (Action.readFrom o words offset before) m := by
  induction words generalizing offset m before with
  | zero => exact h.looks_pure _
  | succ words ih =>
    rw [Nat.succ_mul] at hstop
    have hword : 0 < wordSize := by decide
    apply (h.readWord (by omega)).bind
    intro value m₁ h₁
    have hnext : offset + wordSize ≤ o.size := by omega
    rw [h₁.checkedAdd_wordSize hnext]
    exact ih h₁ (by omega) _

theorem writeFrom (h : Visible o m) {values : List UInt32}
    (hstop : offset + values.length * wordSize ≤ o.size) :
    Looks o (o.windows offset values.length) (Action.writeFrom o values offset) m := by
  induction values generalizing offset m with
  | nil => exact h.looks_pure _
  | cons value rest ih =>
    rw [List.length_cons, Nat.succ_mul] at hstop
    have hword : 0 < wordSize := by decide
    apply (h.writeWord (by omega) value).bind
    intro _ m₁ h₁
    have hnext : offset + wordSize ≤ o.size := by omega
    rw [h₁.checkedAdd_wordSize hnext]
    exact ih h₁ (by omega)

theorem fillFrom (h : Visible o m) (hstop : offset + words * wordSize ≤ o.size) (value : UInt32) :
    Looks o (o.windows offset words) (Action.fillFrom o value words offset) m := by
  induction words generalizing offset m with
  | zero => exact h.looks_pure _
  | succ words ih =>
    rw [Nat.succ_mul] at hstop
    have hword : 0 < wordSize := by decide
    apply (h.writeWord (by omega) value).bind
    intro _ m₁ h₁
    exact ih h₁ (by omega)

theorem fill (h : Visible o m) (value : UInt32) :
    Looks o (windowsOf o.wholly) (Action.fill o value) m :=
  h.fillFrom o.fits_all.2 value

/-! ## Accesses -/

/-- An access that is checked sees its words if they lie within the object, and else none. -/
theorem leaves_checked (h : Visible o m) {next : Unit → Action Device α}
    (hnext : o.Fits offset words → Looks o (o.windows offset words) (next ()) m) :
    Sees o.owner (windowsOf (o.access? offset words)) m
      (leaves (liftM (o.checkAccess offset words) >>= next) m) := by
  by_cases hfits : o.Fits offset words
  · have hlimit := h.limit
    have hcheck := InstanceObject.checkAccess_of_fits (by omega) hfits
    obtain ⟨answer, m', hact, -, hsees⟩ := hnext hfits
    rw [InstanceObject.access?, if_pos hfits, leaves_bind_of_ok (run_lift_of_ok hcheck m),
      leaves_of_ok hact]
    exact hsees
  · rw [InstanceObject.access?, if_neg hfits, InstanceObject.leaves_of_not_fits hfits]
    exact .of_store rfl

theorem leaves_read32 (h : Visible o m) (offset : Nat) : Sees o.owner
    (windowsOf (o.access? offset 1)) m (leaves (Action.read32 o offset) m) := by
  refine h.leaves_checked fun hfits => h.readWord ?_
  have hword : 0 < 1 * wordSize := by decide
  exact Nat.lt_of_lt_of_le (Nat.lt_add_of_pos_right hword) hfits.2

theorem leaves_write32 (h : Visible o m) (offset : Nat) (value : UInt32) : Sees o.owner
    (windowsOf (o.access? offset 1)) m (leaves (Action.write32 o offset value) m) := by
  refine h.leaves_checked fun hfits => h.writeWord ?_ value
  have hword : 0 < 1 * wordSize := by decide
  exact Nat.lt_of_lt_of_le (Nat.lt_add_of_pos_right hword) hfits.2

theorem leaves_readWords (h : Visible o m) (offset words : Nat) : Sees o.owner
    (windowsOf (o.access? offset words)) m (leaves (Action.readWords o offset words) m) :=
  h.leaves_checked fun hfits => h.readFrom hfits.2 []

theorem leaves_writeWords (h : Visible o m) (offset : Nat) (values : List UInt32) : Sees o.owner
    (windowsOf (o.access? offset values.length)) m (leaves (Action.writeWords o offset values) m) :=
  h.leaves_checked fun hfits => h.writeFrom hfits.2

theorem leaves_fill (h : Visible o m) (value : UInt32) : Sees o.owner
    (windowsOf o.wholly) m (leaves (Action.fill o value) m) := by
  obtain ⟨_, m', hact, -, hsees⟩ := h.fill value
  rwa [leaves_of_ok hact]

/-- A scan reads the whole object. -/
theorem leaves_scan (h : Visible o m) : Sees o.owner
    (windowsOf o.wholly) m (leaves (Action.readWords o 0 o.words) m) := by
  have hall : o.access? 0 o.words = some o.wholly := if_pos o.fits_all
  rw [← hall]
  exact h.leaves_readWords 0 o.words

end Visible

/-! ## Requests -/

namespace Accounts

/-- A request comes to the same whether the object is to be zeroed or not, and sees the words that it
zeroes. -/
theorem make_sees (h : Accounts roster live m) (hquiet : Quiet m) (hheap : m.strategy ≠ .heap)
    (hi : i < roster.length) (size align : Nat) :
    ∃ answer, ∀ zeroed, ∃ m', Action.make i size align zeroed m = .ok answer m' ∧
      Sees i (windowsOf (if zeroed then answer.toOption.map (·.wholly) else none)) m m' := by
  unfold Action.make
  rcases h.place hi size align with ⟨cause, m₁, hcause, -, -⟩ | ⟨o, m₁, hobject, -, h₁, rfl⟩
  · have hstore := (Action.store_place i size align).of_ok rfl hcause
    refine ⟨.error cause, fun zeroed => ⟨m₁, run_bind_of_ok hcause _, ?_⟩⟩
    cases zeroed <;> exact .of_store hstore
  · have hstore := (Action.store_place o.owner size align).of_ok rfl hobject
    -- the object is placed before it is zeroed, and zeroing it does not fail
    refine ⟨.ok o, fun zeroed => ?_⟩
    rw [run_bind_of_ok hobject]
    cases zeroed with
    | false => exact ⟨m₁, rfl, .of_store hstore⟩
    | true =>
      have hheap₁ : m₁.strategy ≠ .heap := Machine.strategy_of_store hstore ▸ hheap
      obtain ⟨_, m₂, hfill, -, hsees⟩ :=
        (h₁.visible (hquiet.of_store hstore) hheap₁ List.mem_cons_self).fill 0
      refine ⟨m₂, run_bind_of_ok (Action.run_orUndo_of_ok hfill _) _, ?_⟩
      exact (Sees.of_store hstore).trans hsees

theorem allocate_sees (h : Accounts roster live m) (hquiet : Quiet m) (hheap : m.strategy ≠ .heap)
    (hi : i < roster.length) (size align : Nat) :
    ∃ answer, ∀ zeroed, ∃ m', Action.allocate i size align zeroed m = .ok answer m' ∧
      Sees i (windowsOf (if zeroed then answer.toOption.map (·.wholly) else none)) m m' := by
  have hmake := h.make_sees hquiet hheap hi size align
  unfold Action.allocate
  simp only [run_get_bind]
  cases (m.controller i).phase with
  | suspended =>
    refine ⟨_, fun zeroed => ⟨m, rfl, ?_⟩⟩
    cases zeroed <;> exact .of_store rfl
  | constructed => exact hmake
  | initialized => exact hmake

end Accounts
end InstanceMemory
