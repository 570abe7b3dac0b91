import InstanceMemory.Proofs.Machine.Recycling
import InstanceMemory.Proofs.Machine.Windowed

/-!
# Trust in a shared window

There is one window register, but each controller remembers for itself which window it selected last.
A controller is `Right` about a window if it does not trust the register with it in vain, which it may
do when another controller has moved the window since.

An access asks what its controller trusts once, for its first word; from there on the register holds
what the access itself has selected. So an access whose controller is right about the first window
does what it would do if the controller trusted nothing else (`Machine.trustingOnly`), and in such a
machine the controller is right about every window. All that is known of accesses in settled machines
carries over, but for what other controllers may still trust in vain (`Touched`).

An access whose controller is wrong about the window goes astray: it reads and writes at the same
offset in the window that the register selects (`Quiet.read32_astray`, `Quiet.write32_astray`).
-/

set_option autoImplicit false

namespace InstanceMemory

open Simulator (Device)

variable {α β : Type} {i base offset words address : Nat} {m m' m₁ : Machine Device}
  {o : InstanceObject} {value : UInt32}

/-! ## Being right about a window -/

namespace Machine

/-- A controller does not trust the window register with a base in vain. -/
def Right (m : Machine Device) (i base : Nat) : Prop :=
  m.trusted i = some base → m.hardware.window = windowSelector base

instance : Decidable (m.Right i base) := inferInstanceAs (Decidable (_ → _))

/-- The machine in which a controller trusts the window register with one base at most. -/
def trustingOnly (m : Machine Device) (i base : Nat) : Machine Device :=
  m.mapController i fun c => { c with window.cached := c.window.cached.filter (· == base) }

theorem trusted_trustingOnly (m : Machine Device) (i base : Nat) :
    (m.trustingOnly i base).trusted i = (m.trusted i).filter (· == base) := by
  by_cases hi : i < m.controllers.length
  · have hc : (m.trustingOnly i base).controllers[i]? = _ := getElem?_mapController m i i _
    rw [getElem?_of_lt hi, Option.map_some, if_pos rfl] at hc
    rw [trusted_of_getElem? hc, trusted]
  · have hlength : (m.trustingOnly i base).controllers.length = m.controllers.length :=
      List.length_modify _ _ _
    rw [trusted_of_length_le (Nat.le_of_not_lt hi),
      trusted_of_length_le (hlength ▸ Nat.le_of_not_lt hi), Option.filter_none]

/-- What is trusted of other windows does not matter to the base. -/
theorem trusted_trustingOnly_eq_some : (m.trustingOnly i base).trusted i = some base ↔
    m.trusted i = some base := by
  simp only [trusted_trustingOnly, Option.filter_eq_some_iff, beq_self_eq_true, and_true]

theorem books_trustingOnly (m : Machine Device) (i base : Nat) :
    (m.trustingOnly i base).books = m.books := by
  apply books_mapController
  intro c _
  rfl

theorem showing_trustingOnly (m : Machine Device) (i base : Nat) :
    (m.trustingOnly i base).showing i base = m.showing i base := by
  have hdevice : m.hardware.selecting ((m.trustingOnly i base).trusted i) base =
      m.hardware.selecting (m.trusted i) base := by
    by_cases h : m.trusted i = some base
    · rw [Device.selecting_of_eq h, Device.selecting_of_eq (trusted_trustingOnly_eq_some.mpr h)]
    · rw [Device.selecting_of_ne h,
        Device.selecting_of_ne fun h' => h (trusted_trustingOnly_eq_some.mp h')]
  have hcontrollers : ((m.trustingOnly i base).mapController i fun c =>
      { c with window := ⟨some base, false⟩ }) =
        m.mapController i fun c => { c with window := ⟨some base, false⟩ } :=
    mapController_mapController m i _ _
  rw [showing, hcontrollers]
  exact congrArg (fun d => { m.mapController i _ with hardware := d }) hdevice

theorem Right.of_store (h : m.Right i base) (hstore : m'.store = m.store) : m'.Right i base := by
  have hwindow : m'.hardware.window = m.hardware.window := congrArg (·.hardware.window) hstore
  rw [Right, trusted_of_store hstore, hwindow]
  exact h

end Machine

namespace Quiet

/-- A controller that is right about a window and trusts no other is right about all. -/
theorem settled_trustingOnly (h : Quiet m) (hright : m.Right i base) :
    Settled i (m.trustingOnly i base) := by
  refine ⟨h.silent, h.uninterrupted, ?_⟩
  intro c other hc hcached
  have htrusted := Machine.trusted_of_getElem? hc
  rw [Machine.trusted_trustingOnly, hcached, Option.filter_eq_some_iff, beq_iff_eq] at htrusted
  obtain ⟨htrusted, rfl⟩ := htrusted
  exact hright htrusted

/-- **An access asks about no other window.** -/
theorem throughWindow_trustingOnly (h : Quiet m) (i address : Nat) {access : Nat → Action Device α}
    {act : EStateM Fault Device α} (haccess : ∀ m, Quiet m →
      access (apertureRegister + windowOffset address) m = Action.onHardware act m) :
    Action.throughWindow i address access (m.trustingOnly i (windowBase address)) =
      Action.throughWindow i address access m := by
  have h₁ : Quiet (m.trustingOnly i (windowBase address)) := ⟨h.silent, h.uninterrupted⟩
  rw [h₁.throughWindow i address haccess, h.throughWindow i address haccess,
    Machine.showing_trustingOnly]
  simp only [ne_eq, Machine.trusted_trustingOnly_eq_some]

end Quiet

/-! ## Accesses that ask about one window -/

namespace Quiet

theorem readWord_trustingOnly (h : Quiet m) (hstrategy : o.strategy ≠ .heap)
    (hlimit : o.offset + offset < addressLimit) :
    Action.readWord o offset (m.trustingOnly o.owner (o.window offset)) =
      Action.readWord o offset m := by
  have hsum := checkedAdd_of_lt hlimit
  have hwindowed : Action.readWindowed o.owner (o.offset + offset)
      (m.trustingOnly o.owner (o.window offset)) =
        Action.readWindowed o.owner (o.offset + offset) m :=
    h.throughWindow_trustingOnly _ _ fun m hm => hm.readRegister _
  unfold Action.readWord
  rw [run_bind_of_ok (run_lift_of_ok hsum _), run_bind_of_ok (run_lift_of_ok hsum _)]
  cases hcase : o.strategy with
  | heap => exact absurd hcase hstrategy
  | iommu => exact hwindowed
  | dma => exact hwindowed

theorem writeWord_trustingOnly (h : Quiet m) (hstrategy : o.strategy ≠ .heap)
    (hlimit : o.offset + offset < addressLimit) (value : UInt32) :
    Action.writeWord o offset value (m.trustingOnly o.owner (o.window offset)) =
      Action.writeWord o offset value m := by
  have hsum := checkedAdd_of_lt hlimit
  have hwindowed : Action.writeWindowed o.owner (o.offset + offset) value
      (m.trustingOnly o.owner (o.window offset)) =
        Action.writeWindowed o.owner (o.offset + offset) value m :=
    h.throughWindow_trustingOnly _ _ fun m hm => hm.writeRegister _ value
  unfold Action.writeWord
  rw [run_bind_of_ok (run_lift_of_ok hsum _), run_bind_of_ok (run_lift_of_ok hsum _)]
  cases hcase : o.strategy with
  | heap => exact absurd hcase hstrategy
  | iommu => exact hwindowed
  | dma => exact hwindowed

/-- A first word that asks about no other window makes the whole access ask about no other. -/
theorem writeFrom_trustingOnly (h : Quiet m) (hstrategy : o.strategy ≠ .heap)
    (hlimit : o.offset + offset < addressLimit) (rest : List UInt32) :
    Action.writeFrom o (value :: rest) offset (m.trustingOnly o.owner (o.window offset)) =
      Action.writeFrom o (value :: rest) offset m :=
  run_bind_congr (h.writeWord_trustingOnly hstrategy hlimit value) fun _ _ _ => rfl

theorem fill_trustingOnly (h : Quiet m) (hstrategy : o.strategy ≠ .heap)
    (hlimit : o.offset < addressLimit) (hwords : 0 < o.words) :
    Action.fill o value (m.trustingOnly o.owner (o.window 0)) = Action.fill o value m := by
  obtain ⟨more, hmore⟩ := Nat.exists_eq_add_one.mpr hwords
  rw [Action.fill, hmore]
  exact run_bind_congr (h.writeWord_trustingOnly hstrategy hlimit value) fun _ _ _ => rfl

end Quiet

/-! ## What accesses leave -/

/-- **No read changes what objects contain**, whatever its controller trusts. -/
theorem Quiet.contents_readWords (h : Quiet m) (o o' : InstanceObject) (offset words : Nat) :
    (leaves (Action.readWords o offset words) m).contents o' = m.contents o' := by
  have hkeeps : Keeps (QuietWith fun d => ∀ place, d.readAt place = m.hardware.readAt place)
      (Action.readWords o offset words) := by
    refine Action.keeps_readWords (QuietWith.keeps_readWord ?_ o) offset words
    intro d window windowWrites hd place
    rw [Device.readAt_setWindow, hd]
  have hleft := (hkeeps m ⟨h, fun _ => rfl⟩).device
  exact Machine.contents_congr fun offset _ => hleft _

theorem Quiet.contents_read32 (h : Quiet m) (o o' : InstanceObject) (offset : Nat) :
    (leaves (Action.read32 o offset) m).contents o' = m.contents o' := by
  have hkeeps : Keeps (QuietWith fun d => ∀ place, d.readAt place = m.hardware.readAt place)
      (Action.read32 o offset) := by
    refine (keeps_lift _).bind fun _ => QuietWith.keeps_readWord ?_ o offset
    intro d window windowWrites hd place
    rw [Device.readAt_setWindow, hd]
  have hleft := (hkeeps m ⟨h, fun _ => rfl⟩).device
  exact Machine.contents_congr fun offset _ => hleft _

/-- An access to an object has left it with some words, and has left other objects alone. -/
structure Touched (o : InstanceObject) (words : List UInt32) (m m' : Machine Device) : Prop where
  quiet : Quiet m'
  books : m'.books = m.books
  contents : m'.contents o = words
  others : ∀ o', o.Apart o' → m'.contents o' = m.contents o'

/-- An access to some words of an object, if it is aligned and lies within it. -/
def InstanceObject.Touches (o : InstanceObject) (offset words : Nat) : Prop :=
  o.Fits offset words ∧ 0 < words

namespace Quiet

variable {act : Action Device α} {f : List UInt32 → List UInt32}

/-- An access that asks about one window at most does what it does in settled machines, if its
controller is right about that window. -/
theorem touched (h : Quiet m) (ho : Placed m o) (busy : Prop)
    (hidle : ¬ busy → ∀ m, leaves act m = m)
    (hsame : busy → act (m.trustingOnly o.owner base) = act m)
    (hright : busy → m.Right o.owner base)
    (hact : ∀ m, Placed m o → Settled o.owner m → Accessed o (f (m.contents o)) m (leaves act m)) :
    Touched o (f (m.contents o)) m (leaves act m) := by
  by_cases hbusy : busy
  · have hbooks := m.books_trustingOnly o.owner base
    have haccessed := hact _ (ho.of_books hbooks) (h.settled_trustingOnly (hright hbusy))
    rw [leaves, hsame hbusy, ← leaves] at haccessed
    exact ⟨haccessed.settled.quiet, haccessed.books.trans hbooks, haccessed.contents,
      haccessed.others⟩
  · -- about a window that is not trusted the controller is right
    obtain ⟨other, hother⟩ : ∃ other, m.trusted o.owner ≠ some other := by
      cases m.trusted o.owner with
      | none => exact ⟨0, (Option.some_ne_none 0).symm⟩
      | some base => exact ⟨base + 1, fun heq => Nat.succ_ne_self base (Option.some.inj heq).symm⟩
    have hbooks := m.books_trustingOnly o.owner other
    have haccessed := hact _ (ho.of_books hbooks)
      (h.settled_trustingOnly fun htrusted => absurd htrusted hother)
    have hcontents := haccessed.contents
    rw [hidle hbusy] at hcontents ⊢
    exact ⟨h, rfl, hcontents, fun _ _ => rfl⟩

/-- An access that is checked first, and then asks about the window of its first word. -/
theorem touched_checked (h : Quiet m) (ho : Placed m o) {next : Unit → Action Device α}
    (hnone : words = 0 → ∀ m, leaves (next ()) m = m)
    (hfirst : 0 < words → o.offset + offset < addressLimit →
      next () (m.trustingOnly o.owner (o.window offset)) = next () m)
    (hright : o.Touches offset words → m.Right o.owner (o.window offset))
    (hact : ∀ m, Placed m o → Settled o.owner m → Accessed o (f (m.contents o)) m
      (leaves (liftM (o.checkAccess offset words) >>= next) m)) :
    Touched o (f (m.contents o)) m (leaves (liftM (o.checkAccess offset words) >>= next) m) := by
  have hlimit := ho.limit
  refine h.touched ho (o.Touches offset words) ?_ ?_ hright hact
  · intro hidle m
    by_cases hfits : o.Fits offset words
    · have hzero : words = 0 := Nat.eq_zero_of_not_pos fun hpos => hidle ⟨hfits, hpos⟩
      have hcheck := InstanceObject.checkAccess_of_fits (by omega) hfits
      rw [leaves_bind_of_ok (run_lift_of_ok hcheck m)]
      exact hnone hzero m
    · exact InstanceObject.leaves_of_not_fits hfits m next
  · rintro ⟨hfits, hpos⟩
    have hcheck := InstanceObject.checkAccess_of_fits (by omega) hfits
    rw [run_bind_of_ok (run_lift_of_ok hcheck _), run_bind_of_ok (run_lift_of_ok hcheck _)]
    obtain ⟨-, hstop⟩ := hfits
    exact hfirst hpos (by omega)

variable (h : Quiet m) (ho : Placed m o) (hstrategy : o.strategy ≠ .heap)

include h ho hstrategy

theorem leaves_write32 (offset : Nat) (value : UInt32)
    (hright : o.Touches offset 1 → m.Right o.owner (o.window offset)) :
    Touched o (overwriteAt (m.contents o) offset [value]) m
      (leaves (Action.write32 o offset value) m) :=
  h.touched_checked ho (f := (overwriteAt · offset [value])) (absurd · Nat.one_ne_zero)
    (fun _ hlimit => h.writeWord_trustingOnly hstrategy hlimit value) hright
    fun _ ho hsettled => hsettled.leaves_write32 ho offset value

theorem leaves_writeWords (offset : Nat) (values : List UInt32)
    (hright : o.Touches offset values.length → m.Right o.owner (o.window offset)) :
    Touched o (overwriteAt (m.contents o) offset values) m
      (leaves (Action.writeWords o offset values) m) := by
  refine h.touched_checked ho (f := (overwriteAt · offset values)) ?_ ?_ hright fun _ ho hsettled =>
    hsettled.leaves_writeWords ho offset values
  · intro hzero m
    rw [List.length_eq_zero_iff.mp hzero]
    rfl
  · intro hpos hlimit
    obtain ⟨value, rest, rfl⟩ := List.exists_cons_of_length_pos hpos
    exact h.writeFrom_trustingOnly hstrategy hlimit rest

theorem leaves_fill (value : UInt32) (hright : o.Touches 0 o.words → m.Right o.owner (o.window 0)) :
    Touched o (List.replicate (m.contents o).length value) m (leaves (Action.fill o value) m) := by
  have hlimit := ho.limit
  refine h.touched ho (f := fun words => List.replicate words.length value) (o.Touches 0 o.words)
    ?_ ?_ hright fun _ ho hsettled => hsettled.leaves_fill ho value
  · intro hidle m
    have hzero : o.words = 0 := Nat.eq_zero_of_not_pos fun hpos => hidle ⟨o.fits_all, hpos⟩
    rw [Action.fill, hzero]
    rfl
  · exact fun hpos => h.fill_trustingOnly hstrategy (by omega) hpos.2

/-! ## Accesses that are answered -/

theorem read32 {k : Nat} (hk : k < o.words) (hright : m.Right o.owner (o.window (k * wordSize))) :
    ∃ value m', Action.read32 o (k * wordSize) m = .ok value m' ∧
      (m.contents o)[k]? = some value := by
  have hlimit := ho.limit
  have hoffset := InstanceObject.offset_lt hk
  have hbooks := m.books_trustingOnly o.owner (o.window (k * wordSize))
  obtain ⟨value, m', hread, hvalue, -⟩ :=
    (h.settled_trustingOnly hright).read32 (ho.of_books hbooks) hk
  refine ⟨value, m', ?_, hvalue⟩
  have hcheck : o.checkAccess (k * wordSize) 1 = .ok () := ho.checkAccess hk
  rw [Action.read32, run_bind_of_ok (run_lift_of_ok hcheck _)] at hread ⊢
  rwa [h.readWord_trustingOnly hstrategy (by omega)] at hread

theorem write32 {k : Nat} (hk : k < o.words) (hright : m.Right o.owner (o.window (k * wordSize)))
    (value : UInt32) : ∃ m', Action.write32 o (k * wordSize) value m = .ok () m' ∧
      ∀ place, m'.hardware.readAt place =
        if place = o.place (k * wordSize) then value else m.hardware.readAt place := by
  have hlimit := ho.limit
  have hoffset := InstanceObject.offset_lt hk
  have hbooks := m.books_trustingOnly o.owner (o.window (k * wordSize))
  obtain ⟨m', hwrite, -, hplaces⟩ := (h.settled_trustingOnly hright).writeWord (ho.of_books hbooks)
    hoffset (Nat.dvd_mul_left wordSize k) value
  refine ⟨m', ?_, hplaces⟩
  have hcheck : o.checkAccess (k * wordSize) 1 = .ok () := ho.checkAccess hk
  rw [Action.write32, run_bind_of_ok (run_lift_of_ok hcheck _)]
  rwa [h.writeWord_trustingOnly hstrategy (by omega)] at hwrite

theorem fill (value : UInt32) (hright : o.Touches 0 o.words → m.Right o.owner (o.window 0)) :
    ∃ m', Action.fill o value m = .ok () m' ∧ Touched o (List.replicate o.words value) m m' := by
  have htouched := h.leaves_fill ho hstrategy value hright
  rw [Machine.length_contents] at htouched
  suffices hanswered : ∃ m', Action.fill o value m = .ok () m' by
    obtain ⟨m', hfill⟩ := hanswered
    exact ⟨m', hfill, leaves_of_ok hfill ▸ htouched⟩
  rcases Nat.eq_zero_or_pos o.words with hzero | hpos
  · exact ⟨m, by rw [Action.fill, hzero]; rfl⟩
  · have hlimit := ho.limit
    have hbooks := m.books_trustingOnly o.owner (o.window 0)
    obtain ⟨m', hfill, -⟩ :=
      (h.settled_trustingOnly (hright ⟨o.fits_all, hpos⟩)).fill (ho.of_books hbooks) value
    rw [h.fill_trustingOnly hstrategy (by omega) hpos] at hfill
    exact ⟨m', hfill⟩

end Quiet

/-! ## Accesses that go astray -/

namespace Quiet

variable (h : Quiet m) (ho : Placed m o) (hstrategy : o.strategy ≠ .heap) {k : Nat} (hk : k < o.words)
  (hwrong : ¬ m.Right o.owner (o.window (k * wordSize)))

include h ho hstrategy hk hwrong

/-- **A controller that is wrong about a window reads in the one that the register selects.** -/
theorem read32_astray (hread : m.hardware.read
      (m.hardware.selectedBase + windowOffset (o.offset + k * wordSize)) = .ok value) :
    ∃ m', Action.read32 o (k * wordSize) m = .ok value m' := by
  have hlimit := ho.limit
  have hoffset := InstanceObject.offset_lt hk
  have hcheck : o.checkAccess (k * wordSize) 1 = .ok () := ho.checkAccess hk
  have hsum := checkedAdd_of_lt (a := o.offset) (b := k * wordSize) (by omega)
  have hselecting : m.hardware.selecting (m.trusted o.owner) (windowBase (o.offset + k * wordSize)) =
      m.hardware := Device.selecting_of_eq (Classical.not_imp.mp hwrong).1 m.hardware
  have hplatform : (Platform.readRegister (apertureRegister + windowOffset (o.offset + k * wordSize)) :
      EStateM Fault Device UInt32) (m.hardware.selecting (m.trusted o.owner)
        (windowBase (o.offset + k * wordSize))) = .ok value m.hardware := by
    have hregister := Device.readRegister_of_shown
      (m.hardware.shownAddress?_aperture (o.offset + k * wordSize))
    rw [hread] at hregister
    simp only [hselecting, Platform.readRegister, hregister]
  obtain ⟨journal, hwindowed⟩ : ∃ journal, Action.readWindowed o.owner (o.offset + k * wordSize) m =
      .ok value { m.showing o.owner _ with hardware := m.hardware, journal } :=
    h.throughWindow_of_ok (fun m hm => hm.readRegister _) hplatform
  rw [Action.read32, run_bind_of_ok (run_lift_of_ok hcheck m), Action.readWord,
    run_bind_of_ok (run_lift_of_ok hsum m)]
  cases hcase : o.strategy with
  | heap => exact absurd hcase hstrategy
  | iommu => exact ⟨_, hwindowed⟩
  | dma => exact ⟨_, hwindowed⟩

/-- **And so it writes there.** -/
theorem write32_astray {d : Device} (hwrite : Device.write
      (m.hardware.selectedBase + windowOffset (o.offset + k * wordSize)) value m.hardware = .ok () d) :
    ∃ m', Action.write32 o (k * wordSize) value m = .ok () m' ∧ m'.hardware = d := by
  have hlimit := ho.limit
  have hoffset := InstanceObject.offset_lt hk
  have hcheck : o.checkAccess (k * wordSize) 1 = .ok () := ho.checkAccess hk
  have hsum := checkedAdd_of_lt (a := o.offset) (b := k * wordSize) (by omega)
  have hselecting : m.hardware.selecting (m.trusted o.owner) (windowBase (o.offset + k * wordSize)) =
      m.hardware := Device.selecting_of_eq (Classical.not_imp.mp hwrong).1 m.hardware
  have hplatform : (Platform.writeRegister (apertureRegister + windowOffset (o.offset + k * wordSize))
      value : EStateM Fault Device Unit) (m.hardware.selecting (m.trusted o.owner)
        (windowBase (o.offset + k * wordSize))) = .ok () d := by
    rw [hselecting]
    exact (Device.writeRegister_of_shown
      (m.hardware.shownAddress?_aperture (o.offset + k * wordSize)) value).trans hwrite
  obtain ⟨journal, hwindowed⟩ : ∃ journal, Action.writeWindowed o.owner (o.offset + k * wordSize) value
      m = .ok () { m.showing o.owner _ with hardware := d, journal } :=
    h.throughWindow_of_ok (fun m hm => hm.writeRegister _ value) hplatform
  rw [Action.write32, run_bind_of_ok (run_lift_of_ok hcheck m), Action.writeWord,
    run_bind_of_ok (run_lift_of_ok hsum m)]
  cases hcase : o.strategy with
  | heap => exact absurd hcase hstrategy
  | iommu => exact ⟨_, hwindowed, rfl⟩
  | dma => exact ⟨_, hwindowed, rfl⟩

end Quiet

/-! ## Requests -/

namespace Quiet

variable {roster : List (Option FirmwareObjects)} {live : List InstanceObject}

/-- **A new object contains zeros if that was asked for**, and else what lay there before, if its
controller is right about the window it is zeroed through. Other objects contain what they did. -/
theorem make (h : Quiet m) (haccounts : Accounts roster live m) (hlow : Low m)
    (hstrategy : m.strategy ≠ .heap) (hi : i < roster.length) (size align : Nat) (zeroed : Bool)
    (hright : ∀ o m', Action.make i size align false m = .ok (.ok o) m' → zeroed = true →
      o.Touches 0 o.words → m.Right i (o.window 0)) :
    ∃ answer m', Action.make i size align zeroed m = .ok answer m' ∧ Quiet m' ∧
      Made zeroed m answer m' := by
  unfold Action.make at hright ⊢
  rcases haccounts.place hi size align with ⟨cause, m₁, hcause, -, -⟩ | ⟨o, m₁, hobject, -, h₁, rfl⟩
  · have hstore := (Action.store_place i size align).of_ok rfl hcause
    rw [run_bind_of_ok hcause]
    exact ⟨.error cause, m₁, rfl, h.of_store hstore, hstore⟩
  · have hstore := (Action.store_place o.owner size align).of_ok rfl hobject
    have hquiet := h.of_store hstore
    rw [run_bind_of_ok hobject]
    dsimp only
    cases zeroed with
    | true =>
      have hplaced := h₁.placed (hlow.of_store hstore) List.mem_cons_self
      have hmemory : o.strategy ≠ .heap := by
        rw [(h₁.made o List.mem_cons_self).2.2, Machine.strategy_of_store hstore]
        exact hstrategy
      obtain ⟨m₂, hfill, htouched⟩ := hquiet.fill hplaced hmemory 0 fun hbusy =>
        (hright o m₁ (run_bind_of_ok hobject _) rfl hbusy).of_store hstore
      rw [if_pos rfl, run_bind_of_ok (Action.run_orUndo_of_ok hfill _)]
      refine ⟨.ok o, m₂, rfl, htouched.quiet, htouched.contents, ?_⟩
      intro o' hapart
      exact (htouched.others o' hapart).trans (Machine.contents_of_store hstore o')
    | false =>
      exact ⟨.ok o, m₁, rfl, hquiet, Machine.contents_of_store hstore o,
        fun o' _ => Machine.contents_of_store hstore o'⟩

theorem allocate (h : Quiet m) (haccounts : Accounts roster live m) (hlow : Low m)
    (hstrategy : m.strategy ≠ .heap) (hi : i < roster.length) (size align : Nat) (zeroed : Bool)
    (hright : ∀ o m', Action.allocate i size align false m = .ok (.ok o) m' → zeroed = true →
      o.Touches 0 o.words → m.Right i (o.window 0)) :
    ∃ answer m', Action.allocate i size align zeroed m = .ok answer m' ∧ Quiet m' ∧
      Made zeroed m answer m' := by
  unfold Action.allocate at hright ⊢
  simp only [run_get_bind] at hright ⊢
  cases hphase : (m.controller i).phase with
  | suspended => exact ⟨_, m, rfl, h, rfl⟩
  | constructed =>
    simp only [hphase] at hright
    exact h.make haccounts hlow hstrategy hi size align zeroed hright
  | initialized =>
    simp only [hphase] at hright
    exact h.make haccounts hlow hstrategy hi size align zeroed hright

end Quiet
end InstanceMemory
