import InstanceMemory.Proofs.Machine.Places
import InstanceMemory.Proofs.Machine.Window

/-!
# What objects contain

`m.contents o` are the words that lie where an object does. In a settled machine the accesses to a
placed object act on its contents as on an array: a read answers what is there, a write puts its
values there, and neither changes what other objects contain. An access that is not aligned to words
or does not lie within the object faults before it has done anything.
-/

set_option autoImplicit false

namespace InstanceMemory

open Simulator (Device)

/-- The words that lie where an object does. -/
def Machine.contents (m : Machine Device) (o : InstanceObject) : List UInt32 :=
  (List.range o.words).map fun k => m.hardware.readAt (o.place (k * wordSize))

/-- The words with some values put in from a place on. -/
def overwrite (words : List UInt32) (k : Nat) (values : List UInt32) : List UInt32 :=
  words.take k ++ values ++ words.drop (k + values.length)

/-- The words with some values put in from an offset on, if the values lie within them. -/
def overwriteAt (words : List UInt32) (offset : Nat) (values : List UInt32) : List UInt32 :=
  if offset % wordSize = 0 ∧ offset / wordSize + values.length ≤ words.length then
    overwrite words (offset / wordSize) values
  else words

variable {m m' : Machine Device} {o o' : InstanceObject} {k offset : Nat} {value : UInt32}

/-! ## Lists of words -/

theorem overwrite_nil (words : List UInt32) (k : Nat) : overwrite words k [] = words := by
  rw [overwrite, List.append_nil, List.length_nil, Nat.add_zero, List.take_append_drop]

/-- Values are put in one by one. -/
theorem overwrite_cons {words : List UInt32} (hk : k < words.length) (value : UInt32)
    (rest : List UInt32) :
    overwrite words k (value :: rest) = overwrite (words.set k value) (k + 1) rest := by
  have htake : (words.set k value).take (k + 1) = words.take k ++ [value] := by
    rw [List.set_eq_take_append_cons_drop, if_pos hk, List.take_append, List.take_take,
      List.length_take, Nat.min_eq_left (Nat.le_of_lt hk), Nat.min_eq_right (Nat.le_succ k),
      Nat.add_sub_cancel_left, List.take_succ_cons, List.take_zero]
  have hdrop : (words.set k value).drop (k + 1 + rest.length) = words.drop (k + 1 + rest.length) :=
    List.drop_set_of_lt (by omega)
  rw [overwrite, overwrite, htake, hdrop, List.length_cons, List.append_assoc, List.append_assoc,
    List.append_assoc, Nat.add_comm rest.length 1, Nat.add_assoc]
  rfl

theorem overwrite_one {words : List UInt32} (hk : k < words.length) (value : UInt32) :
    overwrite words k [value] = words.set k value := by
  rw [overwrite_cons hk, overwrite_nil]

/-- Values as many as there are words replace them. -/
theorem overwrite_all {words values : List UInt32} (h : values.length = words.length) :
    overwrite words 0 values = values := by
  rw [overwrite, List.take_zero, List.nil_append, Nat.zero_add, h, List.drop_length,
    List.append_nil]

theorem length_overwrite {words values : List UInt32} (h : k + values.length ≤ words.length) :
    (overwrite words k values).length = words.length := by
  simp only [overwrite, List.length_append, List.length_take, List.length_drop]
  omega

/-- Values are put in at their places, and all other words stay. -/
theorem getElem?_overwrite {words values : List UInt32} (h : k + values.length ≤ words.length)
    (j : Nat) : (overwrite words k values)[j]? =
      if k ≤ j ∧ j < k + values.length then values[j - k]? else words[j]? := by
  have htake : (words.take k ++ values).length = k + values.length := by
    rw [List.length_append, List.length_take]
    omega
  rw [overwrite, List.getElem?_append, htake]
  by_cases hbefore : j < k
  · rw [if_pos (by omega), if_neg (by omega), List.getElem?_append_left (by simp; omega),
      List.getElem?_take_of_lt hbefore]
  · by_cases hinside : j < k + values.length
    · rw [if_pos hinside, if_pos ⟨by omega, hinside⟩, List.getElem?_append_right (by simp; omega),
        List.length_take, Nat.min_eq_left (by omega)]
    · rw [if_neg hinside, if_neg (by omega), List.getElem?_drop]
      congr 1
      omega

/-! ## Contents -/

theorem InstanceObject.offset_lt (hk : k < o.words) : k * wordSize < o.size := by
  unfold InstanceObject.words wordSize at *
  omega

theorem Machine.length_contents (m : Machine Device) (o : InstanceObject) :
    (m.contents o).length = o.words := by
  rw [contents, List.length_map, List.length_range]

theorem Machine.lt_words_of_getElem? (h : (m.contents o)[k]? = some value) : k < o.words := by
  rw [← m.length_contents o]
  exact (List.getElem?_eq_some_iff.mp h).1

theorem Machine.getElem?_contents (hk : k < o.words) :
    (m.contents o)[k]? = some (m.hardware.readAt (o.place (k * wordSize))) := by
  rw [contents, List.getElem?_map, List.getElem?_range hk, Option.map_some]

/-- What is the same at every place is the same in every object. -/
theorem Machine.contents_congr
    (h : ∀ offset < o.size, m'.hardware.readAt (o.place offset) = m.hardware.readAt (o.place offset)) :
    m'.contents o = m.contents o := by
  refine List.map_congr_left fun k hk => h _ ?_
  exact InstanceObject.offset_lt (List.mem_range.mp hk)

/-! ## Accesses that lie within an object -/

/-- Some words from an offset on lie within an object. -/
def InstanceObject.Fits (o : InstanceObject) (offset words : Nat) : Prop :=
  wordSize ∣ offset ∧ offset + words * wordSize ≤ o.size

instance (o : InstanceObject) (offset words : Nat) : Decidable (o.Fits offset words) :=
  inferInstanceAs (Decidable (_ ∧ _))

namespace InstanceObject

variable {words : Nat}

theorem checkAccess_of_fits (hlimit : o.size < addressLimit) (h : o.Fits offset words) :
    o.checkAccess offset words = .ok () := by
  obtain ⟨hword, hstop⟩ := h
  have haligned : ¬ offset % wordSize ≠ 0 := fun hne => hne (Nat.mod_eq_zero_of_dvd hword)
  have hmul : words * wordSize < addressLimit := by omega
  have hadd : offset + words * wordSize < addressLimit := by omega
  rw [checkAccess, if_neg haligned, checkedMul_of_lt hmul, ok_bind, checkedAdd_of_lt hadd, ok_bind,
    if_pos hstop]

/-- Every other access is refused. -/
theorem checkAccess_of_not_fits (h : ¬ o.Fits offset words) :
    ∃ f, o.checkAccess offset words = .error f := by
  unfold checkAccess
  by_cases haligned : offset % wordSize ≠ 0
  · exact ⟨_, if_pos haligned⟩
  · rw [if_neg haligned]
    have hstop : ¬ offset + words * wordSize ≤ o.size := fun hstop =>
      h ⟨Nat.dvd_of_mod_eq_zero (not_not.mp haligned), hstop⟩
    unfold checkedMul
    split
    · rw [ok_bind]
      unfold checkedAdd
      split
      · rw [ok_bind, if_neg hstop]
        exact ⟨_, rfl⟩
      · exact ⟨_, rfl⟩
    · exact ⟨_, rfl⟩

theorem fits_all (o : InstanceObject) : o.Fits 0 o.words := by
  refine ⟨Nat.dvd_zero _, ?_⟩
  rw [Nat.zero_add]
  exact Nat.div_mul_le_self _ _

/-- An access lies within an object if it is one to words of it. -/
theorem fits_iff (haligned : wordSize ∣ o.size) :
    o.Fits offset words ↔ offset % wordSize = 0 ∧ offset / wordSize + words ≤ o.words := by
  obtain ⟨all, hall⟩ := haligned
  unfold Fits InstanceObject.words
  rw [hall, Nat.mul_div_cancel_left _ (by decide)]
  unfold wordSize
  omega

end InstanceObject

/-- An access to the words of a placed object goes ahead. -/
theorem Placed.checkAccess (ho : Placed m o) {words : Nat} (hk : k + words ≤ o.words) :
    o.checkAccess (k * wordSize) words = .ok () := by
  have hlimit := ho.limit
  refine InstanceObject.checkAccess_of_fits (by omega) ((InstanceObject.fits_iff ho.aligned).mpr ?_)
  rw [Nat.mul_mod_left, Nat.mul_div_cancel _ (by decide)]
  exact ⟨rfl, hk⟩

/-- An access to an object has left it with some words, and has left other objects alone. -/
structure Accessed (o : InstanceObject) (words : List UInt32) (m m' : Machine Device) : Prop where
  settled : Settled o.owner m'
  books : m'.books = m.books
  contents : m'.contents o = words
  others : ∀ o', o.Apart o' → m'.contents o' = m.contents o'

theorem InstanceObject.checkedAdd_wordSize (ho : Placed m o) (hk : k < o.words) :
    checkedAdd (k * wordSize) wordSize = .ok ((k + 1) * wordSize) := by
  have hlimit := ho.limit
  have hoffset : (k + 1) * wordSize ≤ o.size := by
    unfold InstanceObject.words wordSize at *
    omega
  rw [Nat.succ_mul] at hoffset ⊢
  exact checkedAdd_of_lt (by omega)

namespace Accessed

variable {words others : List UInt32} {m₁ : Machine Device}

theorem refl (h : Settled o.owner m) : Accessed o (m.contents o) m m :=
  ⟨h, rfl, rfl, fun _ _ => rfl⟩

theorem trans (h : Accessed o words m m₁) (h' : Accessed o others m₁ m') :
    Accessed o others m m' where
  settled := h'.settled
  books := h'.books.trans h.books
  contents := h'.contents
  others o' hapart := (h'.others o' hapart).trans (h.others o' hapart)

/-- A read changes nothing. -/
theorem of_read (hsettled : Settled o.owner m') (hbooks : m'.books = m.books)
    (hsame : ∀ place, m'.hardware.readAt place = m.hardware.readAt place) :
    Accessed o (m.contents o) m m' :=
  ⟨hsettled, hbooks, Machine.contents_congr fun _ _ => hsame _,
    fun _ _ => Machine.contents_congr fun _ _ => hsame _⟩

/-- A write at a word of an object puts its value there. -/
theorem of_write (ho : Placed m o) (hk : k < o.words) (hsettled : Settled o.owner m')
    (hbooks : m'.books = m.books) (hwrite : ∀ place, m'.hardware.readAt place =
      if place = o.place (k * wordSize) then value else m.hardware.readAt place) :
    Accessed o ((m.contents o).set k value) m m' := by
  have hoffset := InstanceObject.offset_lt hk
  refine ⟨hsettled, hbooks, List.ext_getElem? ?_, ?_⟩
  · intro j
    by_cases hj : j < o.words
    · rw [Machine.getElem?_contents hj, hwrite, List.getElem?_set, Machine.length_contents]
      by_cases hjk : k = j
      · subst hjk
        simp only [↓reduceIte, hj]
      · have hne : o.place (j * wordSize) ≠ o.place (k * wordSize) := by
          intro heq
          have hoffsets := ho.injective _ (InstanceObject.offset_lt hj) _ hoffset heq
          exact hjk (Nat.eq_of_mul_eq_mul_right (by decide) hoffsets.symm)
        rw [if_neg hne, if_neg hjk, Machine.getElem?_contents hj]
    · rw [List.getElem?_eq_none (by rw [Machine.length_contents]; omega),
        List.getElem?_eq_none (by rw [List.length_set, Machine.length_contents]; omega)]
  · intro o' hapart
    apply Machine.contents_congr
    intro other hother
    rw [hwrite, if_neg fun heq => hapart _ hoffset other hother heq.symm]

end Accessed

/-! ## One word -/

namespace Settled

variable {i address place : Nat}

theorem readAperture (h : Settled i m) (address : Nat) :
    Action.readAperture address m = .ok (m.hardware.vram.read address) m := by
  unfold Action.readAperture
  rw [run_get_bind, run_bind_of_ok (h.record _)]
  rfl

theorem writeAperture (h : Settled i m) (address : Nat) (value : UInt32) :
    Action.writeAperture address value m =
      .ok () { m with hardware.vram := m.hardware.vram.write address value } := by
  have h₁ : Settled i { m with hardware.vram := m.hardware.vram.write address value } :=
    h.setHardware rfl
  have hhardware : Action.onHardware
      (fun d => .ok () (Platform.writeAperture d address value)) m =
        .ok () { m with hardware.vram := m.hardware.vram.write address value } := rfl
  unfold Action.writeAperture
  rw [run_bind_of_ok hhardware]
  exact h₁.record _

theorem readWindowed (h : Settled i m)
    (haddress : address < windowedLimit) (hresolve : m.hardware.resolve address = .ok (some place)) :
    ∃ m', Action.readWindowed i address m = .ok (m.hardware.readAt place) m' ∧ Settled i m' ∧
      ∀ other, m'.hardware.readAt other = m.hardware.readAt other := by
  apply h.throughWindow (P := fun d => ∀ other, d.readAt other = m.hardware.readAt other)
  intro writes m₁ h₁ hhardware
  have hsame : ∀ other, m₁.hardware.readAt other = m.hardware.readAt other := fun other => by
    rw [hhardware, Device.readAt_setWindow]
  have hresolve₁ : m₁.hardware.resolve address = .ok (some place) := by
    rw [hhardware, Device.resolve_setWindow, hresolve]
  have hshown := shownAddress_of_window (d := m₁.hardware) haddress (by rw [hhardware])
  have hread : m₁.hardware.readRegister (apertureRegister + windowOffset address) =
      .ok (m.hardware.readAt place) := by
    rw [Device.readRegister_of_shown hshown, Device.read_of_resolve hresolve₁, hsame]
  exact ⟨m₁, h₁.readRegister hread, h₁, hsame⟩

theorem writeWindowed (h : Settled i m)
    (haddress : address < windowedLimit) (hresolve : m.hardware.resolve address = .ok (some place))
    (hword : m.hardware.HasWord place) (value : UInt32) :
    ∃ m', Action.writeWindowed i address value m = .ok () m' ∧ Settled i m' ∧
      ∀ other, m'.hardware.readAt other = if other = place then value else m.hardware.readAt other := by
  refine h.throughWindow (P := fun d => ∀ other, d.readAt other =
    if other = place then value else m.hardware.readAt other) ?_
  intro writes m₁ h₁ hhardware
  have hsame : ∀ other, m₁.hardware.readAt other = m.hardware.readAt other := fun other => by
    rw [hhardware, Device.readAt_setWindow]
  have hresolve₁ : m₁.hardware.resolve address = .ok (some place) := by
    rw [hhardware, Device.resolve_setWindow, hresolve]
  have hword₁ : m₁.hardware.HasWord place := by
    rw [hhardware, Device.hasWord_setWindow]
    exact hword
  have hshown := shownAddress_of_window (d := m₁.hardware) haddress (by rw [hhardware])
  have hwrite : Device.writeRegister (apertureRegister + windowOffset address) value m₁.hardware =
      .ok () (m₁.hardware.writeAt place value) := by
    rw [Device.writeRegister_of_shown hshown, Device.write_of_resolve hresolve₁]
  have h₂ := h₁.setHardware (m₁.hardware.window_writeAt place value)
  refine ⟨_, h₁.writeRegister hwrite, h₂, ?_⟩
  intro other
  rw [Device.readAt_writeAt hword₁, hsame]

/-- **A read answers the word at the place**, and changes none. -/
theorem readWord (h : Settled o.owner m) (ho : Placed m o) (hoffset : offset < o.size) :
    ∃ m', Action.readWord o offset m = .ok (m.hardware.readAt (o.place offset)) m' ∧
      Settled o.owner m' ∧ ∀ other, m'.hardware.readAt other = m.hardware.readAt other := by
  have hresolve := ho.resolves offset hoffset
  have hlimit := ho.limit
  have hsum : checkedAdd o.offset offset = .ok (o.offset + offset) := checkedAdd_of_lt (by omega)
  have hwindow : o.strategy ≠ .heap → ∃ m', Action.readWindowed o.owner (o.offset + offset) m =
      .ok (m.hardware.readAt (o.place offset)) m' ∧ Settled o.owner m' ∧
        ∀ other, m'.hardware.readAt other = m.hardware.readAt other := by
    intro hstrategy
    have hwindowed := ho.windowed hstrategy
    exact h.readWindowed (by omega) hresolve
  unfold Action.readWord
  rw [run_bind_of_ok (run_lift_of_ok hsum m)]
  cases hstrategy : o.strategy with
  | heap =>
    refine ⟨m, ?_, h, fun _ => rfl⟩
    rw [Device.readAt_of_vram (ho.heap hstrategy) hresolve]
    exact h.readAperture _
  | iommu => exact hwindow (by rw [hstrategy]; decide)
  | dma => exact hwindow (by rw [hstrategy]; decide)

/-- **A write changes the word at the place**, and no other. -/
theorem writeWord (h : Settled o.owner m) (ho : Placed m o) (hoffset : offset < o.size)
    (hword : wordSize ∣ offset) (value : UInt32) :
    ∃ m', Action.writeWord o offset value m = .ok () m' ∧ Settled o.owner m' ∧
      ∀ other, m'.hardware.readAt other =
        if other = o.place offset then value else m.hardware.readAt other := by
  have hresolve := ho.resolves offset hoffset
  have hplace := ho.hasWord offset hoffset hword
  have hlimit := ho.limit
  have hsum : checkedAdd o.offset offset = .ok (o.offset + offset) := checkedAdd_of_lt (by omega)
  have hwindow : o.strategy ≠ .heap → ∃ m', Action.writeWindowed o.owner (o.offset + offset) value m =
      .ok () m' ∧ Settled o.owner m' ∧ ∀ other, m'.hardware.readAt other =
        if other = o.place offset then value else m.hardware.readAt other := by
    intro hstrategy
    have hwindowed := ho.windowed hstrategy
    exact h.writeWindowed (by omega) hresolve hplace value
  unfold Action.writeWord
  rw [run_bind_of_ok (run_lift_of_ok hsum m)]
  cases hstrategy : o.strategy with
  | heap =>
    have hwrite := Device.writeAt_of_vram (ho.heap hstrategy) hresolve value
    have hread := Device.readAt_writeAt hplace
    have h₁ : Settled o.owner { m with hardware := m.hardware.writeAt (o.place offset) value } :=
      h.setHardware (m.hardware.window_writeAt (o.place offset) value)
    refine ⟨_, ?_, h₁, fun other => hread other value⟩
    rw [hwrite]
    exact h.writeAperture _ value
  | iommu => exact hwindow (by rw [hstrategy]; decide)
  | dma => exact hwindow (by rw [hstrategy]; decide)

/-! ## Consecutive words -/

variable {words : Nat}

theorem readFrom (h : Settled o.owner m) (ho : Placed m o) (hk : k + words ≤ o.words)
    (before : List UInt32) : ∃ m', Action.readFrom o words (k * wordSize) before m =
      .ok (before.reverse ++ ((m.contents o).drop k).take words) m' ∧
        Accessed o (m.contents o) m m' := by
  induction words generalizing k m before with
  | zero =>
    refine ⟨m, ?_, .refl h⟩
    rw [List.take_zero, List.append_nil]
    rfl
  | succ words ih =>
    have hlt : k < o.words := by omega
    obtain ⟨m₁, hread, hsettled, hsame⟩ := h.readWord ho (InstanceObject.offset_lt hlt)
    have hbooks := (Action.books_readWord o (k * wordSize)).of_ok rfl hread
    have haccessed : Accessed o (m.contents o) m m₁ := .of_read hsettled hbooks hsame
    have hsum := InstanceObject.checkedAdd_wordSize ho hlt
    obtain ⟨m₂, hrest, haccessed'⟩ := ih (k := k + 1) hsettled (ho.of_books hbooks) (by omega)
      (m.hardware.readAt (o.place (k * wordSize)) :: before)
    have hvalue := Machine.getElem?_contents (m := m) hlt
    rw [haccessed.contents] at hrest haccessed'
    refine ⟨m₂, ?_, haccessed.trans haccessed'⟩
    rw [Action.readFrom, run_bind_of_ok hread, run_bind_of_ok (run_lift_of_ok hsum _), hrest]
    obtain ⟨hlength, hvalue⟩ := List.getElem?_eq_some_iff.mp hvalue
    rw [List.drop_eq_getElem_cons hlength, List.take_succ_cons, hvalue, List.reverse_cons,
      List.append_assoc]
    rfl

theorem writeFrom {values : List UInt32} (h : Settled o.owner m) (ho : Placed m o)
    (hk : k + values.length ≤ o.words) : ∃ m', Action.writeFrom o values (k * wordSize) m =
      .ok () m' ∧ Accessed o (overwrite (m.contents o) k values) m m' := by
  induction values generalizing k m with
  | nil =>
    refine ⟨m, rfl, ?_⟩
    rw [overwrite_nil]
    exact .refl h
  | cons value rest ih =>
    rw [List.length_cons] at hk
    have hlt : k < o.words := by omega
    obtain ⟨m₁, hwrite, hsettled, hsame⟩ := h.writeWord ho (InstanceObject.offset_lt hlt)
      (Nat.dvd_mul_left wordSize k) value
    have hbooks := (Action.books_writeWord o (k * wordSize) value).of_ok rfl hwrite
    have haccessed : Accessed o ((m.contents o).set k value) m m₁ :=
      .of_write ho hlt hsettled hbooks hsame
    have hsum := InstanceObject.checkedAdd_wordSize ho hlt
    obtain ⟨m₂, hrest, haccessed'⟩ := ih (k := k + 1) hsettled (ho.of_books hbooks) (by omega)
    refine ⟨m₂, ?_, ?_⟩
    · rw [Action.writeFrom, run_bind_of_ok hwrite, run_bind_of_ok (run_lift_of_ok hsum _), hrest]
    · rw [overwrite_cons (by rw [Machine.length_contents]; exact hlt), ← haccessed.contents]
      exact haccessed.trans haccessed'

end Settled

/-- A fill writes its value as often as there are words. -/
theorem Action.fillFrom_eq (ho : Placed m o) {words : Nat} (hk : k + words ≤ o.words)
    (value : UInt32) : (fillFrom o value words (k * wordSize) : Action Device Unit) =
      writeFrom o (List.replicate words value) (k * wordSize) := by
  induction words generalizing k with
  | zero => rfl
  | succ words ih =>
    have hrest := ih (k := k + 1) (by omega)
    have hsum := InstanceObject.checkedAdd_wordSize ho (k := k) (by omega)
    rw [List.replicate_succ, fillFrom, writeFrom, hsum, ← Nat.succ_mul, hrest]
    rfl

/-! ## Accesses -/

namespace Settled

variable {words : Nat}

theorem read32 (h : Settled o.owner m) (ho : Placed m o) (hk : k < o.words) :
    ∃ value m', Action.read32 o (k * wordSize) m = .ok value m' ∧
      (m.contents o)[k]? = some value ∧ Accessed o (m.contents o) m m' := by
  obtain ⟨m', hread, hsettled, hsame⟩ := h.readWord ho (InstanceObject.offset_lt hk)
  have hbooks := (Action.books_readWord o (k * wordSize)).of_ok rfl hread
  refine ⟨_, m', ?_, Machine.getElem?_contents hk, .of_read hsettled hbooks hsame⟩
  unfold Action.read32
  rw [run_bind_of_ok (run_lift_of_ok (ho.checkAccess hk) m), hread]

theorem readWords (h : Settled o.owner m) (ho : Placed m o) (hk : k + words ≤ o.words) :
    ∃ m', Action.readWords o (k * wordSize) words m =
      .ok (((m.contents o).drop k).take words) m' ∧ Accessed o (m.contents o) m m' := by
  unfold Action.readWords
  rw [run_bind_of_ok (run_lift_of_ok (ho.checkAccess hk) m)]
  exact h.readFrom ho hk []

theorem write32 (h : Settled o.owner m) (ho : Placed m o) (hk : k < o.words) (value : UInt32) :
    ∃ m', Action.write32 o (k * wordSize) value m = .ok () m' ∧
      Accessed o ((m.contents o).set k value) m m' := by
  obtain ⟨m', hwrite, hsettled, hsame⟩ := h.writeWord ho (InstanceObject.offset_lt hk)
    (Nat.dvd_mul_left wordSize k) value
  have hbooks := (Action.books_writeWord o (k * wordSize) value).of_ok rfl hwrite
  refine ⟨m', ?_, .of_write ho hk hsettled hbooks hsame⟩
  unfold Action.write32
  rw [run_bind_of_ok (run_lift_of_ok (ho.checkAccess hk) m), hwrite]

theorem writeWords {values : List UInt32} (h : Settled o.owner m) (ho : Placed m o)
    (hk : k + values.length ≤ o.words) : ∃ m', Action.writeWords o (k * wordSize) values m =
      .ok () m' ∧ Accessed o (overwrite (m.contents o) k values) m m' := by
  unfold Action.writeWords
  rw [run_bind_of_ok (run_lift_of_ok (ho.checkAccess hk) m)]
  exact h.writeFrom ho hk

theorem fill (h : Settled o.owner m) (ho : Placed m o) (value : UInt32) :
    ∃ m', Action.fill o value m = .ok () m' ∧
      Accessed o (List.replicate o.words value) m m' := by
  have hall : 0 + o.words ≤ o.words := Nat.le_of_eq (Nat.zero_add o.words)
  have hlength : (List.replicate o.words value).length = o.words := List.length_replicate
  obtain ⟨m', hwrite, haccessed⟩ := h.writeFrom ho (Nat.le_trans (by rw [hlength]) hall)
  rw [overwrite_all (hlength.trans (Machine.length_contents m o).symm)] at haccessed
  have hfill := Action.fillFrom_eq ho hall value
  rw [Nat.zero_mul] at hfill hwrite
  refine ⟨m', ?_, haccessed⟩
  rw [Action.fill, hfill, hwrite]

end Settled

/-! ## What accesses leave -/

/-- An access that does not lie within its object has done nothing. -/
theorem InstanceObject.leaves_of_not_fits {α : Type} {words : Nat} (h : ¬ o.Fits offset words)
    (m : Machine Device) (next : Unit → Action Device α) :
    leaves (liftM (o.checkAccess offset words) >>= next) m = m := by
  obtain ⟨f, hf⟩ := checkAccess_of_not_fits h
  rw [hf]
  rfl

namespace Settled

/-- A read leaves every object alone, wherever it was meant to go. -/
theorem leaves_readWords (h : Settled o.owner m) (ho : Placed m o) (offset words : Nat) :
    Accessed o (m.contents o) m (leaves (Action.readWords o offset words) m) := by
  by_cases hfits : o.Fits offset words
  · obtain ⟨hmod, hk⟩ := (InstanceObject.fits_iff ho.aligned).mp hfits
    obtain ⟨m', hread, haccessed⟩ := h.readWords ho hk
    rw [Nat.div_mul_cancel (Nat.dvd_of_mod_eq_zero hmod)] at hread
    rwa [leaves_of_ok hread]
  · rw [Action.readWords, InstanceObject.leaves_of_not_fits hfits]
    exact .refl h

theorem leaves_read32 (h : Settled o.owner m) (ho : Placed m o) (offset : Nat) :
    Accessed o (m.contents o) m (leaves (Action.read32 o offset) m) := by
  by_cases hfits : o.Fits offset 1
  · obtain ⟨hmod, hk⟩ := (InstanceObject.fits_iff ho.aligned).mp hfits
    obtain ⟨value, m', hread, -, haccessed⟩ := h.read32 ho hk
    rw [Nat.div_mul_cancel (Nat.dvd_of_mod_eq_zero hmod)] at hread
    rwa [leaves_of_ok hread]
  · rw [Action.read32, InstanceObject.leaves_of_not_fits hfits]
    exact .refl h

/-- A write puts its values into its object if they lie within it, and else changes nothing. -/
theorem leaves_writeWords (h : Settled o.owner m) (ho : Placed m o) (offset : Nat)
    (values : List UInt32) : Accessed o (overwriteAt (m.contents o) offset values) m
      (leaves (Action.writeWords o offset values) m) := by
  rw [overwriteAt, Machine.length_contents]
  by_cases hfits : o.Fits offset values.length
  · have hinside := (InstanceObject.fits_iff ho.aligned).mp hfits
    obtain ⟨m', hwrite, haccessed⟩ := h.writeWords ho hinside.2
    rw [Nat.div_mul_cancel (Nat.dvd_of_mod_eq_zero hinside.1)] at hwrite
    rwa [leaves_of_ok hwrite, if_pos hinside]
  · rw [Action.writeWords, InstanceObject.leaves_of_not_fits hfits,
      if_neg fun hinside => hfits ((InstanceObject.fits_iff ho.aligned).mpr hinside)]
    exact .refl h

theorem leaves_write32 (h : Settled o.owner m) (ho : Placed m o) (offset : Nat) (value : UInt32) :
    Accessed o (overwriteAt (m.contents o) offset [value]) m
      (leaves (Action.write32 o offset value) m) := by
  rw [overwriteAt, Machine.length_contents, List.length_singleton]
  by_cases hfits : o.Fits offset 1
  · have hinside := (InstanceObject.fits_iff ho.aligned).mp hfits
    obtain ⟨m', hwrite, haccessed⟩ := h.write32 ho hinside.2 value
    rw [Nat.div_mul_cancel (Nat.dvd_of_mod_eq_zero hinside.1)] at hwrite
    rw [leaves_of_ok hwrite]
    rwa [if_pos hinside, overwrite_one (by rw [Machine.length_contents]; exact hinside.2)]
  · rw [Action.write32, InstanceObject.leaves_of_not_fits hfits,
      if_neg fun hinside => hfits ((InstanceObject.fits_iff ho.aligned).mpr hinside)]
    exact .refl h

theorem leaves_fill (h : Settled o.owner m) (ho : Placed m o) (value : UInt32) :
    Accessed o (List.replicate (m.contents o).length value) m (leaves (Action.fill o value) m) := by
  obtain ⟨m', hfill, haccessed⟩ := h.fill ho value
  rwa [leaves_of_ok hfill, Machine.length_contents]

end Settled
end InstanceMemory
