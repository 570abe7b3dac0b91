import InstanceMemory.Proofs.Machine.Contents
import InstanceMemory.Proofs.Session.Provision

/-!
# Accesses word by word

Under the accesses to objects lie the accesses to single device addresses, through the aperture or the
window as the object's strategy says (`Action.readAt`, `Action.writeAt`). **An access to some words of an
object is the accesses to their addresses, in ascending order**, and nothing else, if the words lie within
the object; otherwise it faults before it has touched anything (`Exactly`). The sums on the way, of the
offset in the object, of the address, and of the step past the last word, do not leave the range of
addresses, even for an object at their very end.

The platform is arbitrary here. What a single access does, and whether it faults, is left to it; if it
answers at every word of the object, an access is answered if and only if it lies within the object.
-/

set_option autoImplicit false

namespace InstanceMemory

variable {π α β : Type} {o : InstanceObject} {offset words : Nat}

/-! ## The words of an object -/

namespace InstanceObject

/-- The device addresses of some words of an object, in ascending order. -/
def addresses (o : InstanceObject) (offset words : Nat) : List Nat :=
  List.range' (o.offset + offset) words wordSize

/-- The word at a device address lies within an object. -/
def HasWord (o : InstanceObject) (address : Nat) : Prop :=
  o.offset ≤ address ∧ address + wordSize ≤ o.offset + o.size

theorem addresses_succ (o : InstanceObject) (offset words : Nat) :
    o.addresses offset (words + 1) = (o.offset + offset) :: o.addresses (offset + wordSize) words :=
  List.range'_succ

/-- Words that fit in an object lie within it. -/
theorem hasWord_of_mem (h : o.Fits offset words) {address : Nat}
    (haddress : address ∈ o.addresses offset words) : o.HasWord address := by
  obtain ⟨k, hk, rfl⟩ := List.mem_range'.mp haddress
  obtain ⟨-, hstop⟩ := h
  unfold HasWord wordSize at *
  omega

namespace Fits

/-- What fits in an object ends where an object can end, counted in the object and on the device. -/
theorem limits (h : o.Fits offset words) (hsize : o.size < addressLimit)
    (hlimit : o.offset + o.size ≤ addressLimit) :
    offset + words * wordSize < addressLimit ∧
      o.offset + (offset + words * wordSize) ≤ addressLimit := by
  obtain ⟨-, hstop⟩ := h
  omega

/-- A word that fits in an object lies within it. -/
theorem hasWord (h : o.Fits offset 1) : o.HasWord (o.offset + offset) := by
  obtain ⟨-, hstop⟩ := h
  unfold HasWord
  omega

/-- A word that fits in an object begins below the address limit. -/
theorem word_lt (h : o.Fits offset 1) (hlimit : o.offset + o.size ≤ addressLimit) :
    o.offset + offset < addressLimit := by
  obtain ⟨-, hstop⟩ := h
  unfold wordSize at hstop
  omega

end Fits

theorem ascending_addresses (o : InstanceObject) (offset words : Nat) :
    (o.addresses offset words).Pairwise (· < ·) :=
  List.pairwise_lt_range' wordSize (by decide)

/-- **Every byte of an object lies in exactly one of its words.** -/
theorem existsUnique_address (haligned : wordSize ∣ o.size) {place : Nat} (hbase : o.offset ≤ place)
    (hstop : place < o.offset + o.size) :
    ∃! address, address ∈ o.addresses 0 o.words ∧ address ≤ place ∧ place < address + wordSize := by
  have hwords : o.words * wordSize = o.size := Nat.div_mul_cancel haligned
  unfold wordSize at hwords
  refine ⟨o.offset + 0 + wordSize * ((place - o.offset) / wordSize), ⟨?_, ?_⟩, ?_⟩
  · refine List.mem_range'.mpr ⟨(place - o.offset) / wordSize, ?_, rfl⟩
    unfold wordSize
    omega
  · unfold wordSize
    omega
  · rintro address ⟨hmem, hle, hlt⟩
    obtain ⟨k, -, rfl⟩ := List.mem_range'.mp hmem
    unfold wordSize at *
    omega

end InstanceObject

/-! ## Accesses to lists of words -/

namespace Action

variable [Platform π]

/-- Reads the word at a device address as an object of its strategy is read. -/
def readAt (o : InstanceObject) (address : Nat) : Action π UInt32 :=
  match o.strategy with
  | .heap => readAperture address
  | .iommu | .dma => readWindowed o.owner address

/-- Writes the word at a device address as an object of its strategy is written. -/
def writeAt (o : InstanceObject) (address : Nat) (value : UInt32) : Action π Unit :=
  match o.strategy with
  | .heap => writeAperture address value
  | .iommu | .dma => writeWindowed o.owner address value

/-- Writes words at device addresses. -/
def writeAll (o : InstanceObject) (addresses : List Nat) (values : List UInt32) : Action π Unit :=
  (addresses.zip values).forM fun (address, value) => writeAt o address value

theorem writeAll_cons (o : InstanceObject) (address : Nat) (addresses : List Nat) (value : UInt32)
    (rest : List UInt32) :
    (writeAll o (address :: addresses) (value :: rest) : Action π Unit) = (do
      writeAt o address value
      writeAll o addresses rest) := rfl

theorem readWord_eq (haddress : o.offset + offset < addressLimit) :
    (readWord o offset : Action π UInt32) = readAt o (o.offset + offset) :=
  lift_bind_of_ok (checkedAdd_of_lt haddress) _

theorem writeWord_eq (haddress : o.offset + offset < addressLimit) (value : UInt32) :
    (writeWord o offset value : Action π Unit) = writeAt o (o.offset + offset) value :=
  lift_bind_of_ok (checkedAdd_of_lt haddress) _

/-- **Words are read one by one**, behind those already read. The step past the last word stays below
the address limit with it. -/
theorem readFrom_eq_mapM (before : List UInt32) (hoffset : offset + words * wordSize < addressLimit)
    (haddress : o.offset + (offset + words * wordSize) ≤ addressLimit) :
    (readFrom o words offset before : Action π (List UInt32)) = (do
      let values ← (o.addresses offset words).mapM (readAt o)
      return before.reverse ++ values) := by
  induction words generalizing offset before with
  | zero =>
    rw [InstanceObject.addresses, List.range'_zero, List.mapM_nil, pure_bind, List.append_nil, readFrom]
  | succ words ih =>
    rw [Nat.succ_mul] at hoffset haddress
    have hword : o.offset + offset < addressLimit := by
      unfold wordSize at haddress
      omega
    have hnext : checkedAdd offset wordSize = .ok (offset + wordSize) :=
      checkedAdd_of_lt (by omega)
    rw [readFrom, readWord_eq hword, o.addresses_succ, List.mapM_cons, bind_assoc]
    refine bind_congr fun value => ?_
    rw [lift_bind_of_ok hnext, ih _ (by omega) (by omega), bind_assoc]
    refine bind_congr fun values => ?_
    rw [pure_bind, List.reverse_cons, List.append_assoc, List.singleton_append]

/-- **Words are written one by one.** -/
theorem writeFrom_eq_writeAll {values : List UInt32}
    (hoffset : offset + values.length * wordSize < addressLimit)
    (haddress : o.offset + (offset + values.length * wordSize) ≤ addressLimit) :
    (writeFrom o values offset : Action π Unit) =
      writeAll o (o.addresses offset values.length) values := by
  induction values generalizing offset with
  | nil => rfl
  | cons value rest ih =>
    rw [List.length_cons, Nat.succ_mul] at hoffset haddress
    have hword : o.offset + offset < addressLimit := by
      unfold wordSize at haddress
      omega
    have hnext : checkedAdd offset wordSize = .ok (offset + wordSize) :=
      checkedAdd_of_lt (by omega)
    rw [writeFrom, writeWord_eq hword, List.length_cons, o.addresses_succ, writeAll_cons]
    refine bind_congr fun _ => ?_
    rw [lift_bind_of_ok hnext, ih (by omega) (by omega)]

/-- **One value is written to words one by one.** -/
theorem fillFrom_eq_forM (value : UInt32)
    (haddress : o.offset + (offset + words * wordSize) ≤ addressLimit) :
    (fillFrom o value words offset : Action π Unit) =
      (o.addresses offset words).forM (writeAt o · value) := by
  induction words generalizing offset with
  | zero => rfl
  | succ words ih =>
    rw [Nat.succ_mul] at haddress
    have hword : o.offset + offset < addressLimit := by
      unfold wordSize at haddress
      omega
    rw [fillFrom, writeWord_eq hword, o.addresses_succ]
    exact bind_congr fun _ => ih (by omega)

end Action

/-! ## On the simulated device -/

section Simulated

open Simulator (Device)

variable {roster : List (Option FirmwareObjects)} {live : List InstanceObject} {address : Nat}

/-- Every word of an object that ends below the address limit can be read. -/
theorem faultless_readAt (hlimit : o.offset + o.size ≤ addressLimit) (h : o.HasWord address) :
    Faultless (Orderly roster live) (Action.readAt o address) := by
  obtain ⟨hle, hstop⟩ := h
  have haddress : o.offset + (address - o.offset) < addressLimit := by
    unfold wordSize at hstop
    omega
  have hread := @faultless_readWord roster live o (address - o.offset) haddress
  rwa [Action.readWord_eq haddress, Nat.add_sub_cancel' hle] at hread

/-- Every word of an object that ends below the address limit can be written. -/
theorem faultless_writeAt (hlimit : o.offset + o.size ≤ addressLimit) (h : o.HasWord address)
    (value : UInt32) : Faultless (Orderly roster live) (Action.writeAt o address value) := by
  obtain ⟨hle, hstop⟩ := h
  have haddress : o.offset + (address - o.offset) < addressLimit := by
    unfold wordSize at hstop
    omega
  have hwrite := @faultless_writeWord roster live o (address - o.offset) haddress value
  rwa [Action.writeWord_eq haddress, Nat.add_sub_cancel' hle] at hwrite

end Simulated

/-! ## Accesses to objects -/

/-- An access to some words of an object comes to some accesses to the device, **or to nothing**: if the
words do not lie within the object, it faults on every machine and leaves it as it is. Where the accesses
to the device answer from the states of a kind, it is answered from there exactly if they do. -/
structure Exactly (P : Machine π → Prop) (o : InstanceObject) (offset words : Nat)
    (act accesses : Action π α) : Prop where
  performs : o.Fits offset words → act = accesses
  refuses : ¬ o.Fits offset words →
    ∃ f, o.checkAccess offset words = .error f ∧ ∀ m, act m = .error f m
  answers_iff : ∀ m, P m → ((∃ a m', act m = .ok a m') ↔ o.Fits offset words)

section

variable {P : Machine π → Prop} {next accesses : Action π α}

/-- What is checked first, and then comes to accesses that answer, comes to exactly these. -/
theorem exactly_of_checked (hsize : o.size < addressLimit)
    (hperforms : o.Fits offset words → next = accesses)
    (hanswers : o.Fits offset words → Faultless P accesses) :
    Exactly P o offset words (monadLift (o.checkAccess offset words) >>= fun _ => next) accesses := by
  have hok : o.Fits offset words →
      (monadLift (o.checkAccess offset words) >>= fun _ => next) = accesses := by
    intro hfits
    rw [lift_bind_of_ok (InstanceObject.checkAccess_of_fits hsize hfits), hperforms hfits]
  have hrefuses : ¬ o.Fits offset words → ∃ f, o.checkAccess offset words = .error f ∧
      ∀ m, (monadLift (o.checkAccess offset words) >>= fun _ => next : Action π α) m = .error f m := by
    intro hno
    obtain ⟨f, hf⟩ := InstanceObject.checkAccess_of_not_fits hno
    refine ⟨f, hf, fun m => ?_⟩
    rw [hf]
    rfl
  refine ⟨hok, hrefuses, fun m hm => ⟨?_, fun hfits => ?_⟩⟩
  · rintro ⟨a, m', hact⟩
    by_contra hno
    obtain ⟨f, -, hfault⟩ := hrefuses hno
    cases (hfault m).symm.trans hact
  · obtain ⟨a, m', haccesses, -⟩ := hanswers hfits m hm
    exact ⟨a, m', (congrFun (hok hfits) m).trans haccesses⟩

end

/-- Every access to an object is made word by word, where each word answers from the states of a kind. -/
structure WordByWord [Platform π] (P : Machine π → Prop) (o : InstanceObject) : Prop where
  /-- The addresses of words within the object ascend and lie within it. -/
  inside : ∀ {offset words}, o.Fits offset words → (o.addresses offset words).Pairwise (· < ·) ∧
    ∀ address ∈ o.addresses offset words, o.HasWord address
  read32 : ∀ offset,
    Exactly P o offset 1 (Action.read32 o offset) (Action.readAt o (o.offset + offset))
  write32 : ∀ offset value, Exactly P o offset 1 (Action.write32 o offset value)
    (Action.writeAt o (o.offset + offset) value)
  readWords : ∀ offset words, Exactly P o offset words (Action.readWords o offset words)
    ((o.addresses offset words).mapM (Action.readAt o))
  writeWords : ∀ offset values, Exactly P o offset values.length (Action.writeWords o offset values)
    (Action.writeAll o (o.addresses offset values.length) values)
  fill : ∀ value,
    (Action.fill o value : Action π Unit) = (o.addresses 0 o.words).forM (Action.writeAt o · value) ∧
      ∀ m, P m → ∃ m', Action.fill o value m = .ok () m'
  /-- The words that are filled are all of the object. -/
  filled : wordSize ∣ o.size → ∀ place, o.offset ≤ place → place < o.offset + o.size →
    ∃! address, address ∈ o.addresses 0 o.words ∧ address ≤ place ∧ place < address + wordSize

/-- **Accesses touch exactly the words asked for, or nothing**, for every object that does not reach
beyond the address limit, on every platform, whatever states its words can be accessed from. -/
theorem accesses_word_by_word [Platform π] {P : Machine π → Prop} (hsize : o.size < addressLimit)
    (hlimit : o.offset + o.size ≤ addressLimit)
    (hreads : ∀ address, o.HasWord address → Faultless P (Action.readAt o address))
    (hwrites : ∀ address value, o.HasWord address → Faultless P (Action.writeAt o address value)) :
    WordByWord P o where
  inside hfits := ⟨o.ascending_addresses _ _, fun _ => InstanceObject.hasWord_of_mem hfits⟩
  read32 offset := by
    refine exactly_of_checked hsize (fun hfits => ?_) fun hfits => hreads _ hfits.hasWord
    exact Action.readWord_eq (hfits.word_lt hlimit)
  write32 offset value := by
    refine exactly_of_checked hsize (fun hfits => ?_) fun hfits => hwrites _ value hfits.hasWord
    exact Action.writeWord_eq (hfits.word_lt hlimit) value
  readWords offset words := by
    refine exactly_of_checked hsize (fun hfits => ?_) fun hfits => faultless_mapM fun address haddress =>
      hreads address (InstanceObject.hasWord_of_mem hfits haddress)
    obtain ⟨hoffset, haddress⟩ := hfits.limits hsize hlimit
    rw [Action.readFrom_eq_mapM [] hoffset haddress]
    exact bind_pure _
  writeWords offset values := by
    refine exactly_of_checked hsize (fun hfits => ?_) fun hfits => faultless_forM ?_
    · obtain ⟨hoffset, haddress⟩ := hfits.limits hsize hlimit
      exact Action.writeFrom_eq_writeAll hoffset haddress
    · rintro ⟨address, value⟩ hmem
      exact hwrites address value (InstanceObject.hasWord_of_mem hfits (List.of_mem_zip hmem).1)
  fill value := by
    have hfits : o.Fits 0 o.words := o.fits_all
    have hfill : (Action.fill o value : Action π Unit) =
        (o.addresses 0 o.words).forM (Action.writeAt o · value) :=
      Action.fillFrom_eq_forM value (hfits.limits hsize hlimit).2
    refine ⟨hfill, fun m hm => ?_⟩
    have hanswers : Faultless P ((o.addresses 0 o.words).forM (Action.writeAt o · value)) :=
      faultless_forM fun address haddress =>
        hwrites address value (InstanceObject.hasWord_of_mem hfits haddress)
    obtain ⟨_, m', hact, -⟩ := hanswers m hm
    exact ⟨m', (congrFun hfill m).trans hact⟩
  filled haligned _ := InstanceObject.existsUnique_address haligned

/-- An object of a page at the very end of the addresses, on a simulated device: its last word can be
read, and two words from there on cannot. -/
theorem accesses_word_by_word_at_end : ∃ session : Session Simulator.Device,
    Simulator.Session.start (Simulator.Config.systemMemory 0xea) false = .ok session ∧
      let last : AddressRange := ⟨addressLimit - pageSize, pageSize⟩
      let o : InstanceObject := ⟨0, last.base, pageSize, false, .dma ⟨last.base, pageSize⟩⟩
      o.size < addressLimit ∧ o.offset + o.size ≤ addressLimit ∧
        WordByWord (Orderly session.machine.roster session.live) o ∧
        (∃ values m, Action.readWords o 0xffc 1 session.machine = .ok values m) ∧
        ∃ f, Action.readWords o 0xffc 2 session.machine = .error f session.machine := by
  have hstart : Simulator.Session.start (Simulator.Config.systemMemory 0xea) false = .ok _ := rfl
  refine ⟨_, hstart, ?_⟩
  intro last o
  have hsize : o.size < addressLimit := by decide
  have hlimit : o.offset + o.size ≤ addressLimit := by decide
  have hwords : ∀ roster live, WordByWord (Orderly roster live) o := fun roster live =>
    accesses_word_by_word hsize hlimit (fun _ h => faultless_readAt hlimit h)
      fun _ value h => faultless_writeAt hlimit h value
  have hin : o.Fits 0xffc 1 := by decide
  have hout : ¬ o.Fits 0xffc 2 := by decide
  have horderly := Session.orderly_run hstart []
  refine ⟨hsize, hlimit, hwords _ _, ?_, ?_⟩
  · exact (((hwords _ _).readWords 0xffc 1).answers_iff _ horderly).mpr hin
  · obtain ⟨f, -, hfault⟩ := ((hwords [] []).readWords 0xffc 2).refuses hout
    exact ⟨f, hfault _⟩

end InstanceMemory
