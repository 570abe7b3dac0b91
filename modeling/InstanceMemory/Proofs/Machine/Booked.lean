import InstanceMemory.Proofs.Machine.Construction

/-!
# All controllers of a machine

A machine keeps one record for each controller that was built, and the firmware structures on the
records are live objects beside those that callers hold. `Booked` says so, and that firmware
structures are objects of their own controller. Every operation that makes or frees objects keeps it,
for the controllers as a whole: an object more or less in the hands of callers (`Booked.allocate`,
`Booked.free`), a controller gone (`Booked.teardown`), a controller more or nothing new
(`Booked.build`).
-/

set_option autoImplicit false

namespace InstanceMemory

open Simulator (Device)

variable {m m' : Machine Device} {roster : List (Option FirmwareObjects)} {i : Nat}

/-- The firmware structures on a record are objects of the controller of this record. -/
def Owned (roster : List (Option FirmwareObjects)) : Prop :=
  ∀ (i : Nat) (firmware : FirmwareObjects), roster[i]? = some (some firmware) →
    ∀ o ∈ firmware.toList, o.owner = i

/-- The live objects of a machine with at least so many controllers are some objects and the firmware
structures on record. -/
structure Booked (count : Nat) (objects : List InstanceObject) (m : Machine Device) : Prop where
  accounts : Accounts m.roster (objects ++ m.roster.flatMap FirmwareObjects.listed) m
  count_le : count ≤ m.roster.length
  owned : Owned m.roster

namespace Booked

variable {count : Nat} {objects : List InstanceObject} {object : InstanceObject}

theorem of_accounts (h : Accounts roster (objects ++ roster.flatMap FirmwareObjects.listed) m)
    (hcount : count ≤ roster.length) (howned : Owned roster) : Booked count objects m := by
  obtain rfl := h.listed
  exact ⟨h, hcount, howned⟩

theorem of_books (h : Booked count objects m) (hbooks : m'.books = m.books) :
    Booked count objects m' :=
  of_accounts (h.accounts.of_books hbooks) h.count_le h.owned

/-- The order of the objects does not matter. -/
theorem perm {others : List InstanceObject} (h : Booked count objects m)
    (hperm : objects.Perm others) : Booked count others m :=
  ⟨h.accounts.perm (hperm.append_right _), h.count_le, h.owned⟩

/-- **An allocation adds an object or changes nothing on the books.** -/
theorem allocate (hi : i < count) (size align : Nat) (zeroed : Bool) :
    Tries (Booked count objects) (Action.allocate i size align zeroed : Action Device _)
      (fun object m => Booked count (object :: objects) m ∧ object.owner = i)
      (Booked count objects) := by
  intro m h
  refine (Accounts.allocate (Nat.lt_of_lt_of_le hi h.count_le) size align zeroed).weaken
    ?_ ?_ m h.accounts
  · intro object m h'
    exact ⟨of_accounts h'.1 h.count_le h.owned, h'.2⟩
  · intro m h'
    exact of_accounts h' h.count_le h.owned

/-- **A live object can be freed**, whatever has become of its controller. -/
theorem free (h : Booked count (object :: objects) m) :
    ∃ m', Action.free object m = .ok () m' ∧ Booked count objects m' := by
  obtain ⟨m', hfree, -, h'⟩ := h.accounts.free
  exact ⟨m', hfree, of_accounts h' h.count_le h.owned⟩

/-- The firmware structures of one record stand among those of all. -/
theorem perm_listed (roster : List (Option FirmwareObjects)) (i : Nat) :
    (roster.flatMap FirmwareObjects.listed).Perm
      (FirmwareObjects.listed roster[i]?.join ++
        (roster.set i none).flatMap FirmwareObjects.listed) := by
  induction roster generalizing i with
  | nil => exact List.Perm.refl _
  | cons firmware rest ih =>
    cases i with
    | zero => exact List.Perm.refl _
    | succ i =>
      rw [List.getElem?_cons_succ, List.set_cons_succ, List.flatMap_cons, List.flatMap_cons]
      apply ((ih i).append_left _).trans
      rw [← List.append_assoc, ← List.append_assoc]
      exact List.perm_append_comm.append_right _

/-- The firmware structures of one controller are set apart from the other live objects. -/
theorem accounts_setApart (h : Booked count objects m) (i : Nat) :
    Accounts m.roster (FirmwareObjects.listed m.roster[i]?.join ++
      (objects ++ (m.roster.set i none).flatMap FirmwareObjects.listed)) m := by
  refine h.accounts.perm (((perm_listed m.roster i).append_left objects).trans ?_)
  rw [← List.append_assoc, ← List.append_assoc]
  exact List.perm_append_comm.append_right _

/-- **A controller can be destroyed.** Its firmware structures go with it, its other objects stay. -/
theorem teardown (h : Booked count objects m) (i : Nat) :
    ∃ m', Action.teardown i m = .ok () m' ∧ Booked count objects m' ∧
      m'.roster = m.roster.set i none := by
  obtain ⟨m', hteardown, h'⟩ := (h.accounts_setApart i).teardown
  refine ⟨m', hteardown, of_accounts h' ?_ ?_, h'.listed⟩
  · rw [List.length_set]
    exact h.count_le
  · intro j firmware hj
    rw [List.getElem?_set] at hj
    split at hj
    · split at hj
      · cases hj
      · cases hj
    · exact h.owned j firmware hj

/-- A new controller joins the roster behind the others. -/
theorem owned_concat (h : Owned roster) {firmware : Option FirmwareObjects}
    (hfirmware : ∀ o ∈ FirmwareObjects.listed firmware, o.owner = roster.length) :
    Owned (roster ++ [firmware]) := by
  intro j firmware' hj
  rcases getElem?_concat_eq_some.mp hj with hj | ⟨rfl, rfl⟩
  · exact h j firmware' hj
  · exact hfirmware

/-- A heap that was reserved becomes that of a new controller. -/
theorem addHeap {chipset : ChipsetInfo} {backing : Backing} {layout : ReservedLayout}
    (h : Booked count objects m) (hvram : m.hardware.config.hasVram = true)
    (hact : Action.reserveHeap chipset m = .ok (.ok (backing, layout)) m') :
    Booked count objects m' ∧ ∃ m'',
      Action.addController (.fresh chipset backing (some layout)) m' = .ok m'.roster.length m'' ∧
        Accounts (m'.roster ++ [none])
          (objects ++ m'.roster.flatMap FirmwareObjects.listed) m'' := by
  obtain ⟨hbooks, space, length, hbacking, hlends, hbase, hfits⟩ :=
    (@Action.reserveHeap_spec m.books chipset).of_ok rfl hact
  have h' := h.of_books hbooks
  have hvram' : m'.hardware.config.hasVram = true :=
    (congrArg (·.hardware.config.hasVram) hbooks).trans hvram
  have hstrategy : (Controller.fresh chipset backing (some layout)).strategy = m'.strategy := by
    rw [Machine.strategy, if_pos hvram']
    exact congrArg Backing.strategy hbacking
  obtain ⟨m'', hadd, hjoined, -⟩ := h'.accounts.addController rfl rfl hstrategy
    fun space' length' hbacking' => by
      obtain ⟨rfl, -⟩ := Backing.heap.inj (hbacking.symm.trans hbacking')
      exact ⟨hlends, hbase, hfits⟩
  exact ⟨h', m'', hadd, hjoined⟩

/-- **A controller is built on the heap with its firmware structures, or not at all.** -/
theorem buildOnHeap (chipset : ChipsetInfo) :
    Tries (fun m => Booked count objects m ∧ m.hardware.config.hasVram = true)
      (Action.buildOnHeap chipset : Action Device _)
      (fun i m => Booked (i + 1) objects m ∧ count ≤ i) (Booked count objects) := by
  rintro m ⟨h, hvram⟩
  have hreserve := @Action.reserveHeap_spec m.books chipset
  unfold Action.buildOnHeap
  cases hact : (Action.reserveHeap chipset : Action Device _) m with
  | error f m₁ =>
    rw [run_bind_of_error hact]
    exact h.of_books (hreserve.of_error rfl hact)
  | ok answer m₁ =>
    rw [run_bind_of_ok hact]
    cases answer with
    | error cause => exact h.of_books (hreserve.of_refused rfl hact)
    | ok reserved =>
      obtain ⟨h₁, m₂, hadd, h₂⟩ := h.addHeap hvram hact
      dsimp only
      rw [run_bind_of_ok hadd]
      refine (Accounts.equip m₁.roster reserved.2).weaken ?_ ?_ m₂ h₂
      · rintro i m ⟨rfl, firmware, h, howner⟩
        refine ⟨of_accounts (h.perm ?_) ?_ (owned_concat h₁.owned howner), h₁.count_le⟩
        · rw [List.flatMap_append, List.flatMap_singleton, ← List.append_assoc objects]
          exact List.perm_append_comm
        · rw [List.length_append]
          exact Nat.le_refl _
      · intro m h
        have hnone : ∀ o ∈ FirmwareObjects.listed none, o.owner = m₁.roster.length :=
          fun _ ho => absurd ho List.not_mem_nil
        refine of_accounts ?_ ?_ (owned_concat h₁.owned hnone)
        · rwa [List.flatMap_append, List.flatMap_singleton, FirmwareObjects.listed, List.append_nil]
        · exact Nat.le_trans h₁.count_le (List.length_append ▸ Nat.le_add_right _ _)

/-- A controller that takes nothing to be built is noted and joins the others. -/
theorem enlist (h : Booked count objects m) {n : Notice} {text : String} (hn : n.text = .ok text)
    (chipset : ChipsetInfo) (backing : Backing) (hstrategy : backing.strategy = m.strategy)
    (hheap : backing.strategy ≠ .heap) :
    ∃ i m', Action.enlist n (.fresh chipset backing none) m = .ok (.ok i) m' ∧
      Booked (i + 1) objects m' ∧ count ≤ i := by
  obtain ⟨m₁, hnote, hduring⟩ := h.accounts.during.note hn
  have h₁ := h.accounts.of_during hduring
  have hstrategy₁ : (Controller.fresh chipset backing none).strategy = m₁.strategy :=
    hstrategy.trans (Machine.strategy_of_plan (Machine.plan_of_frame hduring.steady.frame)).symm
  obtain ⟨m₂, hadd, h₂, -⟩ := h₁.addController rfl rfl hstrategy₁
    fun space length hbacking => absurd (congrArg Backing.strategy hbacking) hheap
  have hnone : ∀ o ∈ FirmwareObjects.listed none, o.owner = m.roster.length :=
    fun _ ho => absurd ho List.not_mem_nil
  unfold Action.enlist
  rw [run_bind_of_ok hnote, run_bind_of_ok hadd]
  refine ⟨m.roster.length, m₂, rfl, of_accounts ?_ ?_ (owned_concat h.owned hnone), h.count_le⟩
  · rwa [List.flatMap_append, List.flatMap_singleton, FirmwareObjects.listed, List.append_nil]
  · rw [List.length_append]
    exact Nat.le_refl _

/-- **A controller is built for what its device has, or not at all.** -/
theorem build :
    Tries (Booked count objects) (Action.build : Action Device _)
      (fun i m => Booked (i + 1) objects m ∧ count ≤ i) (Booked count objects) := by
  intro m h
  unfold Action.build
  rw [run_get_bind]
  dsimp only
  by_cases hfamily : ¬ (Platform.chipset m.hardware).family.isSupported
  · rw [if_pos hfamily]
    exact h
  · rw [if_neg hfamily]
    have hconfig : (Platform.chipset m.hardware).hasVram = m.hardware.config.hasVram := rfl
    by_cases hvram : (Platform.chipset m.hardware).hasVram = true
    · rw [if_pos hvram]
      exact buildOnHeap _ m ⟨h, hvram⟩
    · have hstrategy : m.strategy = if m.shared.isSome then .iommu else .dma := by
        rw [hconfig] at hvram
        rw [Machine.strategy, if_neg hvram]
      rw [if_neg hvram]
      by_cases hshared : m.shared.isSome = true
      · rw [if_pos hshared] at hstrategy ⊢
        obtain ⟨i, m', henlist, h'⟩ := h.enlist (n := .servingIommu) rfl (Platform.chipset m.hardware)
          .iommu hstrategy.symm (by decide)
        rw [henlist]
        exact h'
      · rw [if_neg hshared] at hstrategy ⊢
        obtain ⟨i, m', henlist, h'⟩ := h.enlist (n := .servingDma) rfl (Platform.chipset m.hardware)
          .dma hstrategy.symm (by decide)
        rw [henlist]
        exact h'

end Booked
end InstanceMemory
