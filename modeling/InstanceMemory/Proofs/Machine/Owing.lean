import InstanceMemory.Proofs.Machine.Aside
import InstanceMemory.Machine.Construction

/-!
# Operations on any platform

A platform may refuse anything that is asked of it, may fault instead, and may hand out what it
likes, the same page twice included; it must only take back what is given back to it (`TakesBack`).

`Owing start kept own m` says that an operation which began after the calls `start` has come to a
recording machine `m`, has its `own` items on loan there, and has left alone the items `kept`. So
every step is also one of the trace, and the ledger speaks of all moments of the operation. The
machine has one controller, without a heap and so without firmware structures. Each primitive action
**takes one item or is refused, or gives one item back**; all others leave what is owed alone.

An object is `Fitted` if it was made of system memory and its pages fit into its range, before the
last address of all.
-/

set_option autoImplicit false

namespace InstanceMemory

/-- A platform that takes back whatever is given back to it. -/
structure TakesBack (π : Type) [Platform π] : Prop where
  freePage : ∀ page (d : π × Journal), ∃ d', Platform.freePage page d = .ok () d'
  unmap : ∀ address size (d : π), ∃ bytes d', Platform.unmap address size d = .ok bytes d'
  freeBuffer : ∀ buffer attributes (d : π × Journal),
    ∃ d', Platform.freeBuffer buffer attributes d = .ok () d'

/-- An object of system memory whose pages fit into its range, before the last address of all. -/
def InstanceObject.Fitted (o : InstanceObject) : Prop :=
  match o.resource with
  | .heap _ => False
  | .iommu range pages => pages.length * pageSize ≤ range.length ∧
    range.base + pages.length * pageSize + 1 < addressLimit
  | .dma _ => True

theorem Resource.items_iommu_perm (owner : Nat) (range : AddressRange) (pages : List Nat) :
    (Item.slotsFrom range.base pages ++ .range .shared range :: pages.map Item.page).Perm
      ((Resource.iommu range pages).items owner) := by
  rw [Resource.items, List.append_assoc]
  exact (List.perm_append_singleton _ _).symm.append_left _

/-- The slots of an object behind the IOMMU rest on its range and its pages. -/
theorem Resource.backed_iommu {range : AddressRange} {pages : List Nat}
    (h : pages.length * pageSize ≤ range.length) (owner : Nat) :
    Item.Backed ((Resource.iommu range pages).items owner) := by
  have hlimit : range.base + pages.length * pageSize ≤ range.limit := Nat.add_le_add_left h _
  exact (Item.backed_slotsFrom (Nat.le_refl _) hlimit fun p hp => hp).perm
    (Resource.items_iommu_perm owner range pages)

theorem InstanceObject.Fitted.backed {o : InstanceObject} (h : o.Fitted) : Item.Backed o.items := by
  obtain ⟨owner, offset, size, isMisaligned, resource⟩ := o
  cases resource with
  | heap range => exact h.elim
  | iommu range pages => exact Resource.backed_iommu h.1 owner
  | dma buffer => exact Item.backed_of_slots_eq_nil rfl

/-- Exactly these ranges are out of the space of device addresses, if there is one. -/
def RangesOut (ranges : List AddressRange) : Option RangeSpace → Prop
  | none => ranges = []
  | some space => space.Sound ∧ space.allocated.Perm ranges

theorem RangesOut.perm {ranges others : List AddressRange} {shared : Option RangeSpace}
    (h : RangesOut ranges shared) (hperm : ranges.Perm others) : RangesOut others shared := by
  cases shared with
  | none =>
    obtain rfl : ranges = [] := h
    exact hperm.nil_eq.symm
  | some space => exact ⟨h.1, h.2.trans hperm⟩

/-- A machine with one controller, without a heap. -/
def Machine.Plain {π : Type} (m : Machine π) : Prop :=
  ∃ c, m.controllers = [c] ∧ c.strategy ≠ .heap ∧ c.firmware = none

/-- An operation that began after the calls `start` has come to a recording machine with items of
its own, and has left others alone. -/
structure Owing {π : Type} (start : List Call) (kept own : List Item) (m : Machine π) : Prop where
  recording : m.trace.isRecording = true
  shared : RangesOut (Item.rangesIn .shared (own ++ kept)) m.shared
  plain : m.Plain
  ledger : Ledger start kept own m.trace.calls.toList

variable {π α : Type} {start : List Call} {kept own others : List Item} {m : Machine π} {i : Nat}
  {call : Call} {F : Machine π → Prop}

theorem Machine.Plain.mapController {f : Controller → Controller} (h : m.Plain)
    (hf : ∀ c, m.controllers[i]? = some c →
      (f c).strategy = c.strategy ∧ (f c).firmware = c.firmware) :
    (m.mapController i f).Plain := by
  obtain ⟨c, hc, hstrategy, hfirmware⟩ := h
  cases i with
  | zero =>
    obtain ⟨hs, hw⟩ := hf c (by rw [hc]; rfl)
    exact ⟨f c, by rw [Machine.mapController, hc]; rfl, hs ▸ hstrategy, hw.trans hfirmware⟩
  | succ i =>
    have hsame : (m.mapController (i + 1) f).controllers = [c] := by
      simp only [Machine.mapController, hc, List.modify_succ_cons, List.modify_nil]
    exact ⟨c, hsame, hstrategy, hfirmware⟩

theorem Machine.Plain.strategy (h : m.Plain) : (m.controller 0).strategy ≠ .heap := by
  obtain ⟨c, hc, hstrategy, -⟩ := h
  rw [Machine.controller, hc]
  exact hstrategy

theorem Machine.Plain.firmware (h : m.Plain) (i : Nat) : (m.controller i).firmware = none := by
  obtain ⟨c, hc, -, hfirmware⟩ := h
  rw [Machine.controller, hc]
  cases i with
  | zero => exact hfirmware
  | succ i => rfl

namespace Owing

/-! ## The trace -/

/-- The order of the items does not matter. -/
theorem perm (h : Owing start kept own m) (hperm : own.Perm others) :
    Owing start kept others m where
  recording := h.recording
  shared := h.shared.perm ((hperm.append_right kept).filterMap _)
  plain := h.plain
  ledger := h.ledger.perm hperm

/-- **Another operation begins** with the items sorted anew. -/
theorem restart {own' kept' : List Item} (h : Owing start kept own m)
    (hperm : (own ++ kept).Perm (own' ++ kept')) (hbacked : Item.Backed kept') :
    Owing m.trace.calls.toList kept' own' m where
  recording := h.recording
  shared := h.shared.perm (hperm.filterMap _)
  plain := h.plain
  ledger := h.ledger.restart hperm hbacked

theorem onHardware (h : Owing start kept own m) (hardware : π) :
    Owing start kept own { m with hardware } :=
  ⟨h.recording, h.shared, h.plain, h.ledger⟩

theorem onJournal (h : Owing start kept own m) (journal : Journal) :
    Owing start kept own { m with journal } :=
  ⟨h.recording, h.shared, h.plain, h.ledger⟩

theorem onController {f : Controller → Controller} (h : Owing start kept own m)
    (hf : ∀ c, m.controllers[i]? = some c →
      (f c).strategy = c.strategy ∧ (f c).firmware = c.firmware) :
    Owing start kept own (m.mapController i f) :=
  ⟨h.recording, h.shared, h.plain.mapController hf, h.ledger⟩

/-- A notice with a text is noted. -/
theorem note (h : Owing start kept own m) {n : Notice} {text : String} (hn : n.text = .ok text) :
    Ends (fun _ => Owing start kept own) F (Action.note n m) :=
  Action.ends_note hn h.onJournal

/-- One more call settles the ledger and the space anew. -/
theorem entered {shared : Option RangeSpace} (h : Owing start kept own m)
    (hshared : RangesOut (Item.rangesIn .shared (others ++ kept)) shared)
    (honLoan : OnLoan (others ++ kept) (m.trace.calls.toList ++ [call]))
    (hbacked : Item.Backed others) :
    Owing start kept others { m with shared, trace := m.trace.record call } := by
  have hcalls : (m.trace.record call).calls.toList = m.trace.calls.toList ++ [call] := by
    simp only [Trace.record, h.recording, ↓reduceIte, Array.toList_push]
  have hrecording : (m.trace.record call).isRecording = true := by
    simp only [Trace.record, h.recording, ↓reduceIte]
  exact ⟨hrecording, hshared, h.plain, hcalls ▸ h.ledger.step honLoan hbacked⟩

/-- **One more call is recorded.** -/
theorem record {shared : Option RangeSpace} (h : Owing start kept own m)
    (hshared : RangesOut (Item.rangesIn .shared (others ++ kept)) shared)
    (honLoan : OnLoan (others ++ kept) (m.trace.calls.toList ++ [call]))
    (hbacked : Item.Backed others) :
    Ends (fun _ => Owing start kept others) F (Action.record call { m with shared }) := by
  unfold Action.record
  dsimp only
  rw [if_pos h.recording]
  exact h.entered hshared honLoan hbacked

/-- One more call is recorded that has nothing to do with ranges. -/
theorem recordElse (h : Owing start kept own m)
    (hranges : Item.rangesIn .shared others = Item.rangesIn .shared own)
    (honLoan : OnLoan (others ++ kept) (m.trace.calls.toList ++ [call]))
    (hbacked : Item.Backed others) :
    Ends (fun _ => Owing start kept others) F (Action.record call m) := by
  have hsame : Item.rangesIn .shared (others ++ kept) = Item.rangesIn .shared (own ++ kept) := by
    simp only [Item.rangesIn, List.filterMap_append] at hranges ⊢
    rw [hranges]
  exact h.record (hsame ▸ h.shared) honLoan hbacked

/-- **What goes on beside leaves what is owed alone.** -/
theorem aside (hbacked : Item.Backed own) :
    Aside (Owing start kept own : Machine π → Prop) where
  hardware _ hardware h := h.onHardware hardware
  journal _ journal h := h.onJournal journal
  interrupt _ h := ⟨h.recording, h.shared, h.plain, h.ledger⟩
  call _ _ htakes hgives h := h.entered h.shared (h.ledger.onLoan.pass htakes hgives) hbacked
  controller _ _ _ hf h := h.onController fun c hc =>
    ⟨congrArg Backing.strategy (hf c hc).1, (hf c hc).2⟩

/-- A controller without firmware structures leaves nothing behind. -/
theorem keeps_teardown [Platform π] (i : Nat) :
    Keeps (Owing start kept own) (Action.teardown i : Action π Unit) := by
  have hnote : ∀ n, Keeps (Owing start kept own) (Action.note n : Action π Unit) :=
    Action.keeps_note fun _ journal h => h.onJournal journal
  have hfirmware : Keeps (Owing start kept own) (Action.freeFirmware i : Action π Unit) := by
    apply keeps_get_bind
    intro m h
    rw [h.plain.firmware i]
    exact h
  have hdismiss : Keeps (Owing start kept own) (Action.dismiss i : Action π Unit) :=
    (hnote _).bind fun _ => Action.keeps_onController fun _ h =>
      h.onController fun _ _ => ⟨rfl, rfl⟩
  refine hfirmware.bind fun _ => keeps_get_bind fun m h => ?_
  dsimp only
  split
  · exact ((hnote _).bind fun _ => hdismiss) m h
  · exact hdismiss m h

/-! ## Ranges -/

/-- **A range is reserved or refused**; it is at least as large as was asked for. -/
theorem reserve (h : Owing start kept own m) (hbacked : Item.Backed own) (size align : Nat) :
    Ends (fun answer m => match answer with
      | .error _ => Owing start kept own m
      | .ok range => Owing start kept (.range .shared range :: own) m ∧ size ≤ range.length) F
      (Action.reserve .shared size align m) := by
  unfold Action.reserve
  rw [run_get_bind]
  cases hspace : m.space? .shared with
  | none => exact h
  | some space =>
    have hspace : m.shared = some space := hspace
    obtain ⟨hsound, hallocated⟩ := hspace ▸ h.shared
    obtain ⟨answer, hanswer, hreserved⟩ := hsound.reserve size align
    dsimp only
    rw [run_bind_of_ok (run_lift_of_ok hanswer m)]
    cases answer with
    | error cause =>
      have hrecord : Ends (fun _ => Owing start kept own) F
          (Action.record (.reserve .shared size align (.error cause)) m) :=
        h.recordElse rfl (h.ledger.onLoan.pass rfl rfl) hbacked
      exact hrecord.bind fun _ _ h => h
    | ok granted =>
      obtain ⟨range, next⟩ := granted
      obtain ⟨hnext, -, hperm, hleast, -⟩ := hreserved.granted_spec hsound
      have hranges : next.allocated.Perm
          (Item.rangesIn .shared (.range .shared range :: own ++ kept)) := by
        rw [List.cons_append, Item.rangesIn_cons_self]
        exact hperm.trans (hallocated.cons range)
      -- a range that was out already would be allocated twice
      have hnew : Item.range .shared range ∉ own ++ kept := by
        intro hmem
        exact (List.nodup_cons.mp (hperm.nodup_iff.mp hnext.allocated.nodup)).1
          (hallocated.mem_iff.mpr (Item.mem_rangesIn hmem))
      have honLoan : OnLoan (.range .shared range :: own ++ kept)
          (m.trace.calls.toList ++ [.reserve .shared size align (.ok range)]) :=
        h.ledger.onLoan.take (.range .shared range) rfl nofun fun _ _ => hnew
      have hrecord : Ends (fun _ => Owing start kept (.range .shared range :: own)) F
          (Action.record (.reserve .shared size align (.ok range))
            { m with shared := some next }) :=
        h.record ⟨hnext, hranges⟩ honLoan (hbacked.cons rfl)
      dsimp only
      rw [run_modify_bind]
      exact hrecord.bind fun _ _ h => ⟨h, hleast.le⟩

/-- **A range that is owed is released.** -/
theorem release {range : AddressRange} (h : Owing start kept (.range .shared range :: own) m)
    (hbacked : Item.Backed own) :
    Ends (fun _ => Owing start kept own) F (Action.release .shared range m) := by
  have hranges : Item.rangesIn .shared (.range .shared range :: own ++ kept) =
      range :: Item.rangesIn .shared (own ++ kept) := Item.rangesIn_cons_self _ _ _
  unfold Action.release
  rw [run_get_bind]
  dsimp only
  have hshared := h.shared
  rw [hranges] at hshared
  cases hspace : m.space? .shared with
  | none =>
    have hspace : m.shared = none := hspace
    rw [hspace] at hshared
    exact absurd hshared (List.cons_ne_nil _ _)
  | some space =>
    have hspace : m.shared = some space := hspace
    obtain ⟨hsound, hallocated⟩ := hspace ▸ hshared
    obtain ⟨next, hnext, hnextSound, -, hrest⟩ :=
      hsound.release (hallocated.mem_iff.mpr List.mem_cons_self) m.journal
    have hperm : next.allocated.Perm (Item.rangesIn .shared (own ++ kept)) := by
      have herase := hallocated.erase range
      rw [List.erase_cons_head] at herase
      exact hrest ▸ herase
    dsimp only
    rw [run_bind_of_ok (run_lift_of_ok hnext m)]
    dsimp only
    rw [run_modify_bind]
    have hnextOut : RangesOut (Item.rangesIn .shared (own ++ kept)) (some next) :=
      ⟨hnextSound, hperm⟩
    exact h.record hnextOut (h.ledger.onLoan.give rfl) hbacked

/-! ## Pages, mappings and buffers -/

variable [Platform π]

/-- **A page is taken or refused.** -/
theorem allocPage (h : Owing start kept own m) (hbacked : Item.Backed own) :
    Ends (fun page => Owing start kept (page.toList.map Item.page ++ own)) (Owing start kept own)
      (Action.allocPage m) := by
  have hact : Ends (fun _ => Owing start kept own) (Owing start kept own)
      (Action.onHardware Platform.allocPage m) :=
    .of_keeps (Action.keeps_onHardware fun _ h => h.onHardware _) h
  refine hact.bind ?_
  intro page m₁ h₁
  have hrecord : Ends (fun _ => Owing start kept (page.toList.map Item.page ++ own))
      (Owing start kept own) (Action.record (.allocPage page) m₁) := by
    cases page with
    | none => exact h₁.recordElse rfl (h₁.ledger.onLoan.pass rfl rfl) hbacked
    | some page =>
      refine h₁.recordElse rfl ?_ (hbacked.cons rfl)
      exact h₁.ledger.onLoan.take (.page page) rfl nofun
        fun hfresh _ => h₁.ledger.onLoan.page_not_mem hfresh
  exact hrecord.bind fun _ _ h => h

/-- **A page that is owed is given back.** -/
theorem freePage {page : Nat} (hback : TakesBack π) (h : Owing start kept (.page page :: own) m)
    (hbacked : Item.Backed own) :
    Ends (fun _ => Owing start kept own) F (Action.freePage page m) := by
  obtain ⟨⟨hardware, journal⟩, hfree⟩ := hback.freePage page (m.hardware, m.journal)
  unfold Action.freePage
  rw [run_get_bind, run_bind_of_ok (Action.run_onHardwareNoting_of_ok hfree)]
  exact ((h.onHardware hardware).onJournal journal).recordElse rfl (h.ledger.onLoan.give rfl)
    hbacked

/-- **A page is mapped or refused.** -/
theorem mapPage {address page : Nat} (h : Owing start kept own m) (hbacked : Item.Backed own)
    (hslot : Item.Backed (.slot address page :: own)) :
    Ends (fun answer => match answer with
      | .error _ => Owing start kept own
      | .ok () => Owing start kept (.slot address page :: own)) (Owing start kept own)
      (Action.mapPage address page m) := by
  have hact : Ends (fun _ => Owing start kept own) (Owing start kept own)
      (Action.onHardware (Platform.map address page pageSize .readWrite) m) :=
    .of_keeps (Action.keeps_onHardware fun _ h => h.onHardware _) h
  refine hact.bind ?_
  intro answer m₁ h₁
  cases answer with
  | error code =>
    have hrecord : Ends (fun _ => Owing start kept own) (Owing start kept own)
        (Action.record (.map address page pageSize .readWrite (.error code)) m₁) :=
      h₁.recordElse rfl (h₁.ledger.onLoan.pass rfl rfl) hbacked
    exact hrecord.bind fun _ _ h => h
  | ok _ =>
    have honLoan : OnLoan (.slot address page :: own ++ kept)
        (m₁.trace.calls.toList ++ [.map address page pageSize .readWrite (.ok ())]) := by
      refine h₁.ledger.onLoan.take (.slot address page) rfl ?_ nofun
      rintro _ _ _ _ ⟨⟩
      exact ⟨rfl, rfl⟩
    have hrecord : Ends (fun _ => Owing start kept (.slot address page :: own))
        (Owing start kept own)
        (Action.record (.map address page pageSize .readWrite (.ok ())) m₁) :=
      h₁.recordElse rfl honLoan hslot
    exact hrecord.bind fun _ _ h => h

/-- **A mapping that is owed is taken back.** -/
theorem unmapPage {address page : Nat} (hback : TakesBack π)
    (h : Owing start kept (.slot address page :: own) m) (hbacked : Item.Backed own) :
    Ends (fun _ => Owing start kept own) F (Action.unmapPage address m) := by
  obtain ⟨bytes, hardware, hunmap⟩ := hback.unmap address pageSize m.hardware
  unfold Action.unmapPage
  rw [run_get_bind, run_bind_of_ok (Action.run_onHardware_of_ok hunmap)]
  exact (h.onHardware hardware).recordElse rfl (h.ledger.onLoan.give rfl) hbacked

/-- **A buffer is taken or refused.** -/
theorem allocBuffer (h : Owing start kept own m) (hbacked : Item.Backed own) (size : Nat) :
    Ends (fun buffer => Owing start kept (buffer.toList.map Item.buffer ++ own))
      (Owing start kept own) (Action.allocBuffer size m) := by
  have hact : Ends (fun _ => Owing start kept own) (Owing start kept own)
      (Action.onHardware (Platform.allocBuffer size .instanceMemory) m) :=
    .of_keeps (Action.keeps_onHardware fun _ h => h.onHardware _) h
  refine hact.bind ?_
  intro buffer m₁ h₁
  have hrecord : Ends (fun _ => Owing start kept (buffer.toList.map Item.buffer ++ own))
      (Owing start kept own) (Action.record (.allocBuffer size .instanceMemory buffer) m₁) := by
    cases buffer with
    | none => exact h₁.recordElse rfl (h₁.ledger.onLoan.pass rfl rfl) hbacked
    | some buffer =>
      refine h₁.recordElse rfl ?_ (hbacked.cons rfl)
      exact h₁.ledger.onLoan.take (.buffer buffer) rfl nofun nofun
  exact hrecord.bind fun _ _ h => h

/-- **A buffer that is owed is given back.** -/
theorem freeBuffer {buffer : Buffer} (hback : TakesBack π)
    (h : Owing start kept (.buffer buffer :: own) m) (hbacked : Item.Backed own) :
    Ends (fun _ => Owing start kept own) F (Action.freeBuffer buffer m) := by
  obtain ⟨⟨hardware, journal⟩, hfree⟩ :=
    hback.freeBuffer buffer .instanceMemory (m.hardware, m.journal)
  unfold Action.freeBuffer
  rw [run_bind_of_ok (Action.run_onHardwareNoting_of_ok hfree)]
  exact ((h.onHardware hardware).onJournal journal).recordElse rfl (h.ledger.onLoan.give rfl)
    hbacked

end Owing
end InstanceMemory
