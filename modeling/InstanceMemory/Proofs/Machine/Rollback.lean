import InstanceMemory.Proofs.Machine.Owing
import InstanceMemory.Scripted.Board

/-!
# Placements that fail are rolled back

Placing an object behind the IOMMU takes pages, then a range, then a mapping for each page, and any
step can be refused. What a placement has come to is said by `Acquired`, and with it **which calls
have been made by then** (`Acquired.calls`) and **which calls undo them** (`Acquired.undoing`): the
latter are the mirror image of the former (`Acquired.mirrors`).

`Action.placeBehindIommu_traced` is the law. A placement that succeeds has made the calls that
acquire its object and no others; one that is refused has made, after the refused call, exactly the
calls that undo what it had come to. A platform may also fault: then what was acquired is undone as
well, and the calls break off early only if the platform faults again while it takes things back.

One stop is of the placement's own making. After the address of the last slot it draws one more, which
there is not if the range reaches up to the last address of all: then every slot is mapped, and every
slot is undone. Only a space in steps of one has such a range.

`Logged calls space m` follows the run call by call. Each stage of a placement has an action that
undoes it (`Undoes`), which is what a step runs when it is refused (`Undoes.refuse`) or faults
(`Undoes.orUndo`). Nothing is said of the contents of the pages, nor of the text of any notice.
-/

set_option autoImplicit false

namespace InstanceMemory

/-! ## What a placement comes to -/

/-- The later calls give back what the earlier ones took, the newest first. -/
def Mirrors (taking giving : List Call) : Prop :=
  giving.filterMap Call.gives = (taking.filterMap Call.takes).reverse

/-- What a placement behind the IOMMU has come to: some of its pages, or all of them and a range,
the first slots of which are mapped. The pages are listed the oldest first. -/
inductive Acquired
  | paging (pages : List Nat)
  | mapping (pages : List Nat) (range : AddressRange) (slots : Nat)

namespace Acquired

/-- All of a placement: every page is mapped. -/
abbrev whole (pages : List Nat) (range : AddressRange) : Acquired :=
  mapping pages range pages.length

/-- The calls that map pages to the slots from a device address on, the first slot first. -/
def mappings (base : Nat) (pages : List Nat) : List Call :=
  pages.mapIdx fun slot page => .map (base + slot * pageSize) page pageSize .readWrite (.ok ())

/-- The calls that take back the mappings of the slots from a device address on, the last slot
first. -/
def unmappings (held base slots : Nat) : List Call :=
  (List.range slots).reverse.map fun slot => .unmap (base + slot * pageSize) pageSize held

/-- The calls by which a placement of `size` at `align` came to this. -/
def calls (size align : Nat) : Acquired → List Call
  | .paging pages => pages.map fun page => .allocPage (some page)
  | .mapping pages range slots =>
    pages.map (fun page => .allocPage (some page)) ++
      .reserve .shared size align (.ok range) :: mappings range.base (pages.take slots)

/-- The calls that undo this, where `held` other ranges are reserved: the mapped slots, then the
range, then the pages, each the newest first. -/
def undoing (held : Nat) : Acquired → List Call
  | .paging pages => pages.reverse.map (.freePage · held)
  | .mapping pages range slots =>
    unmappings (held + 1) range.base slots ++
      .release .shared range :: pages.reverse.map (.freePage · held)

/-- This can be come to on the way to a number of pages. -/
def Within (count : Nat) : Acquired → Prop
  | .paging pages => pages.length ≤ count
  | .mapping pages _ slots => pages.length = count ∧ slots ≤ count

theorem mappings_concat (base : Nat) (pages : List Nat) (page : Nat) :
    mappings base (pages ++ [page]) = mappings base pages ++
      [.map (base + pages.length * pageSize) page pageSize .readWrite (.ok ())] :=
  List.mapIdx_concat

theorem unmappings_succ (held base slots : Nat) :
    unmappings held base (slots + 1) =
      .unmap (base + slots * pageSize) pageSize held :: unmappings held base slots := by
  simp only [unmappings, List.range_succ, List.reverse_append, List.reverse_cons, List.reverse_nil,
    List.nil_append, List.singleton_append, List.map_cons]

theorem calls_paging_concat (size align page : Nat) (taken : List Nat) :
    (paging (taken ++ [page])).calls size align =
      (paging taken).calls size align ++ [.allocPage (some page)] := by
  simp only [calls, List.map_append, List.map_cons, List.map_nil]

/-- One more slot is one more mapping. -/
theorem calls_mapping_succ {slot page : Nat} {all : List Nat} (h : all[slot]? = some page)
    (size align : Nat) (range : AddressRange) :
    (mapping all range (slot + 1)).calls size align = (mapping all range slot).calls size align ++
      [.map (range.base + slot * pageSize) page pageSize .readWrite (.ok ())] := by
  obtain ⟨hlt, -⟩ := List.getElem?_eq_some_iff.mp h
  have hlength : (all.take slot).length = slot := List.length_take_of_le (Nat.le_of_lt hlt)
  simp only [calls, List.take_add_one, h, Option.toList_some, mappings_concat, hlength,
    List.append_assoc, List.cons_append]

/-- **Each call of an undoing gives back what a call before it took, the newest first.** -/
theorem mirrors {count : Nat} {done : Acquired} (h : done.Within count) (size align held : Nat) :
    Mirrors (done.calls size align) (done.undoing held) := by
  unfold Mirrors
  have hpages : ∀ pages : List Nat, (pages.reverse.map (Call.freePage · held)).filterMap Call.gives =
      ((pages.map fun page => Call.allocPage (some page)).filterMap Call.takes).reverse := by
    intro pages
    simp only [List.filterMap_map, ← List.filterMap_reverse]
    rfl
  have hslots : ∀ (base : Nat) (pages : List Nat),
      (unmappings (held + 1) base pages.length).filterMap Call.gives =
        ((mappings base pages).filterMap Call.takes).reverse := by
    intro base pages
    induction pages using List.reverseRecOn with
    | nil => rfl
    | append_singleton pages page ih =>
      rw [List.length_append, List.length_singleton, unmappings_succ, mappings_concat,
        List.filterMap_append, List.reverse_append, ← ih]
      rfl
  cases done with
  | paging pages => exact hpages pages
  | mapping pages range slots =>
    obtain ⟨hlength, hslot⟩ := h
    have htake : (pages.take slots).length = slots := List.length_take_of_le (by omega)
    have hmapped := hslots range.base (pages.take slots)
    rw [htake] at hmapped
    simp only [undoing, calls, List.filterMap_append, List.filterMap_cons, Call.gives, Call.takes,
      hmapped, hpages, List.reverse_append, List.reverse_cons, List.append_assoc,
      List.singleton_append]

end Acquired

/-- The calls that can be refused on the way to an object of `size`, with what the placement had
come to and what it answers. -/
inductive Stops (size align : Nat) : Acquired → Call → Error → Prop
  | page {pages : List Nat} : pages.length < size / pageSize →
    Stops size align (.paging pages) (.allocPage none) .outOfMemory
  | range {pages : List Nat} {cause : Error} : pages.length = size / pageSize →
    Stops size align (.paging pages) (.reserve .shared size align (.error cause)) cause
  | slot {pages : List Nat} {range : AddressRange} {slot page : Nat} {code : Int} :
    pages.length = size / pageSize → pages[slot]? = some page →
    Stops size align (.mapping pages range slot)
      (.map (range.base + slot * pageSize) page pageSize .readWrite (.error code))
      (.platformFailed (.refusedMapping (range.base + slot * pageSize) code))

theorem Stops.within {size align : Nat} {done : Acquired} {call : Call} {cause : Error}
    (h : Stops size align done call cause) : done.Within (size / pageSize) := by
  cases h with
  | page hlt => exact Nat.le_of_lt hlt
  | range hlength => exact Nat.le_of_eq hlength
  | slot hlength hslot =>
    obtain ⟨hlt, -⟩ := List.getElem?_eq_some_iff.mp hslot
    exact ⟨hlength, hlength ▸ Nat.le_of_lt hlt⟩

/-- **How a placement behind the IOMMU comes out**, and which calls have been made by then after
those of `start`, where `held` ranges were reserved before. -/
inductive Rollback {π : Type} [Platform π] (i size align held : Nat) (start : List Call) :
    EStateM.Result Fault (Machine π) (Except Error InstanceObject) → Prop
  | placed {pages : List Nat} {range : AddressRange} {m : Machine π} :
    pages.length = size / pageSize → range.base + pages.length * pageSize + 1 < addressLimit →
    m.trace.calls.toList =
      start ++ (Acquired.whole pages range).calls size align →
    Rollback i size align held start
      (.ok (.ok ⟨i, setResolveBit range.base, size, false, .iommu range pages⟩) m)
  | refused {done : Acquired} {call : Call} {cause : Error} {m : Machine π} :
    Stops size align done call cause →
    Mirrors (done.calls size align) (done.undoing held) →
    m.trace.calls.toList =
      start ++ done.calls size align ++ [call] ++ done.undoing held →
    Rollback i size align held start (.ok (.error cause) m)
  /-- The platform faulted in place of an answer. -/
  | faulted {done : Acquired} {made : List Call} {f : Fault} {m : Machine π} :
    done.Within (size / pageSize) →
    Mirrors (done.calls size align) (done.undoing held) →
    made <+: done.undoing held → (TakesBack π → made = done.undoing held) →
    m.trace.calls.toList = start ++ done.calls size align ++ made →
    Rollback i size align held start (.error f m)
  /-- All pages are mapped, and there is no address to draw after the last slot. -/
  | overrun {pages : List Nat} {range : AddressRange} {made : List Call} {f : Fault} {m : Machine π} :
    pages.length = size / pageSize → addressLimit ≤ range.base + pages.length * pageSize + 1 →
    Mirrors ((Acquired.whole pages range).calls size align)
      ((Acquired.whole pages range).undoing held) →
    made <+: (Acquired.whole pages range).undoing held →
    (TakesBack π → made = (Acquired.whole pages range).undoing held) →
    m.trace.calls.toList = start ++ (Acquired.whole pages range).calls size align ++ made →
    Rollback i size align held start (.error f m)
  /-- The platform refused, and faulted while the placement was undone. -/
  | brokenOff {done : Acquired} {call : Call} {cause : Error} {made : List Call} {f : Fault}
      {m : Machine π} :
    Stops size align done call cause → ¬ TakesBack π → made <+: done.undoing held →
    m.trace.calls.toList = start ++ done.calls size align ++ [call] ++ made →
    Rollback i size align held start (.error f m)

/-! ## Call by call -/

variable {π : Type}

/-- A recording machine on which these calls have been made, with this space of device addresses. -/
structure Logged (calls : List Call) (space : RangeSpace) (m : Machine π) : Prop where
  recording : m.trace.isRecording = true
  calls : m.trace.calls.toList = calls
  shared : m.shared = some space

/-- The platform faulted while calls were made to undo something. -/
def BrokenOff [Platform π] (calls undoing : List Call) (m : Machine π) : Prop :=
  ¬ TakesBack π ∧ ∃ made, made <+: undoing ∧ m.trace.calls.toList = calls ++ made

variable {calls : List Call} {space : RangeSpace} {m : Machine π}

namespace Logged

theorem onHardware (h : Logged calls space m) (hardware : π) :
    Logged calls space { m with hardware } :=
  ⟨h.recording, h.calls, h.shared⟩

theorem onJournal (h : Logged calls space m) (journal : Journal) :
    Logged calls space { m with journal } :=
  ⟨h.recording, h.calls, h.shared⟩

theorem onSpace (h : Logged calls space m) (next : RangeSpace) :
    Logged calls next { m with shared := some next } :=
  ⟨h.recording, h.calls, rfl⟩

/-- The ranges that a call is recorded with. -/
theorem held (h : Logged calls space m) : m.held = space.allocated.length := by
  unfold Machine.held
  rw [h.shared]
  rfl

theorem note {F : Machine π → Prop} (h : Logged calls space m) {n : Notice} {text : String}
    (hn : n.text = .ok text) : Ends (fun _ => Logged calls space) F (Action.note n m) :=
  Action.ends_note hn h.onJournal

/-- **One more call is recorded.** -/
theorem record {F : Machine π → Prop} (h : Logged calls space m) (call : Call) :
    Ends (fun _ => Logged (calls ++ [call]) space) F (Action.record call m) := by
  rw [Action.record_eq]
  refine ⟨?_, ?_, h.shared⟩
  · simp only [Trace.record, h.recording, ↓reduceIte]
  · simp only [Trace.record, h.recording, ↓reduceIte, Array.toList_push, h.calls]

/-- A range is reserved or refused, and no fault comes in between. -/
theorem reserve (h : Logged calls space m) (hs : space.Sound) (size align : Nat) :
    Ends (fun answer m => match answer with
      | .error cause => Logged (calls ++ [.reserve .shared size align (.error cause)]) space m
      | .ok range => size ≤ range.length ∧ ∃ next : RangeSpace, next.Sound ∧
        next.allocated.Perm (range :: space.allocated) ∧
        Logged (calls ++ [.reserve .shared size align (.ok range)]) next m)
      (fun _ => False) (Action.reserve .shared size align m) := by
  obtain ⟨answer, hanswer, hreserved⟩ := hs.reserve size align
  have hspace : m.space? .shared = some space := h.shared
  unfold Action.reserve
  rw [run_get_bind, hspace]
  dsimp only
  rw [run_bind_of_ok (run_lift_of_ok hanswer m)]
  cases answer with
  | error cause => exact (h.record (.reserve .shared size align (.error cause))).bind fun _ _ h => h
  | ok granted =>
    obtain ⟨range, next⟩ := granted
    obtain ⟨hnext, -, hperm, hleast, -⟩ := hreserved.granted_spec hs
    dsimp only
    rw [run_modify_bind]
    refine ((h.onSpace next).record (.reserve .shared size align (.ok range))).bind fun _ _ h => ?_
    exact ⟨hleast.le, next, hnext, hperm, h⟩

/-- An outstanding range goes back. -/
theorem release {range : AddressRange} {F : Machine π → Prop} (h : Logged calls space m)
    (hs : space.Sound) (hr : range ∈ space.allocated) :
    Ends (fun _ m => ∃ next : RangeSpace, next.allocated = space.allocated.erase range ∧
      Logged (calls ++ [.release .shared range]) next m) F (Action.release .shared range m) := by
  obtain ⟨next, hnext, -, -, hrest⟩ := hs.release hr m.journal
  have hspace : m.space? .shared = some space := h.shared
  unfold Action.release
  rw [run_get_bind]
  dsimp only
  rw [hspace]
  dsimp only
  rw [run_bind_of_ok (run_lift_of_ok hnext m)]
  dsimp only
  rw [run_modify_bind]
  refine Ends.imp (((h.onSpace next).onJournal m.journal).record (.release .shared range)) ?_
  exact fun _ _ h => ⟨next, hrest, h⟩

variable [Platform π]

theorem allocPage (h : Logged calls space m) :
    Ends (fun page => Logged (calls ++ [.allocPage page]) space) (Logged calls space)
      (Action.allocPage m) :=
  ((Action.ends_onHardware h.onHardware).imp_fault fun _ h => h.1).bind fun page _ h =>
    (h.record (.allocPage page)).bind fun _ _ h => h

theorem mapPage (h : Logged calls space m) (address page : Nat) :
    Ends (fun answer => Logged (calls ++ [.map address page pageSize .readWrite answer]) space)
      (Logged calls space) (Action.mapPage address page m) :=
  ((Action.ends_onHardware h.onHardware).imp_fault fun _ h => h.1).bind fun answer _ h =>
    (h.record (.map address page pageSize .readWrite answer)).bind fun _ _ h => h

/-- A page goes back, unless the platform faults over it. -/
theorem freePage (h : Logged calls space m) (page : Nat) :
    Ends (fun _ => Logged (calls ++ [.freePage page space.allocated.length]) space)
      (fun m => Logged calls space m ∧ ¬ TakesBack π) (Action.freePage page m) := by
  unfold Action.freePage
  rw [run_get_bind, h.held]
  have hasked : ∀ hardware journal, Logged calls space { m with hardware, journal } :=
    fun hardware journal => (h.onHardware hardware).onJournal journal
  refine ((Action.ends_onHardwareNoting hasked).imp_fault fun _ h => ⟨h.1, fun hback => ?_⟩).bind
    fun _ _ h => h.record _
  exact h.2 ⟨(), hback.freePage page _⟩

/-- A mapping is taken back, unless the platform faults over it. -/
theorem unmapPage (h : Logged calls space m) (address : Nat) :
    Ends (fun _ => Logged (calls ++ [.unmap address pageSize space.allocated.length]) space)
      (fun m => Logged calls space m ∧ ¬ TakesBack π) (Action.unmapPage address m) := by
  unfold Action.unmapPage
  rw [run_get_bind, h.held]
  refine ((Action.ends_onHardware h.onHardware).imp_fault fun _ h => ⟨h.1, fun hback => ?_⟩).bind
    fun _ _ h => h.record _
  exact h.2 (hback.unmap address pageSize _)

end Logged

/-! ## Undoing -/

variable [Platform π]

namespace BrokenOff

variable {first rest undoing : List Call}

/-- The platform faulted over the first call. -/
theorem of_logged (h : Logged calls space m ∧ ¬ TakesBack π) : BrokenOff calls undoing m :=
  ⟨h.2, [], List.nil_prefix, by rw [h.1.calls, List.append_nil]⟩

theorem weaken (h : BrokenOff calls first m) : BrokenOff calls (first ++ rest) m :=
  have ⟨hback, made, hmade, hcalls⟩ := h
  ⟨hback, made, hmade.trans (List.prefix_append first rest), hcalls⟩

theorem shift (h : BrokenOff (calls ++ first) rest m) : BrokenOff calls (first ++ rest) m := by
  obtain ⟨hback, made, hmade, hcalls⟩ := h
  exact ⟨hback, first ++ made, (List.prefix_append_right_inj first).mpr hmade,
    by rw [hcalls, List.append_assoc]⟩

end BrokenOff

namespace Logged

/-- **Pages go back from the head of the list on.** -/
theorem freePages (h : Logged calls space m) (pages : List Nat) :
    Ends (fun _ => Logged (calls ++ pages.map (.freePage · space.allocated.length)) space)
      (BrokenOff calls (pages.map (.freePage · space.allocated.length)))
      (Action.freePages pages m) := by
  induction pages generalizing calls m with
  | nil =>
    rw [List.map_nil, List.append_nil]
    exact h
  | cons page rest ih =>
    refine ((h.freePage page).imp_fault fun _ => BrokenOff.of_logged).bind fun _ m₁ h₁ => ?_
    have hrest := (ih h₁).imp_fault fun _ h => h.shift
    rwa [List.append_assoc] at hrest

/-- **Slots are taken back, the last first.** -/
theorem unmapSlots (h : Logged calls space m) (base slots : Nat) :
    Ends (fun _ => Logged (calls ++ Acquired.unmappings space.allocated.length base slots) space)
      (BrokenOff calls (Acquired.unmappings space.allocated.length base slots))
      (Action.unmapSlots base slots m) := by
  induction slots generalizing calls m with
  | zero =>
    rw [Acquired.unmappings, List.range_zero, List.reverse_nil, List.map_nil, List.append_nil]
    exact h
  | succ slots ih =>
    rw [Acquired.unmappings_succ]
    refine ((h.unmapPage _).imp_fault fun _ => BrokenOff.of_logged).bind fun _ m₁ h₁ => ?_
    have hrest := (ih h₁).imp_fault fun _ h => h.shift
    rwa [List.append_assoc] at hrest

end Logged

/-- An action undoes what a placement has come to, where `held` other ranges are reserved. -/
def Undoes (space : RangeSpace) (held : Nat) (done : Acquired) (undo : Action π Unit) : Prop :=
  ∀ calls m, Logged calls space m →
    Ends (fun _ m => m.trace.calls.toList = calls ++ done.undoing held)
      (BrokenOff calls (done.undoing held)) (undo m)

/-- Pages alone are given back. -/
theorem undoes_freePages (space : RangeSpace) (taken : List Nat) :
    Undoes space space.allocated.length (.paging taken.reverse)
      (Action.freePages taken : Action π Unit) := by
  intro calls m h
  rw [Acquired.undoing, List.reverse_reverse]
  exact (h.freePages taken).imp fun _ _ h => h.calls

/-- **A placement under way is undone**: the slots, then the range, then the pages. -/
theorem undoes_undoPlacement {space next : RangeSpace} {range : AddressRange} (hs : next.Sound)
    (hperm : next.allocated.Perm (range :: space.allocated)) (slots : Nat) (taken : List Nat) :
    Undoes next space.allocated.length (.mapping taken.reverse range slots)
      (Action.undoPlacement range slots taken : Action π Unit) := by
  intro calls m h
  have hheld : next.allocated.length = space.allocated.length + 1 := hperm.length_eq
  have hmem : range ∈ next.allocated := hperm.mem_iff.mpr List.mem_cons_self
  have hslots := h.unmapSlots range.base slots
  rw [hheld] at hslots
  rw [Acquired.undoing, List.reverse_reverse]
  refine (hslots.imp_fault fun _ h => h.weaken).bind fun _ m₁ h₁ => ?_
  refine (h₁.release hs hmem).bind fun _ m₂ h₂ => ?_
  obtain ⟨last, hlast, h₂⟩ := h₂
  have hless : last.allocated.length = space.allocated.length := by
    rw [hlast, List.length_erase_of_mem hmem, hheld, Nat.add_sub_cancel]
  have hpages := h₂.freePages taken
  rw [hless] at hpages
  refine (hpages.imp fun _ _ h => ?_).imp_fault fun _ h => h.shift.shift
  rw [h.calls, List.append_assoc, List.append_assoc]
  rfl

/-! ## Steps that are undone -/

section

variable {size align held : Nat} {done : Acquired} {undo : Action π Unit} {α : Type} {i : Nat}
  {start : List Call} {call : Call} {cause : Error}

/-- A placement that comes to a fault comes to one of its outcomes. -/
def Faults (i size align held : Nat) (start : List Call) (m : Machine π) : Prop :=
  ∀ f, Rollback i size align held start (.error f m)

/-- **A step that faults is undone.** -/
theorem Undoes.orUndo {Q : α → Machine π → Prop} {act : Action π α}
    (h : Undoes space held done undo) (hdone : done.Within (size / pageSize))
    (hact : Ends Q (Logged (start ++ done.calls size align) space) (act m)) :
    Ends Q (Faults i size align held start) (Action.orUndo act undo m) := by
  refine Action.ends_orUndo hact fun m₁ h₁ => ?_
  refine ((h _ m₁ h₁).imp fun _ m₂ hcalls f => ?_).imp_fault fun m₂ hbroken f => ?_
  · exact .faulted hdone (Acquired.mirrors hdone ..) List.prefix_rfl (fun _ => rfl) hcalls
  · obtain ⟨hback, made, hmade, hcalls⟩ := hbroken
    exact .faulted hdone (Acquired.mirrors hdone ..) hmade (fun h => absurd h hback) hcalls

/-- **An address that cannot be drawn** after the last slot is undone. -/
theorem Undoes.draw {range : AddressRange} {pages : List Nat}
    (h : Undoes space held (.whole pages range) undo) (hcount : pages.length = size / pageSize)
    (hm : Logged (start ++ (Acquired.whole pages range).calls size align) space m) :
    Ends (fun _ m' => m' = m ∧ range.base + pages.length * pageSize + 1 < addressLimit)
      (Faults i size align held start)
      (Action.orUndo (liftM (Action.drawAddress (range.base + pages.length * pageSize))) undo m) := by
  have hwithin : (Acquired.whole pages range).Within (size / pageSize) :=
    ⟨hcount, Nat.le_of_eq hcount⟩
  have hmirrors := Acquired.mirrors hwithin size align held
  have hdraw := Action.ends_drawAddress (range.base + pages.length * pageSize) m
  refine Action.ends_orUndo hdraw ?_
  rintro _ ⟨rfl, hover⟩
  refine ((h _ _ hm).imp fun _ m₂ hcalls f => ?_).imp_fault fun m₂ hbroken f => ?_
  · exact .overrun hcount hover hmirrors List.prefix_rfl (fun _ => rfl) hcalls
  · obtain ⟨hback, made, hmade, hcalls⟩ := hbroken
    exact .overrun hcount hover hmirrors hmade (fun h => absurd h hback) hcalls

/-- **A step that is refused is undone**, once the refusal has been noted. -/
theorem Undoes.refuse {n : Notice} {text : String} (h : Undoes space held done undo)
    (hstops : Stops size align done call cause) (hn : n.text = .ok text)
    (hm : Logged (start ++ done.calls size align ++ [call]) space m) (a : α) :
    Ends (fun answer m => answer = a ∧ Rollback i size align held start (.ok (.error cause) m))
      (Faults i size align held start)
      ((do Action.note n; undo; return a : Action π α) m) := by
  refine (hm.note hn).bind fun _ m₁ h₁ => ?_
  have hundo : Ends (fun _ m => Rollback i size align held start (.ok (.error cause) m))
      (Faults i size align held start) (undo m₁) := by
    refine ((h _ m₁ h₁).imp fun _ m₂ hcalls => ?_).imp_fault fun m₂ hbroken f => ?_
    · exact .refused hstops (Acquired.mirrors hstops.within ..) hcalls
    · obtain ⟨hback, made, hmade, hcalls⟩ := hbroken
      exact .brokenOff hstops hback hmade hcalls
  exact hundo.bind fun _ _ h => ⟨rfl, h⟩

/-! ## The stages of a placement -/

/-- **Pages are taken one after the other**, and given back if one is refused. -/
theorem Logged.takePages {more : Nat} {taken : List Nat}
    (h : Logged (start ++ (Acquired.paging taken.reverse).calls size align) space m)
    (hcount : taken.length + more = size / pageSize) :
    Ends (fun answer m => match answer with
      | none => Rollback i size align space.allocated.length start (.ok (.error .outOfMemory) m)
      | some all => all.length = size / pageSize ∧
        Logged (start ++ (Acquired.paging all.reverse).calls size align) space m)
      (Faults i size align space.allocated.length start)
      (Action.takePages (size / pageSize) more taken m) := by
  induction more generalizing m taken with
  | zero => exact ⟨hcount, h⟩
  | succ more ih =>
    have hlength : taken.reverse.length < size / pageSize := by
      rw [List.length_reverse]
      omega
    have hundoes : Undoes space _ _ (Action.freePages taken : Action π Unit) :=
      undoes_freePages space taken
    unfold Action.takePages
    refine (hundoes.orUndo (Nat.le_of_lt hlength) h.allocPage).bind fun page m₁ h₁ => ?_
    cases page with
    | some page =>
      rw [List.append_assoc, ← Acquired.calls_paging_concat, ← List.reverse_cons] at h₁
      exact ih h₁ (by rw [List.length_cons]; omega)
    | none =>
      refine (hundoes.refuse (.page hlength) rfl h₁ none).imp ?_
      rintro _ _ ⟨rfl, h⟩
      exact h

/-- **Pages are mapped to the slots in order**, and everything is undone if a mapping is refused. -/
theorem Logged.mapPages {range : AddressRange} {next : RangeSpace} {taken rest : List Nat}
    {slots address : Nat}
    (h : Logged (start ++ (Acquired.mapping taken.reverse range slots).calls size align) next m)
    (hs : next.Sound) (hperm : next.allocated.Perm (range :: space.allocated))
    (hcount : taken.length = size / pageSize) (hfits : taken.length * pageSize ≤ range.length)
    (hrest : taken.reverse.drop slots = rest) (hslots : slots ≤ taken.length)
    (haddress : address = range.base + slots * pageSize) :
    Ends (fun answer m => match answer with
      | .error cause => Rollback i size align space.allocated.length start (.ok (.error cause) m)
      | .ok () => range.base + taken.length * pageSize + 1 < addressLimit ∧
        m.trace.calls.toList = start ++
          (Acquired.mapping taken.reverse range taken.length).calls size align)
      (Faults i size align space.allocated.length start)
      (Action.mapPages range taken rest slots address m) := by
  have hall : taken.reverse.length = size / pageSize := by rw [List.length_reverse, hcount]
  have hlimit : range.limit < addressLimit :=
    hs.range_limit_lt (hperm.mem_iff.mpr List.mem_cons_self)
  have hundoes : ∀ slots, Undoes next space.allocated.length (.mapping taken.reverse range slots)
      (Action.undoPlacement range slots taken : Action π Unit) :=
    fun slots => undoes_undoPlacement hs hperm slots taken
  induction rest generalizing m slots address with
  | nil =>
    have hlast : slots = taken.reverse.length :=
      Nat.le_antisymm (List.length_reverse.symm ▸ hslots) (List.drop_eq_nil_iff.mp hrest)
    subst hlast haddress
    unfold Action.mapPages
    refine ((hundoes _).draw hall h).bind ?_
    rintro _ _ ⟨rfl, hdraw⟩
    rw [List.length_reverse] at hdraw h
    exact ⟨hdraw, h.calls⟩
  | cons page rest ih =>
    have hslot : taken.reverse[slots]? = some page := by
      have hget := congrArg (·[0]?) hrest
      simpa only [List.getElem?_drop, Nat.add_zero, List.getElem?_cons_zero] using hget
    have hlt : slots < taken.length := by
      obtain ⟨hlt, -⟩ := List.getElem?_eq_some_iff.mp hslot
      rwa [List.length_reverse] at hlt
    have hwithin : (Acquired.mapping taken.reverse range slots).Within (size / pageSize) :=
      ⟨hall, hcount ▸ hslots⟩
    -- the slot lies in the range, so the address is not the last of all
    have hdraw : address + 1 < addressLimit := by
      have := Nat.mul_le_mul_right pageSize (Nat.succ_le_of_lt hlt)
      rw [Nat.succ_mul] at this
      unfold AddressRange.limit at hlimit
      unfold pageSize at *
      omega
    rw [Action.mapPages_cons hdraw]
    refine ((hundoes slots).orUndo hwithin (h.mapPage address page)).bind fun answer m₁ h₁ => ?_
    rw [haddress] at h₁
    cases answer with
    | error code =>
      refine ((hundoes slots).refuse (.slot hall hslot) rfl h₁ _).imp ?_
      rintro _ _ ⟨rfl, h⟩
      rwa [← haddress] at h
    | ok _ =>
      rw [List.append_assoc, ← Acquired.calls_mapping_succ hslot] at h₁
      refine ih h₁ ?_ hlt ?_
      · rw [← List.drop_drop, hrest]
        rfl
      · rw [haddress, Nat.succ_mul, Nat.add_assoc]

end

/-- **A placement behind the IOMMU is all or nothing, call by call.** -/
theorem Action.placeBehindIommu_traced (i align : Nat) {size : Nat}
    (hrecording : m.trace.isRecording = true) (hspace : m.shared = some space)
    (hsound : space.Sound) (hsize : size ≤ space.capacity) :
    Rollback i size align space.allocated.length m.trace.calls.toList
      (Action.placeBehindIommu i size align m) := by
  have hcapacity : ¬ (m.shared.map (·.capacity)).getD 0 < size := by
    rw [hspace]
    exact Nat.not_lt.mpr hsize
  suffices Ends (fun answer m' => Rollback i size align space.allocated.length
      m.trace.calls.toList (.ok answer m'))
      (Faults i size align space.allocated.length m.trace.calls.toList)
      (Action.placeBehindIommu i size align m) by
    cases hrun : Action.placeBehindIommu i size align m with
    | ok answer m' => exact this.of_ok hrun
    | error f m' => exact this.of_error hrun f
  have hnothing : Logged (m.trace.calls.toList ++
      (Acquired.paging ([] : List Nat).reverse).calls size align) space m :=
    ⟨hrecording, (List.append_nil _).symm, hspace⟩
  unfold Action.placeBehindIommu
  rw [run_get_bind]
  dsimp only
  rw [if_neg hcapacity]
  refine (hnothing.takePages (Nat.zero_add _)).bind fun answer m₁ h₁ => ?_
  cases answer with
  | none => exact h₁
  | some taken =>
    obtain ⟨hcount, h₁⟩ := h₁
    have hall : taken.reverse.length = size / pageSize := by rw [List.length_reverse, hcount]
    have hundoes : Undoes space _ _ (Action.freePages taken : Action π Unit) :=
      undoes_freePages space taken
    refine (hundoes.orUndo (Nat.le_of_eq hall)
      ((h₁.reserve hsound size align).imp_fault fun _ h => h.elim)).bind fun answer m₂ h₂ => ?_
    cases answer with
    | error cause =>
      refine (hundoes.refuse (.range hall) rfl h₂ _).imp ?_
      rintro _ _ ⟨rfl, h⟩
      exact h
    | ok range =>
      obtain ⟨hlength, next, hnext, hperm, h₂⟩ := h₂
      have hfits : taken.length * pageSize ≤ range.length := by
        rw [hcount]
        exact Nat.le_trans (Nat.div_mul_le_self size pageSize) hlength
      have hbase : range.base = range.base + 0 * pageSize := by
        rw [Nat.zero_mul, Nat.add_zero]
      rw [List.append_assoc] at h₂
      refine (Logged.mapPages h₂ hnext hperm hcount hfits rfl (Nat.zero_le _) hbase).bind
        fun answer m₃ h₃ => ?_
      cases answer with
      | error cause => exact h₃
      | ok _ =>
        obtain ⟨hlimit, h₃⟩ := h₃
        rw [hcount, ← hall] at hlimit h₃
        exact .placed hall hlimit h₃

/-- Three pages are taken and a range is reserved, but the last page cannot be mapped; and a page is
mapped to the slot before the last address of all. -/
theorem Action.placeBehindIommu_traced_undone :
    let board : Scripted.Board :=
      ⟨.ofChipset 0xea false, ∅, [], none, ∅, [some 0x5000, some 0x3000, some 0x9000], [0, 0, -12], []⟩
    let space : RangeSpace :=
      ⟨"iommu", 0x10000, 0x10000, 0x1000, [⟨0x10000, 0x10000⟩], []⟩
    let m : Machine Scripted.Board := .start board (some space) false true
    let after := leaves (Action.placeBehindIommu 0 0x3000 0) m
    let range : AddressRange := ⟨0x10000, 0x3000⟩
    let rest : AddressRange := ⟨0xffffffffffffefff, 0x1000⟩
    let edge : RangeSpace := ⟨"iommu", rest.base, rest.length, 1, [rest], []⟩
    let brink : Machine Scripted.Board := .start board (some edge) false true
    let beyond := leaves (Action.placeBehindIommu 0 0x1000 0) brink
    (m.trace.isRecording = true ∧ m.shared = some space ∧ space.Sound ∧ 0x3000 ≤ space.capacity ∧
      Rollback 0 0x3000 0 0 [] (Action.placeBehindIommu 0 0x3000 0 m) ∧
      after.trace.calls.toList.filterMap Call.takes =
        [.page 0x5000, .page 0x3000, .page 0x9000, .range .shared range,
          .mapping 0x10000 pageSize, .mapping 0x11000 pageSize] ∧
      after.trace.calls.toList.filterMap Call.gives =
        [.mapping 0x11000 pageSize, .mapping 0x10000 pageSize, .range .shared range,
          .page 0x9000, .page 0x3000, .page 0x5000]) ∧
    brink.trace.isRecording = true ∧ brink.shared = some edge ∧ edge.Sound ∧
      0x1000 ≤ edge.capacity ∧ Rollback 0 0x1000 0 0 [] (Action.placeBehindIommu 0 0x1000 0 brink) ∧
      beyond.trace.calls.toList.filterMap Call.takes =
        [.page 0x5000, .range .shared rest, .mapping rest.base pageSize] ∧
      beyond.trace.calls.toList.filterMap Call.gives =
        [.mapping rest.base pageSize, .range .shared rest, .page 0x5000] := by
  intro board space m after range rest edge brink beyond
  have hcreate : RangeSpace.create "iommu" 0x10000 0x10000 0x1000 = .ok space := rfl
  have hsound : space.Sound := (RangeSpace.create_eq_ok hcreate).2
  have hsize : 0x3000 ≤ space.capacity := by decide
  have hedge : RangeSpace.create "iommu" rest.base rest.length 1 = .ok edge := by decide +kernel
  have hedgeSound : edge.Sound := (RangeSpace.create_eq_ok hedge).2
  have hfits : 0x1000 ≤ edge.capacity := by decide
  refine ⟨⟨rfl, rfl, hsound, hsize, ?_, ?_, ?_⟩, rfl, rfl, hedgeSound, hfits, ?_, ?_, ?_⟩
  · exact placeBehindIommu_traced (m := m) 0 0 rfl rfl hsound hsize
  · decide +kernel
  · decide +kernel
  · exact placeBehindIommu_traced (m := brink) 0 0 rfl rfl hedgeSound hfits
  · decide +kernel
  · decide +kernel

end InstanceMemory
