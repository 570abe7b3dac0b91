import InstanceMemory.Proofs.Machine.Lasting

/-!
# What placements do not look at

What has been noted so far has no part in what an operation does, and what a controller remembers of
its window has none in what it places or gives back. A **veil** is a family of changes to a machine
that touch nothing a placement looks at, and that it makes no difference to make before or after it.
A machine is `Veiled` from another if it differs from it by such a change, and in the lines of its
journal. Whether the journal is open does matter, since an open journal can fault over the text of a
notice.

Behind every veil, making an object, giving it back and destroying a controller are blind
(`Veil.blind_place`, `Veil.blind_free`, `Veil.blind_teardown`). The least of all veils changes nothing,
so that machines differ in their notes alone; behind it all of an allocation is blind
(`Action.relined_allocate`).
-/

set_option autoImplicit false

namespace InstanceMemory

open Simulator (Device SystemMemory Translation)

/-- The machine with other lines in its journal. -/
def Machine.relined {π : Type} (m : Machine π) (lines : Array String) : Machine π :=
  { m with journal := ⟨m.journal.isOpen, lines⟩ }

/-- A notice is entered or faults whatever has been noted before. -/
theorem Journal.note_relined (journal : Journal) (n : Notice) (lines : Array String) :
    (∃ lines₁ lines₂, journal.note n = .ok ⟨journal.isOpen, lines₁⟩ ∧
        Journal.note ⟨journal.isOpen, lines⟩ n = .ok ⟨journal.isOpen, lines₂⟩) ∨
      ∃ f, journal.note n = .error f ∧ Journal.note ⟨journal.isOpen, lines⟩ n = .error f := by
  obtain ⟨isOpen, before⟩ := journal
  unfold note
  cases isOpen with
  | false => exact .inl ⟨before, lines, rfl, rfl⟩
  | true =>
    cases n.line with
    | ok line => exact .inl ⟨_, _, rfl, rfl⟩
    | error f => exact .inr ⟨f, rfl, rfl⟩

/-- What is given back with something to note is given back whatever has been noted before. -/
def NotesOnly {α : Type} (act : Journal → Except Fault (α × Journal)) : Prop :=
  ∀ journal lines,
    (∃ a lines₁ lines₂, act journal = .ok (a, ⟨journal.isOpen, lines₁⟩) ∧
        act ⟨journal.isOpen, lines⟩ = .ok (a, ⟨journal.isOpen, lines₂⟩)) ∨
      ∃ f, act journal = .error f ∧ act ⟨journal.isOpen, lines⟩ = .error f

theorem RangeSpace.notesOnly_release (space : RangeSpace) (range : AddressRange) :
    NotesOnly (space.release range) := by
  intro journal lines
  unfold release
  by_cases hmem : range ∈ space.allocated
  · rw [if_pos hmem, if_pos hmem]
    cases Holes.insert range.base range.length space.free with
    | ok free => exact .inl ⟨_, journal.lines, lines, rfl, rfl⟩
    | error f => exact .inr ⟨f, rfl, rfl⟩
  · rw [if_neg hmem, if_neg hmem]
    rcases journal.note_relined (.untrackedRelease space.name range) lines with
      ⟨lines₁, lines₂, h₁, h₂⟩ | ⟨f, h₁, h₂⟩
    · rw [h₁, h₂]
      exact .inl ⟨space, lines₁, lines₂, rfl, rfl⟩
    · rw [h₁, h₂]
      exact .inr ⟨f, rfl, rfl⟩

namespace Simulator.SystemMemory

theorem notesOnly_freePage (page : Nat) (memory : SystemMemory) :
    NotesOnly (memory.freePage page) := by
  intro journal lines
  unfold freePage
  rcases memory.space.notesOnly_release ⟨page, pageSize⟩ journal lines with
    ⟨space, lines₁, lines₂, h₁, h₂⟩ | ⟨f, h₁, h₂⟩
  · rw [h₁, h₂]
    exact .inl ⟨_, lines₁, lines₂, rfl, rfl⟩
  · rw [h₁, h₂]
    exact .inr ⟨f, rfl, rfl⟩

theorem notesOnly_freeBuffer (buffer : Buffer) (memory : SystemMemory) :
    NotesOnly (memory.freeBuffer buffer) := by
  intro journal lines
  unfold freeBuffer
  rcases memory.space.notesOnly_release ⟨buffer.handle, buffer.size⟩ journal lines with
    ⟨space, lines₁, lines₂, h₁, h₂⟩ | ⟨f, h₁, h₂⟩
  · rw [h₁, h₂]
    exact .inl ⟨_, lines₁, lines₂, rfl, rfl⟩
  · rw [h₁, h₂]
    exact .inr ⟨f, rfl, rfl⟩

end Simulator.SystemMemory

/-! ## Placements by their steps -/

namespace Action

/-- What comes of a request once it is noted and rounded. -/
def placeRounded (strategy : Strategy) (i : Nat) :
    Except Error (Nat × Nat) → Action Device (Except Error InstanceObject)
  | .error cause => return .error cause
  | .ok (size, align) => do
    match ← placeBy strategy i size align with
    | .error cause => return .error cause
    | .ok object =>
      note (.placed size align object.offset)
      onController i fun c => { c with live := c.live + 1 }
      return .ok object

/-- A placement notes the request, rounds it, and goes on with what was rounded. -/
theorem place_eq (i size align : Nat) (m : Machine Device) :
    place i size align m =
      (note (.requested (m.controller i).strategy size align) >>= fun _ =>
        placeRounded (m.controller i).strategy i (pageRound size align)) m := by
  unfold place
  rw [run_get_bind]
  cases pageRound size align <;> rfl

end Action

/-! ## Veils -/

/-- Changes of a machine that touch nothing a placement looks at, and commute with all that it does. -/
structure Veil {κ : Type} (hide : κ → Machine Device → Machine Device) : Prop where
  journal : ∀ k (m : Machine Device) journal,
    hide k { m with journal } = { hide k m with journal }
  trace : ∀ k (m : Machine Device) trace, hide k { m with trace } = { hide k m with trace }
  shared : ∀ k (m : Machine Device) shared, hide k { m with shared } = { hide k m with shared }
  memory : ∀ k (m : Machine Device) memory,
    hide k { m with hardware.memory := memory } = { hide k m with hardware.memory := memory }
  translation : ∀ k (m : Machine Device) translation,
    hide k { m with hardware.translation := translation } =
      { hide k m with hardware.translation := translation }
  /-- Of a controller, only what it remembers of the window is touched. -/
  controller : ∀ k (m : Machine Device) i, ∃ window,
    (hide k m).controller i = { m.controller i with window }
  mapController : ∀ k (m : Machine Device) i f, (∀ c window, f { c with window } = { f c with window }) →
    hide k (m.mapController i f) = (hide k m).mapController i f

/-- A machine differs from another by a change behind a veil, and in the lines of its journal. -/
def Veiled {κ : Type} (hide : κ → Machine Device → Machine Device) (m m' : Machine Device) : Prop :=
  ∃ k lines, m' = (hide k m).relined lines

namespace Veil

variable {κ α : Type} {hide : κ → Machine Device → Machine Device} {m m' : Machine Device}
  (hv : Veil hide)

include hv

/-! ### What shows through a veil -/

theorem journal_eq (k : κ) (m : Machine Device) : (hide k m).journal = m.journal :=
  congrArg (·.journal) (hv.journal k m m.journal)

theorem isOpen_eq (h : Veiled hide m m') : m'.journal = ⟨m.journal.isOpen, m'.journal.lines⟩ := by
  obtain ⟨k, lines, rfl⟩ := h
  simp only [Machine.relined, hv.journal_eq]

theorem trace_eq (h : Veiled hide m m') : m'.trace = m.trace := by
  obtain ⟨k, lines, rfl⟩ := h
  exact congrArg (·.trace) (hv.trace k m m.trace)

theorem shared_eq (h : Veiled hide m m') : m'.shared = m.shared := by
  obtain ⟨k, lines, rfl⟩ := h
  exact congrArg (·.shared) (hv.shared k m m.shared)

theorem memory_eq (h : Veiled hide m m') : m'.hardware.memory = m.hardware.memory := by
  obtain ⟨k, lines, rfl⟩ := h
  exact congrArg (·.hardware.memory) (hv.memory k m m.hardware.memory)

theorem translation_eq (h : Veiled hide m m') : m'.hardware.translation = m.hardware.translation := by
  obtain ⟨k, lines, rfl⟩ := h
  exact congrArg (·.hardware.translation) (hv.translation k m m.hardware.translation)

theorem controller_eq (h : Veiled hide m m') (i : Nat) :
    ∃ window, m'.controller i = { m.controller i with window } := by
  obtain ⟨k, lines, rfl⟩ := h
  exact hv.controller k m i

theorem space?_eq (h : Veiled hide m m') (id : SpaceId) : m'.space? id = m.space? id := by
  cases id with
  | shared => exact hv.shared_eq h
  | heap i =>
    obtain ⟨window, hc⟩ := hv.controller_eq h i
    rw [Machine.space?, Machine.space?, hc]

/-! ### What a veil lets through -/

theorem setJournal (h : Veiled hide m m') (lines lines' : Array String) :
    Veiled hide { m with journal := ⟨m.journal.isOpen, lines⟩ }
      { m' with journal := ⟨m.journal.isOpen, lines'⟩ } := by
  obtain ⟨k, _, rfl⟩ := h
  exact ⟨k, lines', (congrArg (·.relined lines') (hv.journal k m ⟨m.journal.isOpen, lines⟩)).symm⟩

theorem setTrace (h : Veiled hide m m') (trace : Trace) :
    Veiled hide { m with trace } { m' with trace } := by
  obtain ⟨k, lines, rfl⟩ := h
  exact ⟨k, lines, (congrArg (·.relined lines) (hv.trace k m trace)).symm⟩

theorem setMemory (h : Veiled hide m m') (memory : SystemMemory) :
    Veiled hide { m with hardware.memory := memory } { m' with hardware.memory := memory } := by
  obtain ⟨k, lines, rfl⟩ := h
  exact ⟨k, lines, (congrArg (·.relined lines) (hv.memory k m memory)).symm⟩

theorem setTranslation (h : Veiled hide m m') (translation : Option Translation) :
    Veiled hide { m with hardware.translation := translation }
      { m' with hardware.translation := translation } := by
  obtain ⟨k, lines, rfl⟩ := h
  exact ⟨k, lines, (congrArg (·.relined lines) (hv.translation k m translation)).symm⟩

theorem setController (h : Veiled hide m m') (i : Nat) {f : Controller → Controller}
    (hf : ∀ c window, f { c with window } = { f c with window }) :
    Veiled hide (m.mapController i f) (m'.mapController i f) := by
  obtain ⟨k, lines, rfl⟩ := h
  refine ⟨k, lines, ?_⟩
  rw [hv.mapController k m i f hf]
  rfl

theorem setSpace (h : Veiled hide m m') (id : SpaceId) (space : RangeSpace) :
    Veiled hide (m.setSpace id space) (m'.setSpace id space) := by
  cases id with
  | shared =>
    obtain ⟨k, lines, rfl⟩ := h
    exact ⟨k, lines, (congrArg (·.relined lines) (hv.shared k m (some space))).symm⟩
  | heap i =>
    apply hv.setController h i
    intro c window
    cases hbacking : c.backing <;> simp only [hbacking]

/-! ### Bookkeeping -/

theorem blind_note (n : Notice) : Blind (Veiled hide) (Action.note n) := by
  intro m m' h
  unfold Action.note
  rw [hv.isOpen_eq h]
  rcases m.journal.note_relined n m'.journal.lines with ⟨lines, lines', h₁, h₂⟩ | ⟨f, h₁, h₂⟩
  · rw [h₁, h₂]
    exact .ok () (hv.setJournal h lines lines')
  · rw [h₁, h₂]
    exact .error f h

theorem blind_record (call : Call) : Blind (Veiled hide) (Action.record call) := by
  intro m m' h
  unfold Action.record
  rw [hv.trace_eq h]
  by_cases hrecording : m.trace.isRecording = true
  · rw [if_pos hrecording, if_pos hrecording]
    exact .ok () (hv.setTrace h _)
  · rw [if_neg hrecording, if_neg hrecording]
    exact .ok () h

theorem blind_reserve (id : SpaceId) (size align : Nat) :
    Blind (Veiled hide) (Action.reserve id size align) := by
  apply blind_get_bind
  intro m m' h
  rw [hv.space?_eq h]
  cases m.space? id with
  | none => exact .ok _ h
  | some space =>
    refine (blind_lift _).bind ?_ m m' h
    intro answer
    cases answer with
    | error cause => exact (hv.blind_record _).bind fun _ => blind_pure _
    | ok granted =>
      refine (blind_modify ?_).bind fun _ => (hv.blind_record _).bind fun _ => blind_pure _
      intro m m' h
      exact hv.setSpace h id granted.2

theorem blind_release (id : SpaceId) (range : AddressRange) :
    Blind (Veiled hide) (Action.release id range) := by
  apply blind_get_bind
  intro m m' h
  rw [hv.space?_eq h]
  cases m.space? id with
  | none => exact .ok _ h
  | some space =>
    dsimp only
    rw [hv.isOpen_eq h]
    rcases space.notesOnly_release range m.journal m'.journal.lines with
      ⟨next, lines, lines', h₁, h₂⟩ | ⟨f, h₁, h₂⟩
    · rw [h₁, h₂]
      refine hv.blind_record (.release id range) { m.setSpace id next with journal := _ }
        { m'.setSpace id next with journal := _ } ?_
      have hopen : (m.setSpace id next).journal.isOpen = m.journal.isOpen := by
        cases id <;> rfl
      rw [← hopen]
      exact hv.setJournal (hv.setSpace h id next) lines lines'
    · rw [h₁, h₂]
      exact .error f h

/-! ### Calls to the device -/

/-- System memory is the same behind the veil. -/
theorem blind_onMemory (act : SystemMemory → Except Fault (α × SystemMemory)) :
    Blind (Veiled hide) (Action.onHardware (Device.onMemory act)) := by
  intro m m' h
  simp only [Action.onHardware, Device.onMemory, hv.memory_eq h]
  cases act m.hardware.memory with
  | ok taken => exact .ok taken.1 (hv.setMemory h taken.2)
  | error f => exact .error f h

theorem blind_onMemoryNoting
    {act : SystemMemory → Journal → Except Fault (SystemMemory × Journal)}
    (hact : ∀ memory, NotesOnly (act memory)) :
    Blind (Veiled hide) (Action.onHardwareNoting (Device.onMemoryNoting act)) := by
  intro m m' h
  simp only [Action.onHardwareNoting, Device.onMemoryNoting, hv.memory_eq h]
  rw [hv.isOpen_eq h]
  rcases hact m.hardware.memory m.journal m'.journal.lines with
    ⟨memory, lines, lines', h₁, h₂⟩ | ⟨f, h₁, h₂⟩
  · simp only [h₁, h₂]
    exact .ok () (hv.setJournal (hv.setMemory h memory) lines lines')
  · simp only [h₁, h₂]
    rw [← hv.isOpen_eq h]
    exact .error f h

/-- So is the translation table. -/
theorem blind_onTranslation (absent : α) (act : EStateM Fault Translation α) :
    Blind (Veiled hide) (Action.onHardware (Device.onTranslation absent act)) := by
  intro m m' h
  simp only [Action.onHardware, Device.onTranslation, hv.translation_eq h]
  cases m.hardware.translation with
  | none => exact .ok absent h
  | some translation =>
    dsimp only
    cases act translation with
    | ok a next => exact .ok a (hv.setTranslation h (some next))
    | error f next => exact .error f (hv.setTranslation h (some next))

theorem blind_allocPage : Blind (Veiled hide) (Action.allocPage : Action Device _) :=
  (hv.blind_onMemory _).bind fun _ => (hv.blind_record _).bind fun _ => blind_pure _

theorem blind_freePage (page : Nat) : Blind (Veiled hide) (Action.freePage page : Action Device _) := by
  apply blind_get_bind
  intro m m' h
  have hheld : m'.held = m.held := by
    rw [Machine.held, Machine.held, hv.shared_eq h]
  rw [hheld]
  exact (hv.blind_onMemoryNoting (SystemMemory.notesOnly_freePage page)).bind
    (fun _ => hv.blind_record _) m m' h

theorem blind_mapPage (address page : Nat) :
    Blind (Veiled hide) (Action.mapPage address page : Action Device _) := by
  have hmap : Blind (Veiled hide)
      (Action.onHardware (Platform.map address page pageSize .readWrite) : Action Device _) := by
    intro m m' h
    have hact := hv.blind_onTranslation (.error .invalid)
      (Translation.map address page pageSize .readWrite) m m' h
    unfold Action.onHardware at hact ⊢
    simp only [Platform.map, Device.map, Bind.bind, EStateM.bind] at hact ⊢
    generalize Device.onTranslation _ _ m.hardware = r at hact ⊢
    generalize Device.onTranslation _ _ m'.hardware = r' at hact ⊢
    cases r <;> cases r' <;> cases hact <;> first
      | exact .ok _ ‹_›
      | exact .error _ ‹_›
  exact hmap.bind fun _ => (hv.blind_record _).bind fun _ => blind_pure _

theorem blind_unmapPage (address : Nat) :
    Blind (Veiled hide) (Action.unmapPage address : Action Device _) := by
  apply blind_get_bind
  intro m m' h
  have hheld : m'.held = m.held := by
    rw [Machine.held, Machine.held, hv.shared_eq h]
  rw [hheld]
  exact (hv.blind_onTranslation 0 (Translation.unmap address pageSize)).bind
    (fun _ => hv.blind_record _) m m' h

theorem blind_allocBuffer (size : Nat) :
    Blind (Veiled hide) (Action.allocBuffer size : Action Device _) :=
  (hv.blind_onMemory _).bind fun _ => (hv.blind_record _).bind fun _ => blind_pure _

theorem blind_freeBuffer (buffer : Buffer) :
    Blind (Veiled hide) (Action.freeBuffer buffer : Action Device _) :=
  (hv.blind_onMemoryNoting (SystemMemory.notesOnly_freeBuffer buffer)).bind fun _ =>
    hv.blind_record _

/-! ### Placements -/

open InstanceMemory.Action


theorem blind_freePages (pages : List Nat) : Blind (Veiled hide) (freePages pages : Action Device _) := by
  induction pages with
  | nil => exact blind_pure _
  | cons page rest ih => exact (hv.blind_freePage page).bind fun _ => ih

theorem blind_unmapSlots (base slots : Nat) : Blind (Veiled hide) (unmapSlots base slots : Action Device _) := by
  induction slots with
  | zero => exact blind_pure _
  | succ slots ih => exact (hv.blind_unmapPage _).bind fun _ => ih

theorem blind_undoPlacement (range : AddressRange) (slots : Nat) (taken : List Nat) :
    Blind (Veiled hide) (undoPlacement range slots taken : Action Device _) :=
  (hv.blind_unmapSlots _ _).bind fun _ => (hv.blind_release _ _).bind fun _ => hv.blind_freePages taken

theorem blind_takePages (count more : Nat) (taken : List Nat) :
    Blind (Veiled hide) (takePages count more taken : Action Device _) := by
  induction more generalizing taken with
  | zero => exact blind_pure _
  | succ more ih =>
    apply (blind_orUndo hv.blind_allocPage (hv.blind_freePages taken)).bind
    intro answer
    cases answer with
    | some page => exact ih (page :: taken)
    | none => exact (hv.blind_note _).bind fun _ => (hv.blind_freePages taken).bind fun _ => blind_pure _

theorem blind_mapPages (range : AddressRange) (taken pages : List Nat) (slots address : Nat) :
    Blind (Veiled hide) (mapPages range taken pages slots address : Action Device _) := by
  induction pages generalizing slots address with
  | nil =>
    unfold mapPages
    exact Blind.bind (blind_orUndo (blind_lift _) (hv.blind_undoPlacement range slots taken))
      fun _ => blind_pure _
  | cons page rest ih =>
    have hundo := hv.blind_undoPlacement range slots taken
    unfold mapPages
    apply Blind.bind (blind_orUndo (blind_lift _) hundo)
    intro _
    apply (blind_orUndo (hv.blind_mapPage address page) hundo).bind
    intro answer
    cases answer with
    | ok => exact ih (slots + 1) (address + pageSize)
    | error code => exact (hv.blind_note _).bind fun _ => hundo.bind fun _ => blind_pure _

theorem blind_placeInHeap (i size align : Nat) :
    Blind (Veiled hide) (placeInHeap i size align : Action Device _) := by
  apply (hv.blind_reserve _ _ _).bind
  intro answer
  cases answer with
  | ok range => exact blind_pure _
  | error cause => exact (hv.blind_note _).bind fun _ => blind_pure _

theorem blind_placeBehindIommu (i size align : Nat) :
    Blind (Veiled hide) (placeBehindIommu i size align : Action Device _) := by
  apply blind_get_bind
  intro m m' h
  rw [hv.shared_eq h]
  dsimp only
  split
  · exact (hv.blind_note _).bind (fun _ => blind_pure _) m m' h
  · refine (hv.blind_takePages _ _ _).bind ?_ m m' h
    intro answer
    cases answer with
    | none => exact blind_pure _
    | some taken =>
      apply (blind_orUndo (hv.blind_reserve _ _ _) (hv.blind_freePages taken)).bind
      intro answer
      cases answer with
      | error cause =>
        exact (hv.blind_note _).bind fun _ => (hv.blind_freePages taken).bind fun _ => blind_pure _
      | ok range =>
        apply (hv.blind_mapPages range taken taken.reverse 0 range.base).bind
        intro answer
        cases answer <;> exact blind_pure _

theorem blind_unmapAndFree (address : Nat) (pages : List Nat) :
    Blind (Veiled hide) (unmapAndFree address pages : Action Device _) := by
  induction pages generalizing address with
  | nil => exact Blind.bind (blind_lift _) fun _ => blind_pure _
  | cons page rest ih =>
    refine Blind.bind (blind_lift _) fun _ => ?_
    exact (hv.blind_unmapPage address).bind fun _ => (hv.blind_freePage page).bind fun _ =>
      ih (address + pageSize)

theorem blind_placeInBuffer (i size align : Nat) :
    Blind (Veiled hide) (placeInBuffer i size align : Action Device _) := by
  apply (hv.blind_allocBuffer size).bind
  intro answer
  cases answer with
  | none => exact (hv.blind_note _).bind fun _ => blind_pure _
  | some buffer =>
    apply (blind_lift _).bind
    intro aligned
    cases aligned with
    | true => exact blind_pure _
    | false => exact (hv.blind_note _).bind fun _ => blind_pure _

theorem blind_placeBy (strategy : Strategy) (i size align : Nat) :
    Blind (Veiled hide) (placeBy strategy i size align : Action Device _) := by
  cases strategy with
  | heap => exact hv.blind_placeInHeap i size align
  | iommu => exact hv.blind_placeBehindIommu i size align
  | dma => exact hv.blind_placeInBuffer i size align

theorem blind_placeRounded (strategy : Strategy) (i : Nat) (rounded : Except Error (Nat × Nat)) :
    Blind (Veiled hide) (placeRounded strategy i rounded) := by
  cases rounded with
  | error cause => exact blind_pure _
  | ok rounded =>
    apply (hv.blind_placeBy _ _ _ _).bind
    intro answer
    cases answer with
    | error cause => exact blind_pure _
    | ok object =>
      exact (hv.blind_note _).bind fun _ => (blind_onController fun m m' h =>
        hv.setController h i fun _ _ => rfl).bind fun _ => blind_pure _

theorem blind_place (i size align : Nat) : Blind (Veiled hide) (place i size align : Action Device _) := by
  intro m m' h
  obtain ⟨window, hc⟩ := hv.controller_eq h i
  have hstrategy : (m'.controller i).strategy = (m.controller i).strategy :=
    congrArg (·.strategy) hc
  rw [place_eq, place_eq, hstrategy]
  exact (hv.blind_note _).bind (fun _ => hv.blind_placeRounded _ i _) m m' h

theorem blind_free (object : InstanceObject) : Blind (Veiled hide) (free object : Action Device _) := by
  refine blind_andFinally ?_ fun m m' h => hv.setController h object.owner fun _ _ => rfl
  unfold giveBack
  cases object.resource with
  | heap range => exact hv.blind_release _ _
  | iommu range pages => exact (hv.blind_unmapAndFree _ _).bind fun _ => hv.blind_release _ _
  | dma buffer => exact hv.blind_freeBuffer buffer

theorem blind_teardown (i : Nat) : Blind (Veiled hide) (teardown i : Action Device _) := by
  have hfirmware : Blind (Veiled hide) (freeFirmware i : Action Device _) := by
    apply blind_get_bind
    intro m m' h
    obtain ⟨window, hc⟩ := hv.controller_eq h i
    rw [hc]
    cases (m.controller i).firmware with
    | none => exact .ok () h
    | some firmware =>
      exact Blind.bind (blind_onController fun m m' h => hv.setController h i fun _ _ => rfl)
        (fun _ => (hv.blind_free _).bind fun _ => (hv.blind_free _).bind fun _ =>
          (hv.blind_free _).bind fun _ => hv.blind_free _) m m' h
  have hdismiss : Blind (Veiled hide) (dismiss i : Action Device _) :=
    (hv.blind_note _).bind fun _ =>
      blind_onController fun m m' h => hv.setController h i fun _ _ => rfl
  refine hfirmware.bind fun _ => blind_get_bind ?_
  intro m m' h
  obtain ⟨window, hc⟩ := hv.controller_eq h i
  have hstrategy : (m'.controller i).strategy = (m.controller i).strategy :=
    congrArg (·.strategy) hc
  rw [hstrategy, hc]
  dsimp only
  split
  · exact (hv.blind_note _).bind (fun _ => hdismiss) m m' h
  · exact hdismiss m m' h

end Veil

/-! ## Accesses and requests

Behind a veil or not, what is true of every access to one word is true of every access to words, and
requests for objects are made of placements and accesses. -/

namespace Action

section

variable {S : Machine Device → Machine Device → Prop} {object : InstanceObject} {i : Nat}

theorem blind_readWords (h : ∀ offset, Blind S (readWord object offset)) (offset words : Nat) :
    Blind S (readWords object offset words) := by
  have hfrom : ∀ words offset before, Blind S (readFrom object words offset before) := by
    intro words
    induction words with
    | zero => exact fun _ _ => blind_pure _
    | succ words ih =>
      exact fun offset _ => (h offset).bind fun _ => (blind_lift _).bind fun _ => ih _ _
  exact (blind_lift _).bind fun _ => hfrom words offset []

theorem blind_writeWords (h : ∀ offset value, Blind S (writeWord object offset value))
    (offset : Nat) (values : List UInt32) : Blind S (writeWords object offset values) := by
  have hfrom : ∀ values offset, Blind S (writeFrom object values offset) := by
    intro values
    induction values with
    | nil => exact fun _ => blind_pure _
    | cons value rest ih =>
      exact fun offset => (h offset value).bind fun _ => (blind_lift _).bind fun _ => ih _
  exact (blind_lift _).bind fun _ => hfrom values offset

theorem blind_fill {value : UInt32} (h : ∀ offset, Blind S (writeWord object offset value)) :
    Blind S (fill object value) := by
  have hfrom : ∀ words offset, Blind S (fillFrom object value words offset) := by
    intro words
    induction words with
    | zero => exact fun _ => blind_pure _
    | succ words ih => exact fun offset => (h offset).bind fun _ => ih _
  exact hfrom object.words 0

/-- A request is blind if placements, frees and the zeroing of the controller's own objects are. -/
theorem blind_allocate {size align : Nat} {zeroed : Bool}
    (hphase : ∀ m m', S m m' → (m'.controller i).phase = (m.controller i).phase)
    (hplace : Blind S (place i size align))
    (hfill : ∀ o : InstanceObject, o.owner = i → Blind S (fill o 0))
    (hfree : ∀ o : InstanceObject, Blind S (free o)) :
    Blind S (allocate i size align zeroed) := by
  have hmake : Blind S (make i size align zeroed) := by
    apply hplace.bind_of_yields (verdict_place i size align)
    intro answer hanswer
    cases answer with
    | error cause => exact blind_pure _
    | ok o =>
      dsimp only
      split
      · exact (blind_orUndo (hfill o hanswer.1) (hfree o)).bind fun _ => blind_pure _
      · exact blind_pure _
  apply blind_get_bind
  intro m m' h
  rw [hphase m m' h]
  cases (m.controller i).phase with
  | suspended => exact .ok _ h
  | constructed => exact hmake m m' h
  | initialized => exact hmake m m' h

end

end Action

/-! ## Notes alone

Behind the veil that hides nothing, machines differ only in their notes. -/

/-- The machine differs from another at most in the lines of its journal. -/
abbrev Relined : Machine Device → Machine Device → Prop := Veiled fun (_ : Unit) m => m

/-- To change nothing touches nothing. -/
theorem veil_nothing : Veil fun (_ : Unit) m => m where
  journal _ _ _ := rfl
  trace _ _ _ := rfl
  shared _ _ _ := rfl
  memory _ _ _ := rfl
  translation _ _ _ := rfl
  controller _ m i := ⟨(m.controller i).window, rfl⟩
  mapController _ _ _ _ _ := rfl

namespace Action

variable {α : Type}

/-- What comes after a look at the machine may depend on all but the notes. -/
theorem relined_get_bind {next : Machine Device → Action Device α}
    (hsame : ∀ m lines, next (m.relined lines) = next m) (h : ∀ m, Blind Relined (next m)) :
    Blind Relined ((get : Action Device (Machine Device)) >>= next) := by
  apply blind_get_bind
  rintro m _ ⟨k, lines, rfl⟩
  rw [hsame]
  exact h m _ _ ⟨k, lines, rfl⟩

theorem relined_onController (i : Nat) (g : Controller → Controller) :
    Blind Relined (onController i g : Action Device _) := by
  apply blind_onController
  rintro m _ ⟨k, lines, rfl⟩
  exact ⟨k, lines, rfl⟩

theorem relined_onHardware (act : EStateM Fault Device α) : Blind Relined (onHardware act) := by
  rintro m _ ⟨k, lines, rfl⟩
  simp only [onHardware, Machine.relined]
  cases act m.hardware with
  | ok a d => exact .ok a ⟨k, lines, rfl⟩
  | error f d => exact .error f ⟨k, lines, rfl⟩

theorem relined_replaceController (i : Nat) (c : Controller) (n : Notice) :
    Blind Relined (replaceController i c n : Action Device _) :=
  (relined_onController _ _).bind fun _ => (veil_nothing.blind_note n).bind fun _ => blind_pure _

theorem relined_suspend (i : Nat) : Blind Relined (suspend i : Action Device _) := by
  apply relined_get_bind (fun _ _ => rfl)
  intro m
  dsimp only
  cases (m.controller i).transition .suspend .initialized .suspended with
  | error cause => exact blind_pure _
  | ok asleep =>
    dsimp only
    cases asleep.tryInvalidate with
    | none => exact blind_pure _
    | some asleep => exact relined_replaceController _ _ _

theorem relined_serveInterrupt : Blind Relined (serveInterrupt : Action Device _) := by
  apply relined_get_bind (fun _ _ => rfl)
  intro m
  cases m.interrupt with
  | none => exact blind_pure _
  | some i =>
    refine (blind_modify ?_).bind fun _ => relined_get_bind (fun _ _ => rfl) ?_
    · rintro m _ ⟨k, lines, rfl⟩
      exact ⟨k, lines, rfl⟩
    intro m
    split
    · exact (relined_suspend i).bind fun _ => veil_nothing.blind_record _
    · exact blind_pure _

theorem relined_writeRegister (address : Nat) (value : UInt32) :
    Blind Relined (writeRegister address value : Action Device _) :=
  relined_serveInterrupt.bind fun _ => (relined_onHardware _).bind fun _ => veil_nothing.blind_record _

theorem relined_writeAperture (offset : Nat) (value : UInt32) :
    Blind Relined (writeAperture offset value : Action Device _) :=
  (relined_onHardware _).bind fun _ => veil_nothing.blind_record _

theorem relined_selectWindow (i base : Nat) : Blind Relined (selectWindow i base : Action Device _) := by
  apply relined_get_bind (fun _ _ => rfl)
  intro m
  split
  · exact blind_pure _
  · exact (relined_writeRegister _ _).bind fun _ => (relined_onController _ _).bind fun _ =>
      blind_pure _

theorem relined_writeWindowed (i address : Nat) (value : UInt32) :
    Blind Relined (writeWindowed i address value : Action Device _) := by
  refine Blind.bind ?_ ?_
  · refine (relined_onController _ _).bind fun _ => blind_andFinally ?_ ?_
    · exact (relined_selectWindow _ _).bind fun _ => (relined_writeRegister _ _).bind fun _ =>
        blind_pure _
    · rintro m _ ⟨k, lines, rfl⟩
      exact ⟨k, lines, rfl⟩
  · intro moved
    obtain ⟨moved, answer⟩ := moved
    dsimp only
    split
    · exact (veil_nothing.blind_note _).bind fun _ => blind_pure _
    · exact blind_pure _

theorem relined_writeWord (object : InstanceObject) (offset : Nat) (value : UInt32) :
    Blind Relined (writeWord object offset value : Action Device _) := by
  apply (blind_lift _).bind
  intro address
  cases object.strategy with
  | heap => exact relined_writeAperture _ _
  | iommu => exact relined_writeWindowed _ _ _
  | dma => exact relined_writeWindowed _ _ _

/-- **An allocation does the same whatever has been noted.** -/
theorem relined_allocate (i size align : Nat) (zeroed : Bool) :
    Blind Relined (allocate i size align zeroed : Action Device _) := by
  refine blind_allocate ?_ (veil_nothing.blind_place i size align)
    (fun o _ => blind_fill fun offset => relined_writeWord o offset 0) veil_nothing.blind_free
  rintro m _ ⟨k, lines, rfl⟩
  rfl

end Action
end InstanceMemory
