import InstanceMemory.Proofs.Machine.Notes
import InstanceMemory.Proofs.Machine.Phases
import InstanceMemory.Proofs.Machine.Tally

/-!
# A forgotten window

Two machines that differ only in what their controller remembers of the window, and in what it has
noted: the second `Trails` the first, as its controller has forgotten the window at some time. It
writes the register once more when it sees its next word, and from then on remembers the same.

Whatever is done to both, they answer or fault in the same way, and the second trails the first again.
For placements and frees this is so because what is remembered is behind a veil (`veil_retallied`). For
an access through the window it is so because the window that is shown is the same, whether the
register had to be written for it or not (`Trails.throughWindow`).
-/

set_option autoImplicit false

namespace InstanceMemory

open Simulator (Device)

variable {α : Type} {i address base : Nat} {t t' : Tally} {m m' : Machine Device}

/-! ## Tallies -/

/-- A tally after a lapse: nothing is remembered any more, and the register was written as often; or
what is remembered is the same again, and the register was written once more at most. -/
def Tally.Lapses (t t' : Tally) : Prop :=
  (t'.last = none ∧ t'.writes = t.writes) ∨
    (t'.last = t.last ∧ (t'.writes = t.writes ∨ t'.writes = t.writes + 1))

namespace Tally.Lapses

theorem refl (t : Tally) : t.Lapses t := .inr ⟨rfl, .inl rfl⟩

theorem last (h : t.Lapses t') {base : Nat} (hbase : t'.last = some base) : t.last = some base := by
  rcases h with ⟨hnone, -⟩ | ⟨hsame, -⟩
  · rw [hnone] at hbase
    cases hbase
  · exact hsame ▸ hbase

theorem writes (h : t.Lapses t') : t'.writes = t.writes ∨ t'.writes = t.writes + 1 := by
  rcases h with ⟨-, hwrites⟩ | ⟨-, hwrites⟩
  · exact .inl hwrites
  · exact hwrites

/-- **The next word that is seen ends a lapse.** -/
theorem see (h : t.Lapses t') (base : Nat) : (t.see base).Lapses (t'.see base) := by
  rw [Tally.see_eq, Tally.see_eq]
  refine .inr ⟨rfl, ?_⟩
  rcases h with ⟨hnone, hwrites⟩ | ⟨hsame, hwrites⟩
  · -- the register is written after the lapse, whether it would have been without or not
    dsimp only
    rw [hnone, if_neg (by simp), hwrites]
    split
    · exact .inr rfl
    · exact .inl rfl
  · dsimp only
    rw [hsame]
    omega

/-- After a lapse there may be less to forget. -/
theorem forget (h : t.Lapses t') : t.forget.Lapses t'.forget := .inr ⟨rfl, h.writes⟩

end Tally.Lapses

/-! ## Machines -/

/-- The machine with another tally, which is that of all its controllers. -/
def Machine.retallied (m : Machine Device) (t : Tally) : Machine Device :=
  { m with
    hardware.windowWrites := t.writes
    controllers := m.controllers.map fun c => { c with window.cached := t.last } }

/-- **What is remembered of the window has no part in a placement.** -/
theorem veil_retallied : Veil fun t m => m.retallied t where
  journal _ _ _ := rfl
  trace _ _ _ := rfl
  shared _ _ _ := rfl
  memory _ _ _ := rfl
  translation _ _ _ := rfl
  controller t m i := by
    simp only [Machine.controller, Machine.retallied, List.getD_eq_getElem?_getD, List.getElem?_map]
    cases m.controllers[i]? with
    | none => exact ⟨_, rfl⟩
    | some c => exact ⟨_, rfl⟩
  mapController t m i f hf := by
    have hforget : ∀ c : Controller,
        f { c with window.cached := t.last } = { f c with window.cached := t.last } := by
      intro c
      have hwindow : (f c).window = c.window := congrArg (·.window) (hf c c.window)
      rw [hf c]
      dsimp only
      rw [hwindow]
    have hcontrollers : (m.controllers.modify i f).map (fun c => { c with window.cached := t.last }) =
        (m.controllers.map fun c => { c with window.cached := t.last }).modify i f := by
      apply List.ext_getElem?
      intro j
      simp only [List.getElem?_map, List.getElem?_modify]
      cases m.controllers[j]? with
      | none => split <;> rfl
      | some c =>
        split
        · exact congrArg some (hforget c).symm
        · rfl
    simp only [Machine.retallied, Machine.mapController, hcontrollers]

/-- A machine with one controller, which is right about its window and does not hold it. -/
structure Poised (m : Machine Device) : Prop where
  settled : Settled 0 m
  alone : ∃ c, m.controllers = [c] ∧ c.window.isHeld = false

namespace Poised

theorem of_store (h : Poised m) (hstore : m'.store = m.store) : Poised m' := by
  refine ⟨h.settled.of_store hstore, ?_⟩
  obtain ⟨c, hc, hheld⟩ := h.alone
  have hmap : m'.controllers.map (·.store) = m.controllers.map (·.store) :=
    congrArg (·.controllers) hstore
  rw [hc, List.map_singleton, List.map_eq_singleton_iff] at hmap
  obtain ⟨c', hc', hsame⟩ := hmap
  exact ⟨c', hc', (congrArg (·.window.isHeld) hsame).trans hheld⟩

/-- The one controller has the tally that the machine is given. -/
theorem tally_retallied (h : Poised m) (t : Tally) (lines : Array String) :
    ((m.retallied t).relined lines).tally 0 = t := by
  obtain ⟨c, hc, -⟩ := h.alone
  simp only [Machine.tally, Machine.trusted, Machine.controller, Machine.relined, Machine.retallied,
    hc, List.map_singleton, List.getD_cons_zero]

theorem quiet_retallied (h : Poised m) (t : Tally) (lines : Array String) :
    Quiet ((m.retallied t).relined lines) :=
  ⟨h.settled.silent, h.settled.uninterrupted⟩

end Poised

/-- The second of two machines has forgotten the window at some time, and noted other things, and is
otherwise the same as the first. -/
structure Trails (m m' : Machine Device) : Prop where
  poised : Poised m
  lapsed : ∃ t lines, (m.tally 0).Lapses t ∧ m' = (m.retallied t).relined lines

/-- What the device comes to, as a result of a machine whose window was put over a base for it. -/
def Machine.shownResult (m : Machine Device) (base : Nat) (journal : Journal) :
    EStateM.Result Fault Device α → EStateM.Result Fault (Machine Device) α
  | .ok a d => .ok a { m.showing 0 base with journal, hardware := { d with
      window := windowSelector base, windowWrites := ((m.tally 0).see base).writes } }
  | .error f d => .error f { m.showing 0 base with journal, hardware := { d with
      window := windowSelector base, windowWrites := ((m.tally 0).see base).writes } }

namespace Trails

/-- A machine trails itself. -/
theorem refl (h : Poised m) : Trails m m := by
  refine ⟨h, m.tally 0, m.journal.lines, .refl _, ?_⟩
  obtain ⟨c, hc, -⟩ := h.alone
  have hlast : (m.tally 0).last = c.window.cached := by
    simp only [Machine.tally, Machine.trusted, Machine.controller, hc, List.getD_cons_zero]
  have hcontrollers : m.controllers =
      m.controllers.map fun c => { c with window.cached := (m.tally 0).last } := by
    rw [hlast, hc]
    rfl
  exact congrArg (fun controllers => { m with controllers }) hcontrollers

/-! ## Placements -/

/-- **What leaves the store alone and does not look behind the veil** answers in the same way. -/
theorem blind {act : Action Device α} (hblind : Blind (Veiled fun t m => m.retallied t) act)
    (hstore : ∀ store, Keeps (Machine.store · = store) act) : Blind Trails act := by
  rintro m _ ⟨hpoised, t, lines, hlapses, rfl⟩
  have halike := hblind m _ ⟨t, lines, rfl⟩
  -- the tallies are what they were before
  have htrails : ∀ m₁ m₁', m₁.store = m.store → m₁'.store = ((m.retallied t).relined lines).store →
      Veiled (fun t m => m.retallied t) m₁ m₁' → Trails m₁ m₁' := by
    rintro m₁ _ h h' ⟨t₁, lines₁, rfl⟩
    have hpoised₁ := hpoised.of_store h
    have ht := Machine.tally_of_store h' 0
    rw [hpoised₁.tally_retallied, hpoised.tally_retallied] at ht
    exact ⟨hpoised₁, t₁, lines₁, Machine.tally_of_store h 0 ▸ ht ▸ hlapses, rfl⟩
  have hkept := hstore _ m rfl
  have hkept' := hstore _ ((m.retallied t).relined lines) rfl
  unfold leaves at hkept hkept'
  generalize act m = r at halike hkept ⊢
  generalize act ((m.retallied t).relined lines) = r' at halike hkept' ⊢
  cases halike with
  | ok a h => exact .ok a (htrails _ _ hkept hkept' h)
  | error f h => exact .error f (htrails _ _ hkept hkept' h)

theorem blind_note (n : Notice) : Blind Trails (Action.note n) :=
  blind (veil_retallied.blind_note n) fun _ => Action.store_note n

theorem blind_record (call : Call) : Blind Trails (Action.record call) :=
  blind (veil_retallied.blind_record call) fun _ => Action.store_record call

theorem blind_place (i size align : Nat) : Blind Trails (Action.place i size align) :=
  blind (veil_retallied.blind_place i size align) fun _ => Action.store_place i size align

theorem blind_free (o : InstanceObject) : Blind Trails (Action.free o) :=
  blind (veil_retallied.blind_free o) fun _ => Action.store_free o

theorem blind_teardown (i : Nat) : Blind Trails (Action.teardown i) :=
  blind (veil_retallied.blind_teardown i) fun _ => Action.store_teardown i

/-! ## The device -/

/-- A change of the device that the window has no part in. -/
theorem setHardware (h : Trails m m') {f : Device → Device}
    (hf : ∀ d windowWrites, f { d with windowWrites } = { f d with windowWrites })
    (hwindow : ∀ d, (f d).window = d.window) :
    Trails { m with hardware := f m.hardware } { m' with hardware := f m'.hardware } := by
  obtain ⟨hpoised, t, lines, hlapses, rfl⟩ := h
  have hwrites : (f m.hardware).windowWrites = m.hardware.windowWrites :=
    congrArg (·.windowWrites) (hf m.hardware m.hardware.windowWrites)
  have htally : ({ m with hardware := f m.hardware } : Machine Device).tally 0 = m.tally 0 := by
    rw [Machine.tally, hwrites]
    rfl
  refine ⟨⟨hpoised.settled.setHardware (hwindow _), hpoised.alone⟩, t, lines, htally ▸ hlapses, ?_⟩
  exact congrArg (fun hardware => { (m.retallied t).relined lines with hardware })
    (hf m.hardware t.writes)

/-! ## The window -/

/-- Once a window is selected, the device is that of the first machine but for how often the register
was written. -/
theorem selecting_eq (h : m.trusted i = some base → m.hardware.window = windowSelector base) :
    m.hardware.selecting (m.trusted i) base = { m.hardware with
      window := windowSelector base
      windowWrites := ((m.tally i).see base).writes } := by
  have hwindow := Device.window_selecting h
  have hwrites := Device.windowWrites_selecting (m.trusted i) base m.hardware
  obtain ⟨window, windowWrites, hselecting⟩ := Device.exists_selecting (m.trusted i) base m.hardware
  rw [hselecting] at hwindow hwrites ⊢
  dsimp only at hwindow hwrites
  rw [hwindow, hwrites, Tally.see_eq]
  rfl

/-- Machines that show the same window on devices that differ only in how often the register was
written. -/
theorem showing (h : Trails m m') (base : Nat) (d : Device) {journal journal' : Journal}
    (hopen : journal.isOpen = m.journal.isOpen) (hopen' : journal'.isOpen = m.journal.isOpen) :
    Trails
      { m.showing 0 base with journal, hardware := { d with
          window := windowSelector base, windowWrites := ((m.tally 0).see base).writes } }
      { m'.showing 0 base with journal := journal', hardware := { d with
          window := windowSelector base, windowWrites := ((m'.tally 0).see base).writes } } := by
  obtain ⟨hpoised, t, lines, hlapses, rfl⟩ := h
  rw [hpoised.tally_retallied]
  obtain ⟨⟨hsilent, huninterrupted, -⟩, c, hc, -⟩ := hpoised
  have hlast : ∀ t : Tally, (t.see base).last = some base := by
    intro t
    rw [Tally.see_eq]
  have hshown : (m.controllers.modify 0 fun c => { c with window := ⟨some base, false⟩ }) =
      [{ c with window := ⟨some base, false⟩ }] := by
    rw [hc]
    rfl
  have hshown' : (((m.retallied t).relined lines).controllers.modify 0
      fun c => { c with window := ⟨some base, false⟩ }) =
        [{ c with window := ⟨some base, false⟩ }] := by
    simp only [Machine.relined, Machine.retallied, hc]
    rfl
  simp only [Machine.showing, Machine.mapController, hshown, hshown']
  refine ⟨⟨⟨hsilent, huninterrupted, ?_⟩, _, rfl, rfl⟩, t.see base, journal'.lines, ?_, ?_⟩
  · intro c' other hc' hother
    obtain rfl := Option.some.inj hc'
    obtain rfl := Option.some.inj hother
    rfl
  · have htally : (m.tally 0).see base = ⟨some base, ((m.tally 0).see base).writes⟩ := by
      rw [← hlast (m.tally 0)]
    have hsees := hlapses.see base
    rwa [htally] at hsees
  · simp only [Machine.relined, Machine.retallied, hlast, hopen, ← hopen', List.map_singleton]

/-- **An access through the window comes to the same**, if all that the device needs of the window is
that it is shown. -/
theorem throughWindow (h : Trails m m') {access : Nat → Action Device α}
    {act flat : EStateM Fault Device α}
    (hbooks : ∀ register books, Keeps (Machine.books · = books) (access register))
    (haccess : ∀ m, Quiet m →
      access (apertureRegister + windowOffset address) m = Action.onHardware act m)
    (hflat : ∀ d windowWrites,
      act { d with window := windowSelector (windowBase address), windowWrites } =
        Device.overWindow (windowSelector (windowBase address)) windowWrites (flat d)) :
    Alike Trails (Action.throughWindow 0 address access m)
      (Action.throughWindow 0 address access m') := by
  have hrun : ∀ m₁ : Machine Device, Quiet m₁ → m₁.journal.isOpen = m.journal.isOpen →
      m₁.hardware.selecting (m₁.trusted 0) (windowBase address) = { m.hardware with
        window := windowSelector (windowBase address)
        windowWrites := ((m₁.tally 0).see (windowBase address)).writes } →
      ∃ journal : Journal, journal.isOpen = m.journal.isOpen ∧
        Action.throughWindow 0 address access m₁ =
          m₁.shownResult (windowBase address) journal (flat m.hardware) := by
    intro m₁ hquiet hopen hselecting
    have hact := hflat m.hardware ((m₁.tally 0).see (windowBase address)).writes
    rw [← hselecting] at hact
    cases hdevice : flat m.hardware with
    | ok a d =>
      rw [hdevice] at hact
      obtain ⟨journal, hanswer⟩ := hquiet.throughWindow_of_ok haccess hact
      have hsame := (Action.books_throughWindow 0 address fun register => hbooks register _).of_ok
        rfl hanswer
      exact ⟨journal, (congrArg (·.journal.isOpen) hsame).trans hopen, hanswer⟩
    | error f d =>
      rw [hdevice] at hact
      exact ⟨m₁.journal, hopen, hquiet.throughWindow_of_error haccess hact⟩
  have hcoherent : m.trusted 0 = some (windowBase address) →
      m.hardware.window = windowSelector (windowBase address) := h.poised.settled.window_of_cached
  obtain ⟨journal, hopen, hanswer⟩ := hrun m h.poised.settled.quiet rfl (selecting_eq hcoherent)
  have h' := h
  obtain ⟨hpoised, t, lines, hlapses, rfl⟩ := h
  -- what is still remembered after the lapse is right
  have hcoherent' : ((m.retallied t).relined lines).trusted 0 = some (windowBase address) →
      m.hardware.window = windowSelector (windowBase address) := by
    intro htrusted
    have htally := hpoised.tally_retallied t lines
    exact hcoherent (hlapses.last ((congrArg Tally.last htally).symm.trans htrusted))
  obtain ⟨journal', hopen', hanswer'⟩ := hrun ((m.retallied t).relined lines)
    (hpoised.quiet_retallied t lines) rfl (selecting_eq hcoherent')
  rw [hanswer, hanswer']
  cases flat m.hardware with
  | ok a d => exact .ok a (h'.showing _ d hopen hopen')
  | error f d => exact .error f (h'.showing _ d hopen hopen')

theorem blind_readWindowed (address : Nat) : Blind Trails (Action.readWindowed 0 address) := by
  intro m m' h
  have hflat : ∀ (d : Device) (windowWrites : Nat),
      (Platform.readRegister (apertureRegister + windowOffset address) : EStateM Fault Device UInt32)
        { d with window := windowSelector (windowBase address), windowWrites } =
          Device.overWindow (windowSelector (windowBase address)) windowWrites
            ((monadLift (d.read (address % windowedLimit)) : EStateM Fault Device UInt32) d) := by
    intro d windowWrites
    have hregister : Device.readRegister
        { d with window := windowSelector (windowBase address), windowWrites }
          (apertureRegister + windowOffset address) = d.read (address % windowedLimit) := by
      rw [Device.readRegister_of_shown (Device.shownAddress_of_window rfl), Device.read_setWindow]
    simp only [Platform.readRegister, hregister]
    cases d.read (address % windowedLimit) <;> rfl
  exact h.throughWindow (fun register _ => Action.books_readRegister register)
    (fun m hm => hm.readRegister _) hflat

theorem blind_writeWindowed (address : Nat) (value : UInt32) :
    Blind Trails (Action.writeWindowed 0 address value) := by
  intro m m' h
  have hflat : ∀ (d : Device) (windowWrites : Nat),
      (Platform.writeRegister (apertureRegister + windowOffset address) value :
        EStateM Fault Device Unit)
          { d with window := windowSelector (windowBase address), windowWrites } =
        Device.overWindow (windowSelector (windowBase address)) windowWrites
          (Device.write (address % windowedLimit) value d) := by
    intro d windowWrites
    rw [← Device.write_setWindow]
    exact Device.writeRegister_of_shown (Device.shownAddress_of_window rfl) value
  exact h.throughWindow (fun register _ => Action.books_writeRegister register value)
    (fun m hm => hm.writeRegister _ value) hflat

/-! ## Words -/

theorem blind_readAperture (offset : Nat) : Blind Trails (Action.readAperture offset) := by
  apply blind_get_bind
  intro m m' h
  have hvram : m'.hardware.vram = m.hardware.vram := by
    obtain ⟨-, t, lines, -, rfl⟩ := h
    rfl
  have hread : Platform.readAperture m'.hardware offset = Platform.readAperture m.hardware offset :=
    congrArg (·.read offset) hvram
  rw [hread]
  exact (blind_record _).bind (fun _ => blind_pure _) m m' h

theorem blind_writeAperture (offset : Nat) (value : UInt32) :
    Blind Trails (Action.writeAperture offset value) := by
  refine Blind.bind ?_ fun _ => blind_record _
  intro m m' h
  have hwritten := @setHardware m m' h (fun d => { d with vram := d.vram.write offset value })
    (fun _ _ => rfl) fun _ => rfl
  exact .ok () hwritten

variable {o : InstanceObject}

/-- **A word of an object of the controller** is read in the same way. -/
theorem blind_readWord (ho : o.owner = 0) (offset : Nat) : Blind Trails (Action.readWord o offset) := by
  unfold Action.readWord
  rw [ho]
  refine (blind_lift _).bind ?_
  intro address
  cases o.strategy with
  | heap => exact blind_readAperture address
  | iommu => exact blind_readWindowed address
  | dma => exact blind_readWindowed address

theorem blind_writeWord (ho : o.owner = 0) (offset : Nat) (value : UInt32) :
    Blind Trails (Action.writeWord o offset value) := by
  unfold Action.writeWord
  rw [ho]
  refine (blind_lift _).bind ?_
  intro address
  cases o.strategy with
  | heap => exact blind_writeAperture address value
  | iommu => exact blind_writeWindowed address value
  | dma => exact blind_writeWindowed address value

/-! ## The controller -/

theorem controller_eq (h : Trails m m') (i : Nat) :
    ∃ window, m'.controller i = { m.controller i with window } := by
  obtain ⟨-, t, lines, -, rfl⟩ := h
  exact veil_retallied.controller t m i

/-- **A request is answered in the same way**, and its object is zeroed if so asked. -/
theorem blind_allocate (size align : Nat) (zeroed : Bool) :
    Blind Trails (Action.allocate 0 size align zeroed) := by
  refine Action.blind_allocate ?_ (blind_place 0 size align)
    (fun o ho => Action.blind_fill fun offset => blind_writeWord ho offset 0) blind_free
  intro m m' h
  obtain ⟨window, hc⟩ := h.controller_eq 0
  rw [hc]

/-- What the two machines know of their controllers. -/
structure Differ (c : Controller) (last : Option Nat) (m m' : Machine Device) : Prop where
  first : m.controllers = [c]
  second : m'.controllers = [{ c with window.cached := last }]
  released : c.window.isHeld = false
  coherent : ∀ base, c.window.cached = some base → m.hardware.window = windowSelector base
  lapses : Tally.Lapses ⟨c.window.cached, m.hardware.windowWrites⟩ ⟨last, m'.hardware.windowWrites⟩

theorem Differ.controller_first {c : Controller} {last : Option Nat} (h : Differ c last m m') :
    m.controller 0 = c := by
  rw [Machine.controller, h.first, List.getD_cons_zero]

theorem Differ.controller_second {c : Controller} {last : Option Nat} (h : Differ c last m m') :
    m'.controller 0 = { c with window.cached := last } := by
  rw [Machine.controller, h.second, List.getD_cons_zero]

/-- The controllers of the two machines differ in what they remember alone. -/
theorem exists_differ (h : Trails m m') : ∃ c last, Differ c last m m' := by
  obtain ⟨⟨hsettled, c, hc, hheld⟩, t, lines, hlapses, rfl⟩ := h
  have htally : m.tally 0 = ⟨c.window.cached, m.hardware.windowWrites⟩ := by
    simp only [Machine.tally, Machine.trusted, Machine.controller, hc, List.getD_cons_zero]
  have hfirst : m.controllers[0]? = some c := by
    rw [hc]
    rfl
  refine ⟨c, t.last, hc, ?_, hheld, fun base => hsettled.coherent c base hfirst, htally ▸ hlapses⟩
  simp only [Machine.relined, Machine.retallied, hc, List.map_singleton]

/-- Controllers that differ in what they remember take the place of the ones before. -/
theorem setController (h : Trails m m') {f f' : Controller → Controller} {b c : Controller}
    {last other : Option Nat} (hdiffer : Differ b other m m') (hf : f b = c)
    (hf' : f' { b with window.cached := other } = { c with window.cached := last })
    (hheld : c.window.isHeld = false)
    (hcoherent : ∀ base, c.window.cached = some base → m.hardware.window = windowSelector base)
    (hlapses : Tally.Lapses ⟨c.window.cached, m.hardware.windowWrites⟩
      ⟨last, m'.hardware.windowWrites⟩) :
    Trails (m.mapController 0 f) (m'.mapController 0 f') := by
  have hmodify : m.controllers.modify 0 f = [c] := by
    rw [hdiffer.first, ← hf]
    rfl
  have hmodify' : m'.controllers.modify 0 f' = [{ c with window.cached := last }] := by
    rw [hdiffer.second, ← hf']
    rfl
  obtain ⟨⟨hsettled, -⟩, t, lines, -, hsame⟩ := h
  simp only [Machine.mapController, hmodify, hmodify']
  refine ⟨⟨⟨hsettled.silent, hsettled.uninterrupted, ?_⟩, c, rfl, hheld⟩,
    ⟨last, m'.hardware.windowWrites⟩, lines, hlapses, ?_⟩
  · intro c' base hc' hbase
    obtain rfl := Option.some.inj hc'
    exact hcoherent base hbase
  · rw [hsame]
    rfl

/-- Both controllers go over to a phase. -/
theorem setPhase (h : Trails m m') {c : Controller} {last : Option Nat} (hdiffer : Differ c last m m')
    (phase : Phase) : Trails (m.mapController 0 fun _ => { c with phase })
      (m'.mapController 0 fun _ => { c with phase, window.cached := last }) :=
  h.setController hdiffer rfl rfl hdiffer.released hdiffer.coherent hdiffer.lapses

/-- **Both controllers forget the window**, so that they remember the same. -/
theorem forget (h : Trails m m') {f f' : Controller → Controller} {b c : Controller}
    {last : Option Nat} (hdiffer : Differ b last m m') (hf : f b = c)
    (hf' : f' { b with window.cached := last } = c) (hwindow : c.window = .unknown) :
    Trails (m.mapController 0 f) (m'.mapController 0 f') := by
  have hnone : { c with window.cached := none } = c := by
    obtain ⟨chipset, backing, window, phase, live, layout, firmware, isPresent⟩ := c
    cases hwindow
    rfl
  have hlast : c.window.cached = none := congrArg (·.cached) hwindow
  refine h.setController hdiffer hf (hf'.trans hnone.symm) (congrArg (·.isHeld) hwindow) ?_ ?_
  · intro base hbase
    rw [hlast] at hbase
    cases hbase
  · rw [hlast]
    exact hdiffer.lapses.forget

/-- A record that takes the place of another is noted. -/
theorem replaceController {c c' : Controller} (n : Notice)
    (h : Trails (m.mapController 0 fun _ => c) (m'.mapController 0 fun _ => c')) :
    Alike Trails (Action.replaceController 0 c n m) (Action.replaceController 0 c' n m') := by
  have hreplaced : Alike Trails (Action.onController 0 (fun _ => c) m)
      (Action.onController 0 (fun _ => c') m') := .ok () h
  exact hreplaced.bind fun _ t t' _ ht => (blind_note n).bind (fun _ => blind_pure _) t t' ht

theorem blind_init : Blind Trails (Action.init 0) := by
  apply blind_get_bind
  intro m m' h
  obtain ⟨c, last, hdiffer⟩ := h.exists_differ
  simp only [hdiffer.controller_first, hdiffer.controller_second, Controller.transition]
  by_cases hphase : c.phase = .constructed
  · rw [if_pos hphase, if_pos hphase]
    exact replaceController _ (h.setPhase hdiffer .initialized)
  · rw [if_neg hphase, if_neg hphase]
    exact .ok _ h

theorem blind_resume : Blind Trails (Action.resume 0) := by
  apply blind_get_bind
  intro m m' h
  obtain ⟨c, last, hdiffer⟩ := h.exists_differ
  simp only [hdiffer.controller_first, hdiffer.controller_second, Controller.transition]
  by_cases hphase : c.phase = .suspended
  · rw [if_pos hphase, if_pos hphase]
    exact replaceController _ (h.setPhase hdiffer .initialized)
  · rw [if_neg hphase, if_neg hphase]
    exact .ok _ h

theorem blind_suspend : Blind Trails (Action.suspend 0) := by
  apply blind_get_bind
  intro m m' h
  obtain ⟨c, last, hdiffer⟩ := h.exists_differ
  simp only [hdiffer.controller_first, hdiffer.controller_second, Controller.transition]
  by_cases hphase : c.phase = .initialized
  · rw [if_pos hphase, if_pos hphase]
    simp only [Controller.tryInvalidate, hdiffer.released, Bool.false_eq_true, if_false]
    exact replaceController _ (h.forget hdiffer rfl rfl rfl)
  · rw [if_neg hphase, if_neg hphase]
    exact .ok _ h

theorem blind_invalidate : Blind Trails (Action.invalidate 0) := by
  intro m m' h
  obtain ⟨c, last, hdiffer⟩ := h.exists_differ
  exact .ok () (h.forget hdiffer rfl rfl (congrArg (Window.mk none) hdiffer.released))

theorem blind_tryInvalidate : Blind Trails (Action.tryInvalidate 0) := by
  apply blind_get_bind
  intro m m' h
  obtain ⟨c, last, hdiffer⟩ := h.exists_differ
  simp only [hdiffer.controller_first, hdiffer.controller_second, Controller.tryInvalidate,
    hdiffer.released, Bool.false_eq_true, if_false]
  have hforgets : Alike Trails
      (Action.onController 0 (fun _ => { c with window := ⟨none, false⟩ }) m)
      (Action.onController 0 (fun _ => { c with window := ⟨none, false⟩ }) m') :=
    .ok () (h.forget hdiffer rfl rfl rfl)
  exact hforgets.bind fun _ t t' _ ht => .ok true ht

/-! ## Where a lapse begins -/

/-- The record of the one controller is replaced, and this is noted. -/
theorem run_replaceController {b : Controller} (hb : m.controllers = [b]) {n : Notice} {text : String}
    (hn : n.text = .ok text) (c : Controller) : ∃ lines, Action.replaceController 0 c n m =
      .ok (.ok ()) (Machine.relined { m with controllers := [c] } lines) := by
  obtain ⟨⟨isOpen, lines⟩, hjournal⟩ := m.journal.note_of_text hn
  obtain rfl : isOpen = m.journal.isOpen := Journal.isOpen_of_note hjournal
  have hreplace : Action.onController 0 (fun _ => c) m = .ok () { m with controllers := [c] } := by
    simp only [Action.onController, Machine.mapController, hb]
    rfl
  have hnote : Action.note n { m with controllers := [c] } =
      .ok () (Machine.relined { m with controllers := [c] } lines) := by
    simp only [Action.note, hjournal]
    rfl
  refine ⟨lines, ?_⟩
  rw [Action.replaceController, run_bind_of_ok hreplace, run_bind_of_ok hnote]
  rfl

/-- **A suspension and a resume succeed** for a controller that is ready, and leave a machine that
trails the one before them. -/
theorem of_suspend_resume (h : Poised m) (hphase : (m.controller 0).phase = .initialized) :
    ∃ m₁ m₂, Action.suspend 0 m = .ok (.ok ()) m₁ ∧ Action.resume 0 m₁ = .ok (.ok ()) m₂ ∧
      Trails m m₂ := by
  obtain ⟨c, hc, hheld⟩ := h.alone
  have hcontroller : m.controller 0 = c := by
    rw [Machine.controller, hc, List.getD_cons_zero]
  rw [hcontroller] at hphase
  obtain ⟨lines, hasleep⟩ := run_replaceController hc (n := .suspended) rfl
    { c with phase := .suspended, window.cached := none }
  obtain ⟨lines', hawake⟩ := run_replaceController (n := .resumed)
    (m := Machine.relined
      { m with controllers := [{ c with phase := .suspended, window.cached := none }] } lines)
    rfl rfl { c with phase := .initialized, window.cached := none }
  have hlapsed : Machine.relined
      { m with controllers := [{ c with phase := .initialized, window.cached := none }] } lines' =
        (m.retallied ⟨none, m.hardware.windowWrites⟩).relined lines' := by
    simp only [Machine.relined, Machine.retallied, hc, List.map_singleton, ← hphase]
  have htransition : c.transition .suspend .initialized .suspended =
      .ok { c with phase := .suspended } := if_pos hphase
  have hforgets : Controller.tryInvalidate { c with phase := .suspended } =
      some { c with phase := .suspended, window.cached := none } :=
    if_neg (hheld ▸ Bool.false_ne_true)
  have hsuspend : Action.suspend 0 m = Action.replaceController 0
      { c with phase := .suspended, window.cached := none } .suspended m := by
    rw [Action.suspend, run_get_bind, hcontroller, htransition]
    dsimp only
    rw [hforgets]
  exact ⟨_, _, hsuspend.trans hasleep, hawake, h, ⟨none, m.hardware.windowWrites⟩, lines',
    .inl ⟨rfl, rfl⟩, hlapsed⟩

end Trails

/-! ## Building -/

/-- What zeroes objects of the one controller, and reads registers, leaves it right about the window. -/
theorem Poised.lasting : Lasting 0 Poised where
  of_store _ _ hstore h := h.of_store hstore
  zeroing o ho m h := by
    have hfill := Action.blind_fill fun offset => Trails.blind_writeWord ho offset 0
    exact (hfill m m (.refl h)).leaves.poised
  register address m h := by
    rw [leaves, h.settled.quiet.readRegister address]
    refine Action.keeps_onHardware (fun m h => ?_) m h
    rwa [Action.leaves_platform_readRegister]

/-- A quiet machine without controllers. -/
structure Idle (m : Machine Device) : Prop where
  quiet : Quiet m
  controllers : m.controllers = []

namespace Idle

theorem of_length (hquiet : Quiet m') (h : Idle m)
    (hlength : m'.controllers.length = m.controllers.length) : Idle m' := by
  rw [h.controllers] at hlength
  exact ⟨hquiet, List.eq_nil_of_length_eq_zero hlength⟩

theorem lasting : Lasting 0 Idle where
  of_store m m' hstore h := by
    have hlength := congrArg (·.controllers.length) hstore
    simp only [Machine.store, List.length_map] at hlength
    exact h.of_length (h.quiet.of_store hstore) hlength
  zeroing o _ m h :=
    h.of_length (Action.keeps_fill (fun offset => Quiet.keeps_writeWord o offset 0) m h.quiet)
      (Machine.length_of_books (Action.books_fill o 0 m rfl))
  register address m h :=
    h.of_length (Quiet.of_keeps (QuietWith.keeps_readRegister address) m h.quiet)
      (Machine.length_of_books (Action.books_readRegister address m rfl))

/-- **The first controller is built right about its window**, or not at all. -/
theorem build (h : Idle m) : Idle (leaves (Action.build : Action Device _) m) ∨
    Poised (leaves (Action.build : Action Device _) m) := by
  refine Lasting.build (P := fun m => Idle m ∨ Poised m) lasting (lasting.or Poised.lasting)
    (fun _ => .inl) ?_ ?_ h
  · intro m h
    rw [h.controllers]
    rfl
  · intro m c h hwindow
    refine .inr ⟨⟨h.quiet.silent, h.quiet.uninterrupted, ?_⟩, c, ?_, congrArg (·.isHeld) hwindow⟩
    · intro c' base hc' hbase
      simp only [h.controllers, List.nil_append] at hc'
      obtain rfl := Option.some.inj hc'
      rw [hwindow] at hbase
      cases hbase
    · simp only [h.controllers, List.nil_append]

end Idle
end InstanceMemory
