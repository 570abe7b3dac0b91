import InstanceMemory.Proofs.Machine.Dedicated
import InstanceMemory.Scripted.Board

/-!
# Building on dedicated memory

`Writes` tells what a platform was asked to write between two machines: some words of its aperture, one
after the other, and no register. The steps of building a controller on a heap compose along it, on any
platform.

A new heap is `Filling` from its start. As long as the next object ends within it, a placement is
granted at the end of what is there, so the structures come to lie where the layout says and none of
the checks of their places faults. `Action.build_on_heap` puts it together: **a controller for dedicated
memory is built exactly as laid out** wherever the aperture holds the heap, and is refused without a
write where it does not.
-/

set_option autoImplicit false

namespace InstanceMemory

variable {π : Type} [Platform π] {m m' m'' : Machine π} {words more : List (Nat × UInt32)}

/-! ## What is written -/

/-- A platform after words were written to its aperture, one after the other. -/
def Platform.writeWords (words : List (Nat × UInt32)) (hardware : π) : π :=
  words.foldl (fun hardware word => Platform.writeAperture hardware word.1 word.2) hardware

/-- The word that a call writes to the aperture, and where. -/
def Call.apertureWord? : Call → Option (Nat × UInt32)
  | .writeAperture offset value => some (offset, value)
  | _ => none

/-- Whether a call writes a register. -/
def Call.writesRegister : Call → Bool
  | .writeRegister .. => true
  | _ => false

/-- From one machine to another these words were written to the aperture and no register was. A trace
that is recording shows it. -/
structure Writes (words : List (Nat × UInt32)) (m m' : Machine π) : Prop where
  hardware : m'.hardware = Platform.writeWords words m.hardware
  recording : m'.trace.isRecording = m.trace.isRecording
  calls : ∃ calls, m'.trace.calls.toList = m.trace.calls.toList ++ calls ∧
    (∀ call ∈ calls, call.writesRegister = false) ∧
    (m.trace.isRecording = true → calls.filterMap Call.apertureWord? = words)

namespace Writes

theorem of_eq (hhardware : m'.hardware = m.hardware) (htrace : m'.trace = m.trace) :
    Writes [] m m' := by
  refine ⟨hhardware, congrArg (·.isRecording) htrace, [], ?_, fun _ h => absurd h List.not_mem_nil,
    fun _ => rfl⟩
  rw [htrace, List.append_nil]

theorem trans (h : Writes words m m') (h' : Writes more m' m'') : Writes (words ++ more) m m'' := by
  obtain ⟨calls, hcalls, hregister, hwords⟩ := h.calls
  obtain ⟨later, hlater, hregister', hmore⟩ := h'.calls
  refine ⟨?_, h'.recording.trans h.recording, calls ++ later, ?_, ?_, ?_⟩
  · rw [h'.hardware, h.hardware, Platform.writeWords, Platform.writeWords, Platform.writeWords,
      List.foldl_append]
  · rw [hlater, hcalls, List.append_assoc]
  · intro call hcall
    exact (List.mem_append.mp hcall).elim (hregister call) (hregister' call)
  · intro hrecording
    rw [List.filterMap_append, hwords hrecording, hmore (h.recording.trans hrecording)]

/-- Nothing was written by what came before. -/
theorem silent_trans (h : Writes [] m m') (h' : Writes more m' m'') : Writes more m m'' :=
  h.trans h'

/-- Nothing was written by what came after. -/
theorem trans_silent (h : Writes words m m') (h' : Writes [] m' m'') : Writes words m m'' :=
  List.append_nil words ▸ h.trans h'

/-- What was written before the platform changed of itself does not matter. -/
theorem setHardware (h : Writes [] m m') (hardware : π) :
    Writes [] { m with hardware } { m' with hardware } :=
  ⟨rfl, h.recording, h.calls⟩

/-- A call that writes at most a word of the aperture is entered into the trace. -/
theorem of_record {call : Call} (hregister : call.writesRegister = false)
    (hhardware : m'.hardware = Platform.writeWords call.apertureWord?.toList m.hardware)
    (htrace : m'.trace = m.trace.record call) : Writes call.apertureWord?.toList m m' := by
  unfold Trace.record at htrace
  cases hrecording : m.trace.isRecording with
  | false =>
    rw [hrecording, if_neg Bool.false_ne_true] at htrace
    refine ⟨hhardware, congrArg (·.isRecording) htrace, [], ?_, fun _ h => absurd h List.not_mem_nil,
      fun h => absurd (hrecording.symm.trans h) Bool.false_ne_true⟩
    rw [htrace, List.append_nil]
  | true =>
    rw [if_pos hrecording] at htrace
    refine ⟨hhardware, congrArg (·.isRecording) htrace, [call], ?_, ?_, ?_⟩
    · rw [htrace, Array.toList_push]
    · intro other hother
      rwa [List.mem_singleton.mp hother]
    · intro _
      cases hword : call.apertureWord? with
      | none => exact List.filterMap_cons_none hword
      | some word => exact List.filterMap_cons_some hword

/-- A call that writes nothing is entered into the trace. -/
theorem record (call : Call) (hword : call.apertureWord? = none)
    (hregister : call.writesRegister = false) (m : Machine π) :
    Writes [] m { m with trace := m.trace.record call } := by
  have hrecord : Writes call.apertureWord?.toList m { m with trace := m.trace.record call } :=
    of_record hregister (by rw [hword]; rfl) rfl
  rwa [hword] at hrecord

end Writes

namespace Action

/-! ## Steps that write nothing -/

theorem note_writes {n : Notice} {text : String} (hn : n.text = .ok text) (m : Machine π) :
    ∃ m', note n m = .ok () m' ∧ Writes [] m m' ∧ m'.controllers = m.controllers := by
  obtain ⟨journal, hnote⟩ := note_of_text hn m
  exact ⟨_, hnote, .of_eq rfl rfl, rfl⟩

/-- Serving an interrupt writes nothing. -/
theorem serveInterrupt_writes (m : Machine π) : ∃ m', serveInterrupt m = .ok () m' ∧
    Writes [] m m' ∧ m'.controllers.length = m.controllers.length := by
  unfold serveInterrupt
  rw [run_get_bind]
  cases m.interrupt with
  | none => exact ⟨m, rfl, .of_eq rfl rfl, rfl⟩
  | some i =>
    dsimp only
    rw [run_modify_bind, run_get_bind]
    split
    · rcases suspend_cases i { m with interrupt := none } with ⟨cause, hact⟩ | ⟨-, journal, hact⟩
      · rw [run_bind_of_ok hact, record_eq]
        have hsilent : Writes [] m { m with interrupt := none } := .of_eq rfl rfl
        exact ⟨_, rfl, hsilent.silent_trans (.record _ rfl rfl _), rfl⟩
      · rw [run_bind_of_ok hact, record_eq]
        refine ⟨_, rfl, Writes.silent_trans ?_ (.record _ rfl rfl _), List.length_modify _ _ _⟩
        exact .of_eq rfl rfl
    · exact ⟨_, rfl, .of_eq rfl rfl, rfl⟩

/-- Reading a register leaves what the platform leaves. -/
theorem readRegister_writes {address : Nat} {value : UInt32} {hardware : π}
    (h : Platform.readRegister address m.hardware = .ok value hardware) :
    ∃ m', readRegister address m = .ok value m' ∧ Writes [] { m with hardware } m' ∧
      m'.controllers.length = m.controllers.length := by
  obtain ⟨m₁, hserve, hwrites, hlength⟩ := serveInterrupt_writes m
  have hread : onHardware (Platform.readRegister address) m₁ = .ok value { m₁ with hardware } := by
    apply run_onHardware_of_ok
    rwa [hwrites.hardware]
  unfold readRegister
  rw [run_bind_of_ok hserve, run_bind_of_ok hread, run_bind_of_ok (record_eq _ _)]
  exact ⟨_, rfl, (hwrites.setHardware hardware).silent_trans (.record _ rfl rfl _), hlength⟩

/-! ## Filling an object on a heap -/

theorem writeAperture_writes (offset : Nat) (value : UInt32) (m : Machine π) :
    ∃ m', writeAperture offset value m = .ok () m' ∧ Writes [(offset, value)] m m' ∧
      m'.controllers = m.controllers := by
  have hwrite : onHardware (fun hardware => .ok () (Platform.writeAperture hardware offset value)) m =
      .ok () { m with hardware := Platform.writeAperture m.hardware offset value } :=
    run_onHardware_of_ok rfl
  unfold writeAperture
  rw [run_bind_of_ok hwrite, record_eq]
  have hregister : (Call.writeAperture offset value).writesRegister = false := rfl
  exact ⟨_, rfl, .of_record hregister rfl rfl, rfl⟩

/-- A word of an object on a heap is read through the aperture. -/
theorem readWord_writes {o : InstanceObject} {offset : Nat} (hheap : o.strategy = .heap)
    (haddress : o.offset + offset < addressLimit) (m : Machine π) :
    ∃ m', readWord o offset m = .ok (Platform.readAperture m.hardware (o.offset + offset)) m' ∧
      Writes [] m m' ∧ m'.controllers = m.controllers := by
  let call := Call.readAperture (o.offset + offset)
    (Platform.readAperture m.hardware (o.offset + offset))
  refine ⟨{ m with trace := m.trace.record call }, ?_, .record call rfl rfl m, rfl⟩
  rw [readWord, run_bind_of_ok (run_lift_of_ok (checkedAdd_of_lt haddress) m), hheap]
  dsimp only
  unfold readAperture
  rw [run_get_bind, run_bind_of_ok (record_eq _ m)]
  rfl

/-- A word of an object on a heap is written through the aperture. -/
theorem writeWord_writes {o : InstanceObject} {offset : Nat} (hheap : o.strategy = .heap)
    (haddress : o.offset + offset < addressLimit) (value : UInt32) (m : Machine π) :
    ∃ m', writeWord o offset value m = .ok () m' ∧ Writes [(o.offset + offset, value)] m m' ∧
      m'.controllers = m.controllers := by
  obtain ⟨m', hword, hwrites⟩ := writeAperture_writes (o.offset + offset) value m
  refine ⟨m', ?_, hwrites⟩
  rw [writeWord, run_bind_of_ok (run_lift_of_ok (checkedAdd_of_lt haddress) m), hheap]
  exact hword

/-- **Filling writes each word once, in ascending order**, if the object ends within the addresses. -/
theorem fillFrom_writes {o : InstanceObject} (hheap : o.strategy = .heap) (value : UInt32) (count : Nat)
    {offset : Nat} (hlimit : o.offset + offset + count * wordSize ≤ addressLimit) (m : Machine π) :
    ∃ m', fillFrom o value count offset m = .ok () m' ∧
      Writes ((List.range' (o.offset + offset) count wordSize).map (·, value)) m m' ∧
      m'.controllers = m.controllers := by
  induction count generalizing offset m with
  | zero => exact ⟨m, rfl, .of_eq rfl rfl, rfl⟩
  | succ count ih =>
    rw [Nat.succ_mul] at hlimit
    have haddress : o.offset + offset < addressLimit := by
      unfold wordSize at hlimit
      omega
    obtain ⟨m₁, hfirst, hwrites, hcontrollers⟩ := writeWord_writes hheap haddress value m
    have hlimit' : o.offset + (offset + wordSize) + count * wordSize ≤ addressLimit := by omega
    obtain ⟨m₂, hrest, hmore, hcontrollers'⟩ := ih hlimit' m₁
    refine ⟨m₂, ?_, hwrites.trans hmore, hcontrollers'.trans hcontrollers⟩
    rw [fillFrom, run_bind_of_ok hfirst]
    exact hrest

end Action

/-! ## A heap on the way -/

open Stocking (next)

/-- A new controller whose heap is filled from its start up to an address, with a number of objects. Its
firmware structures may be on record already. -/
def Filling (i : Nat) (chipset : ChipsetInfo) (layout : ReservedLayout) (length : Nat)
    (firmware : Option FirmwareObjects) (below live : Nat) (m : Machine π) : Prop :=
  ∃ space, m.controllers[i]? =
      some { Controller.fresh chipset (.heap space length) (some layout) with live, firmware } ∧
    Stocked below space ∧ space.length = layout.reserved

namespace Filling

variable {i length below live size : Nat} {chipset : ChipsetInfo} {layout : ReservedLayout}
  {firmware : Option FirmwareObjects}

omit [Platform π] in
theorem of_controllers (h : Filling i chipset layout length firmware below live m)
    (hcontrollers : m'.controllers = m.controllers) :
    Filling i chipset layout length firmware below live m' := by
  rwa [Filling, hcontrollers]

/-- **The next addresses of the heap are reserved** as long as they lie within it. -/
theorem reserve (h : Filling i chipset layout length firmware below live m) (hbelow : pageSize ∣ below)
    (hsize : pageSize ∣ size) (hpos : 0 < size) (hroom : below + size ≤ layout.reserved) :
    ∃ m', Action.reserve (.heap i) size pageSize m = .ok (.ok ⟨below, size⟩) m' ∧ Writes [] m m' ∧
      Filling i chipset layout length firmware (below + size) live m' := by
  obtain ⟨space, hc, hstocked, hlength⟩ := h
  have hspace : m.space? (.heap i) = some space := by
    simp only [Machine.space?, Machine.controller_of_getElem? hc, Controller.fresh]
  rcases hstocked.reserve hbelow hsize hpos with ⟨hshort, -⟩ | ⟨next, hnext, hmore, hlength'⟩
  · exact absurd hroom (Nat.not_le.mpr (hlength ▸ hshort))
  · unfold Action.reserve
    rw [run_get_bind, hspace]
    dsimp only
    rw [run_bind_of_ok (run_lift_of_ok hnext m)]
    dsimp only
    rw [run_modify_bind, run_bind_of_ok (Action.record_eq _ _)]
    have hsilent : Writes [] m (m.setSpace (.heap i) next) := .of_eq rfl rfl
    refine ⟨_, rfl, hsilent.silent_trans (.record _ rfl rfl _), next, ?_, hmore, hlength'.trans hlength⟩
    have hset : (m.setSpace (.heap i) next).controllers[i]? = _ := Machine.getElem?_mapController m i i _
    rw [hc, Option.map_some, if_pos rfl] at hset
    exact hset

/-- **A request is granted at the end of what is there** as long as it fits behind it. -/
theorem place (h : Filling i chipset layout length firmware below live m) (hbelow : pageSize ∣ below)
    (hsize : pageSize ∣ size) (hpos : 0 < size) (hroom : below + size ≤ layout.reserved)
    (hround : Action.pageRound size 0 = .ok (size, pageSize)) :
    ∃ m', Action.place i size 0 m = .ok (.ok (next i below size)) m' ∧ Writes [] m m' ∧
      Filling i chipset layout length firmware (below + size) (live + 1) m' := by
  have hstrategy : (m.controller i).strategy = .heap := by
    obtain ⟨space, hc, -⟩ := h
    rw [Machine.controller_of_getElem? hc]
    rfl
  obtain ⟨m₁, hnote, hwrites₁, hcontrollers₁⟩ :=
    Action.note_writes (n := .requested (m.controller i).strategy size 0) rfl m
  obtain ⟨m₂, hreserve, hwrites₂, h₂⟩ :=
    (h.of_controllers hcontrollers₁).reserve hbelow hsize hpos hroom
  have hplace : Action.placeBy .heap i size pageSize m₁ = .ok (.ok (next i below size)) m₂ := by
    show Action.placeInHeap i size pageSize m₁ = _
    unfold Action.placeInHeap
    rw [run_bind_of_ok hreserve]
    rfl
  obtain ⟨m₃, hnote', hwrites₃, hcontrollers₃⟩ :=
    Action.note_writes (n := .placed size pageSize (next i below size).offset) rfl m₂
  have hcount : Action.onController i (fun c => { c with live := c.live + 1 }) m₃ =
      .ok () (m₃.mapController i fun c => { c with live := c.live + 1 }) := rfl
  refine ⟨m₃.mapController i fun c => { c with live := c.live + 1 }, ?_, ?_, ?_⟩
  · unfold Action.place
    rw [run_get_bind, run_bind_of_ok hnote, hround, hstrategy]
    dsimp only
    rw [run_bind_of_ok hplace]
    dsimp only
    rw [run_bind_of_ok hnote', run_bind_of_ok hcount]
    rfl
  · exact (hwrites₁.silent_trans (hwrites₂.silent_trans hwrites₃)).silent_trans (.of_eq rfl rfl)
  · obtain ⟨space, hc, hrest⟩ := h₂.of_controllers hcontrollers₃
    refine ⟨space, ?_, hrest⟩
    rw [Machine.getElem?_mapController, hc, Option.map_some, if_pos rfl]

/-- **An object is made at the end of what is there**, and all its words are zeroed if that is asked. -/
theorem allocate (h : Filling i chipset layout length firmware below live m) (hbelow : pageSize ∣ below)
    (hsize : pageSize ∣ size) (hpos : 0 < size) (hroom : below + size ≤ layout.reserved)
    (hlimit : layout.reserved < addressLimit)
    (hround : Action.pageRound size 0 = .ok (size, pageSize)) (zeroed : Bool) :
    ∃ m', Action.allocate i size 0 zeroed m = .ok (.ok (next i below size)) m' ∧
      Writes (if zeroed then (List.range' below (size / wordSize) wordSize).map (·, 0) else []) m m' ∧
      Filling i chipset layout length firmware (below + size) (live + 1) m' := by
  have hphase : (m.controller i).phase = .constructed := by
    obtain ⟨space, hc, -⟩ := h
    rw [Machine.controller_of_getElem? hc]
    rfl
  obtain ⟨m₁, hplace, hwrites, h₁⟩ := h.place hbelow hsize hpos hroom hround
  unfold Action.allocate
  rw [run_get_bind, hphase]
  dsimp only
  unfold Action.make
  rw [run_bind_of_ok hplace]
  dsimp only
  cases zeroed with
  | false => exact ⟨m₁, rfl, hwrites, h₁⟩
  | true =>
    have hwords : (next i below size).offset + 0 + (next i below size).words * wordSize ≤ addressLimit := by
      have hdiv := Nat.div_mul_le_self size wordSize
      simp only [next, InstanceObject.words]
      omega
    obtain ⟨m₂, hfill, hmore, hcontrollers⟩ := Action.fillFrom_writes rfl 0 _ hwords m₁
    have hzero : Action.orUndo (Action.fill (next i below size) 0) (Action.free (next i below size)) m₁ =
        .ok () m₂ := Action.run_orUndo_of_ok hfill _
    rw [if_pos rfl, run_bind_of_ok hzero]
    exact ⟨m₂, rfl, hwrites.silent_trans hmore, h₁.of_controllers hcontrollers⟩

end Filling

/-! ## The firmware structures in place -/

namespace Action

variable {α : Type} {i size : Nat} {zeroed : Bool} {o : InstanceObject} {a : α}

omit [Platform π] in
/-- What succeeds needs no undoing. -/
theorem run_guarding_of_ok {act : Action π (Except Error α)} (h : act m = .ok (.ok a) m')
    (undo : Action π Unit) : guarding undo act m = .ok (.ok a) m' := by
  unfold guarding
  rw [run_bind_of_ok (run_orUndo_of_ok h undo)]
  rfl

theorem run_withAllocated_of_ok {follow : InstanceObject → Action π (Except Error α)}
    (h : allocate i size 0 zeroed m = .ok (.ok o) m') (hfollow : follow o m' = .ok (.ok a) m'') :
    withAllocated i size zeroed follow m = .ok (.ok a) m'' := by
  unfold withAllocated
  rw [run_bind_of_ok h]
  exact run_guarding_of_ok hfollow _

open ReservedLayout (vbiosSize ramhtSize ramroSize ramfcSize)

/-- **The firmware structures are placed where the layout says**, and the last of them is zeroed. -/
theorem placeFirmware_writes {chipset : ChipsetInfo} {units : UInt32} {layout : ReservedLayout}
    {length : Nat} (hlayout : ReservedLayout.compute chipset.chipset units = .ok layout)
    (h : Filling i chipset layout length none 0 0 m) :
    ∃ m', placeFirmware i layout m = .ok (.ok (.laid i)) m' ∧
      Writes ((List.range' 0x20000 0x8000 wordSize).map (·, 0)) m m' ∧
      Filling i chipset layout length none 0x40000 4 m' := by
  obtain ⟨-, hroom, hlimit⟩ := ReservedLayout.lt_reserved hlayout
  obtain ⟨hvbios, hramht, hramro, hramfc⟩ := ReservedLayout.ranges_of_compute hlayout
  obtain ⟨m₁, hvbiosMade, hwrites₁, h₁⟩ := h.allocate (by decide) (by decide : pageSize ∣ vbiosSize)
    (by decide) (Nat.le_trans (by decide) hroom) hlimit (by decide +kernel) false
  obtain ⟨m₂, hramhtMade, hwrites₂, h₂⟩ := h₁.allocate (by decide) (by decide : pageSize ∣ ramhtSize)
    (by decide) (Nat.le_trans (by decide) hroom) hlimit (by decide +kernel) false
  obtain ⟨m₃, hramroMade, hwrites₃, h₃⟩ := h₂.allocate (by decide) (by decide : pageSize ∣ ramroSize)
    (by decide) (Nat.le_trans (by decide) hroom) hlimit (by decide +kernel) false
  obtain ⟨m₄, hramfcMade, hwrites₄, h₄⟩ := h₃.allocate (by decide) (by decide : pageSize ∣ ramfcSize)
    (by decide) (Nat.le_trans (by decide) hroom) hlimit (by decide +kernel) true
  refine ⟨m₄, ?_, (hwrites₁.silent_trans (hwrites₂.silent_trans hwrites₃)).silent_trans hwrites₄, h₄⟩
  unfold placeFirmware
  rw [hvbios, hramht, hramro, hramfc]
  refine run_withAllocated_of_ok hvbiosMade (run_withAllocated_of_ok hramhtMade
    (run_withAllocated_of_ok hramroMade (run_withAllocated_of_ok hramfcMade ?_)))
  rfl

/-! ## The whole of it -/

/-- A controller of the one family with sized heaps is built on a heap if the device has dedicated
memory. -/
theorem run_build_of_vram (hvram : (Platform.chipset m.hardware).hasVram = true)
    (hfamily : (Platform.chipset m.hardware).family = .curie) :
    build m = buildOnHeap (Platform.chipset m.hardware) m := by
  have hsupported : ¬ ¬ (Platform.chipset m.hardware).family.isSupported = true := by
    rw [hfamily]
    decide
  rw [build, run_get_bind, if_neg hsupported, if_pos hvram]

/-- The resource that carries the aperture. -/
def servingBar (hardware : π) : Nat :=
  if Platform.barLength hardware primaryBar ≠ 0 then primaryBar else fallbackBar

theorem barLength_writes (bar : Nat) (m : Machine π) :
    ∃ m', barLength bar m = .ok (Platform.barLength m.hardware bar) m' ∧ Writes [] m m' ∧
      m'.controllers = m.controllers := by
  unfold barLength
  rw [run_bind_of_ok (record_eq _ m)]
  exact ⟨_, rfl, .record _ rfl rfl m, rfl⟩

theorem mapBar_writes (bar : Nat) (m : Machine π) :
    ∃ m', mapBar bar m = .ok (Platform.mapBar m.hardware bar) m' ∧ Writes [] m m' ∧
      m'.controllers = m.controllers := by
  unfold mapBar
  rw [run_bind_of_ok (record_eq _ m)]
  exact ⟨_, rfl, .record _ rfl rfl m, rfl⟩

section

variable {chipset : ChipsetInfo} {layout : ReservedLayout} {length : Nat} {value : UInt32}
  {hardware : π} (hfamily : chipset.family = .curie)
  (hmap : Platform.mapBar m.hardware (servingBar m.hardware) = some length)
  (hunits : Platform.readRegister unitConfigRegister m.hardware = .ok value hardware)
  (hlayout : ReservedLayout.compute chipset.chipset (UInt32.ofNat (enabledShaderUnits value)) =
    .ok layout)

include hfamily hmap hunits hlayout

/-- **A heap is reserved exactly if the aperture holds it**, and nothing is written for it. -/
theorem reserveHeap_writes :
    ∃ m', Writes [] { m with hardware } m' ∧ m'.controllers.length = m.controllers.length ∧
      if length < layout.reserved then
        reserveHeap chipset m = .ok (.error (.unsupported
          (.shortBar (servingBar m.hardware) length layout.reserved))) m'
      else ∃ space, reserveHeap chipset m = .ok (.ok (.heap space length, layout)) m' ∧
        Stocked 0 space ∧ space.length = layout.reserved := by
  obtain ⟨m₁, hbar, hwrites₁, hcontrollers₁⟩ := barLength_writes primaryBar m
  obtain ⟨m₂, hmapped, hwrites₂, hcontrollers₂⟩ := mapBar_writes (servingBar m.hardware) m₁
  have hasked : Writes [] m m₂ := hwrites₁.silent_trans hwrites₂
  have hsame : m₂.hardware = m.hardware := hasked.hardware
  obtain ⟨m₃, hread, hwrites₃, hlength₃⟩ := readRegister_writes (m := m₂) (hsame ▸ hunits)
  have hwrites : Writes [] { m with hardware } m₃ := (hasked.setHardware hardware).silent_trans hwrites₃
  have hcount : m₃.controllers.length = m.controllers.length := by
    rw [hlength₃, hcontrollers₂, hcontrollers₁]
  have hanswer : mapBar (if Platform.barLength m.hardware primaryBar ≠ 0 then primaryBar else fallbackBar)
      m₁ = .ok (some length) m₂ := by
    rw [hwrites₁.hardware] at hmapped
    exact hmapped.trans (congrArg (EStateM.Result.ok · m₂) hmap)
  unfold reserveHeap
  rw [if_neg (not_not.mpr hfamily), run_bind_of_ok hbar]
  dsimp only
  rw [run_bind_of_ok hanswer]
  dsimp only
  rw [run_bind_of_ok hread, run_bind_of_ok (run_lift_of_ok hlayout m₃)]
  by_cases hshort : length < layout.reserved
  · refine ⟨m₃, hwrites, hcount, ?_⟩
    rw [if_pos hshort, if_pos hshort]
    rfl
  · obtain ⟨hpages, hroom, hlimit⟩ := ReservedLayout.lt_reserved hlayout
    obtain ⟨space, hcreate, hstocked, hsize⟩ :=
      Stocked.create "instmem heap" (Nat.lt_of_lt_of_le (by decide) hroom) hpages hlimit
    obtain ⟨m₄, hnote, hwrites₄, hcontrollers₄⟩ :=
      note_writes (n := .servingHeap layout.reserved (enabledShaderUnits value)) rfl m₃
    refine ⟨m₄, hwrites.silent_trans hwrites₄, hcontrollers₄ ▸ hcount, ?_⟩
    rw [if_neg hshort, if_neg hshort, run_bind_of_ok hnote, Backing.ofReserved, hcreate]
    exact ⟨space, rfl, hstocked, hsize⟩

/-- **A heap is built upon exactly if the aperture holds it**, with the firmware structures in it. -/
theorem buildOnHeap_writes :
    if length < layout.reserved then
      ∃ m', buildOnHeap chipset m = .ok (.error (.unsupported
          (.shortBar (servingBar m.hardware) length layout.reserved))) m' ∧
        Writes [] { m with hardware } m'
    else ∃ m', buildOnHeap chipset m = .ok (.ok m.controllers.length) m' ∧
        Writes ((List.range' 0x20000 0x8000 wordSize).map (·, 0)) { m with hardware } m' ∧
        Filling m.controllers.length chipset layout length (some (.laid m.controllers.length)) 0x40000 4
          m' := by
  obtain ⟨m₁, hwrites₁, hcount, hreserve⟩ := reserveHeap_writes hfamily hmap hunits hlayout
  by_cases hshort : length < layout.reserved
  · rw [if_pos hshort] at hreserve ⊢
    refine ⟨m₁, ?_, hwrites₁⟩
    rw [buildOnHeap, run_bind_of_ok hreserve]
    rfl
  · rw [if_neg hshort] at hreserve ⊢
    obtain ⟨space, hreserve, hstocked, hsize⟩ := hreserve
    let m₂ : Machine π := { m₁ with
      controllers := m₁.controllers ++ [.fresh chipset (.heap space length) (some layout)] }
    have hadd : addController (.fresh chipset (.heap space length) (some layout)) m₁ =
        .ok m.controllers.length m₂ := by
      rw [← hcount]
      rfl
    have hfilling : Filling m.controllers.length chipset layout length none 0 0 m₂ := by
      refine ⟨space, ?_, hstocked, hsize⟩
      rw [← hcount]
      exact List.getElem?_concat_length
    obtain ⟨m₃, hplace, hwrites₃, full, hc, hstocked', hsize'⟩ := placeFirmware_writes hlayout hfilling
    have hsilent : Writes [] m₁ m₂ := .of_eq rfl rfl
    let m₄ := m₃.mapController m.controllers.length fun c =>
      { c with firmware := some (.laid m.controllers.length) }
    have hequip : equip m.controllers.length layout m₂ = .ok (.ok m.controllers.length) m₄ := by
      refine run_guarding_of_ok ?_ _
      rw [run_bind_of_ok hplace]
      rfl
    refine ⟨m₄, ?_, ?_, full, ?_, hstocked', hsize'⟩
    · rw [buildOnHeap, run_bind_of_ok hreserve]
      dsimp only
      rw [run_bind_of_ok hadd]
      exact hequip
    · exact (hwrites₁.silent_trans (hsilent.silent_trans hwrites₃)).trans_silent (.of_eq rfl rfl)
    · rw [Machine.getElem?_mapController, hc, Option.map_some, if_pos rfl]

end

end Action

/-- A controller that was built for a layout, with an aperture of a length: the firmware structures are
where the layout says, the heap is free behind them in one piece, and nothing else is alive. -/
structure Controller.LaidOut (layout : ReservedLayout) (length : Nat) (c : Controller) : Prop where
  isPresent : c.isPresent = true
  record : c.layout = some layout
  live : c.live = 4
  firmware : ∃ firmware, c.firmware = some firmware ∧
    firmware.toList.map (·.extent) = [layout.vbios, layout.ramht, layout.ramro, layout.ramfc] ∧
    firmware.toList.map (·.resource) =
      [.heap layout.vbios, .heap layout.ramht, .heap layout.ramro, .heap layout.ramfc]
  heap : ∃ space hole, c.backing = .heap space length ∧ space.free = [hole] ∧
    hole.base = 0x40000 ∧ hole.limit = layout.reserved

namespace Action

/-- **A controller for dedicated memory is built exactly as laid out**, on any platform, if the aperture
holds the reserved heap: the firmware structures are where the layout says, what is behind them is free,
and all that is written is zeros to the last of them. If the aperture is too short, the controller is
refused and nothing is written. -/
theorem build_on_heap {length : Nat} {value : UInt32} {hardware : π}
    (hvram : (Platform.chipset m.hardware).hasVram = true)
    (hfamily : (Platform.chipset m.hardware).family = .curie)
    (hmap : Platform.mapBar m.hardware (servingBar m.hardware) = some length)
    (hunits : Platform.readRegister unitConfigRegister m.hardware = .ok value hardware) :
    ∃ layout, ReservedLayout.compute (Platform.chipset m.hardware).chipset
        (UInt32.ofNat ((List.range' 8 8).filter value.toNat.testBit).length) = .ok layout ∧
      (layout.reserved ≤ length → ∃ m' c, build m = .ok (.ok m.controllers.length) m' ∧
        m'.controllers[m.controllers.length]? = some c ∧ c.LaidOut layout length ∧
        Writes ((List.range' 0x20000 0x8000 wordSize).map (·, 0)) { m with hardware } m') ∧
      (length < layout.reserved → ∃ m',
        build m = .ok (.error (.unsupported
          (.shortBar (servingBar m.hardware) length layout.reserved))) m' ∧
        Writes [] { m with hardware } m') := by
  rw [← enabledShaderUnits_eq]
  obtain ⟨reserved, -, -, hlayout⟩ := ReservedLayout.compute_eq (Platform.chipset m.hardware).chipset
    (UInt32.ofNat (enabledShaderUnits value))
  refine ⟨_, hlayout, ?_⟩
  generalize ReservedLayout.mk _ _ _ _ _ _ _ _ = layout at hlayout ⊢
  have hwrites := buildOnHeap_writes hfamily hmap hunits hlayout
  rw [run_build_of_vram hvram hfamily]
  refine ⟨fun hle => ?_, fun hlt => (if_pos hlt).mp hwrites⟩
  rw [if_neg (Nat.not_lt.mpr hle)] at hwrites
  obtain ⟨m', hrun, hzeros, space, hc, hstocked, hsize⟩ := hwrites
  obtain ⟨-, hroom, -⟩ := ReservedLayout.lt_reserved hlayout
  obtain ⟨hvbios, hramht, hramro, hramfc⟩ := ReservedLayout.ranges_of_compute hlayout
  have hbehind : 0x40000 < space.length := hsize ▸ Nat.lt_of_lt_of_le (by decide) hroom
  refine ⟨m', _, hrun, hc, ⟨rfl, rfl, rfl, ⟨_, rfl, ?_⟩, space, _, rfl, hstocked.free_eq hbehind, rfl, ?_⟩,
    hzeros⟩
  · rw [hvbios, hramht, hramro, hramfc]
    exact ⟨rfl, rfl⟩
  · exact (Nat.add_sub_of_le (Nat.le_of_lt hbehind)).trans hsize

/-- What is reserved on the chipset 0x47 with all eight units enabled. -/
theorem reserved_of_eight_units {layout : ReservedLayout}
    (h : ReservedLayout.compute 0x47 8 = .ok layout) : layout.reserved = 0x624000 := by
  have hreserved : (ReservedLayout.compute 0x47 8).map (·.reserved) = .ok 0x624000 := by
    decide +kernel
  rw [h] at hreserved
  exact Except.ok.inj hreserved

/-- A board of the chipset 0x47 with all eight units enabled, whose aperture of 8 MiB holds the heap of
its layout. -/
theorem build_on_heap_board :
    let board : Scripted.Board := ⟨⟨0x47, .curie, true⟩, (∅ : Std.TreeMap Nat UInt32).insert 0x1540 0xff00,
      [(2, 0x800000)], some 0x800000, ∅, [], [], []⟩
    let m := Machine.start board none true true
    (Platform.chipset board).hasVram = true ∧ (Platform.chipset board).family = .curie ∧
      Platform.mapBar board (servingBar board) = some 0x800000 ∧
      Platform.readRegister unitConfigRegister board = .ok 0xff00 board ∧
      ∃ layout m' c, build m = .ok (.ok 0) m' ∧ m'.controllers[0]? = some c ∧
        c.LaidOut layout 0x800000 ∧ Writes ((List.range' 0x20000 0x8000 wordSize).map (·, 0)) m m' := by
  intro board m
  have hunits : Platform.readRegister unitConfigRegister board = .ok 0xff00 board := rfl
  refine ⟨rfl, rfl, rfl, hunits, ?_⟩
  obtain ⟨layout, hlayout, hbuilt, -⟩ := @build_on_heap _ _ m 0x800000 0xff00 board rfl rfl rfl hunits
  have hle : layout.reserved ≤ 0x800000 := by
    rw [reserved_of_eight_units hlayout]
    decide
  obtain ⟨m', c, hrun, hc, hlaid, hwrites⟩ := hbuilt hle
  exact ⟨layout, m', c, hrun, hc, hlaid, hwrites⟩

end Action
end InstanceMemory
