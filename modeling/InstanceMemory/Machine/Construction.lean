import InstanceMemory.Machine.Access

/-!
# Construction and teardown

A controller is built for what its device has. With dedicated VRAM, a heap is reserved at its start
and the firmware structures are placed in it; without, objects come from system memory, behind the
IOMMU if the device has one. Teardown frees the firmware structures; other objects that are still
alive keep the backing.
-/

set_option autoImplicit false

namespace InstanceMemory.Action

variable {π : Type} [Platform π] {α : Type}

/-- Adds a controller, and tells its number. -/
def addController (c : Controller) : Action π Nat := do
  let i := (← get).controllers.length
  modify fun m => { m with controllers := m.controllers ++ [c] }
  return i

/-- Adds a controller that takes nothing to be built. -/
def enlist (n : Notice) (c : Controller) : Action π (Except Error Nat) := do
  note n
  return .ok (← addController c)

/-- Frees the firmware structures of a controller, the last one first. -/
def freeFirmware (i : Nat) : Action π Unit := do
  match ((← get).controller i).firmware with
  | none => return
  | some firmware =>
    onController i fun c => { c with firmware := none }
    free firmware.ramfc
    free firmware.ramro
    free firmware.ramht
    free firmware.vbios

/-- Ends a controller. -/
def dismiss (i : Nat) : Action π Unit := do
  note .destroyed
  onController i fun c => { c with isPresent := false }

/-- Destroys a controller. -/
def teardown (i : Nat) : Action π Unit := do
  freeFirmware i
  let c := (← get).controller i
  if 0 < c.live then note (.survivors c.live c.strategy)
  dismiss i

/-- Runs what comes after a step that took something, and undoes the step if it fails or faults. -/
def guarding (undo : Action π Unit) (act : Action π (Except Error α)) :
    Action π (Except Error α) := do
  match ← orUndo act undo with
  | .ok a => return .ok a
  | .error cause =>
    undo
    return .error cause

/-- Allocates an object and goes on with it; it is freed if what follows fails. -/
def withAllocated (i size : Nat) (zeroed : Bool)
    (next : InstanceObject → Action π (Except Error α)) : Action π (Except Error α) := do
  match ← allocate i size 0 zeroed with
  | .error cause => return .error cause
  | .ok object => guarding (free object) (next object)

/-- Faults unless an object lies where the layout says. -/
def expectAt (object : InstanceObject) (range : AddressRange) : Except Fault Unit :=
  if object.offset = range.base then .ok () else .error (.misplaced object.offset range.base)

/-- Places the firmware structures. Only the last of them is zeroed. -/
def placeFirmware (i : Nat) (layout : ReservedLayout) :
    Action π (Except Error FirmwareObjects) :=
  withAllocated i layout.vbios.length false fun vbios =>
  withAllocated i layout.ramht.length false fun ramht =>
  withAllocated i layout.ramro.length false fun ramro =>
  withAllocated i layout.ramfc.length true fun ramfc => do
    expectAt vbios layout.vbios
    expectAt ramht layout.ramht
    expectAt ramro layout.ramro
    expectAt ramfc layout.ramfc
    return .ok ⟨vbios, ramht, ramro, ramfc⟩

/-- Sizes the heap for a device with dedicated VRAM and maps the aperture onto it. -/
def reserveHeap (chipset : ChipsetInfo) : Action π (Except Error (Backing × ReservedLayout)) := do
  if chipset.family ≠ .curie then
    return .error (.unsupported (.unsizedHeap chipset.family chipset.chipset))
  let bar := if (← barLength primaryBar) ≠ 0 then primaryBar else fallbackBar
  match ← mapBar bar with
  | none =>
    note .barUnmapped
    return .error (.platformFailed (.unmappedBar bar))
  | some length =>
    let units := enabledShaderUnits (← readRegister unitConfigRegister)
    let layout ← ReservedLayout.compute chipset.chipset (UInt32.ofNat units)
    if length < layout.reserved then
      return .error (.unsupported (.shortBar bar length layout.reserved))
    note (.servingHeap layout.reserved units)
    match Backing.ofReserved layout.reserved length with
    | .error cause => return .error cause
    | .ok backing => return .ok (backing, layout)

/-- Places the firmware structures of a new controller and puts them on its record. The controller is
destroyed if that fails. -/
def equip (i : Nat) (layout : ReservedLayout) : Action π (Except Error Nat) :=
  guarding (teardown i) do
    match ← placeFirmware i layout with
    | .error cause => return .error cause
    | .ok firmware =>
      onController i fun c => { c with firmware := some firmware }
      return .ok i

/-- Builds a controller on a heap, with the firmware structures placed in it. -/
def buildOnHeap (chipset : ChipsetInfo) : Action π (Except Error Nat) := do
  match ← reserveHeap chipset with
  | .error cause => return .error cause
  | .ok (backing, layout) =>
    equip (← addController (.fresh chipset backing (some layout))) layout

/-- Builds a controller for the device, and tells its number. -/
def build : Action π (Except Error Nat) := do
  let m ← get
  let chipset := Platform.chipset m.hardware
  if ¬ chipset.family.isSupported then
    return .error (.unsupported (.family chipset.chipset chipset.family))
  else if chipset.hasVram then
    buildOnHeap chipset
  else if m.shared.isSome then
    enlist .servingIommu (.fresh chipset .iommu none)
  else
    enlist .servingDma (.fresh chipset .dma none)

end InstanceMemory.Action
