import InstanceMemory.DeviceMap
import InstanceMemory.Platform
import InstanceMemory.Simulator.SystemMemory
import Std.Data.ExtTreeMap

/-!
# The translation table

The table maps pages of device addresses to physical pages. A mapping is refused if its size or its
address is not in whole pages, if it permits nothing, if the budget of mappings is used up, or if a
page of it is mapped already; the budget is spent before the table is looked at. Taking mappings
back touches every page of the range, mapped or not.
-/

set_option autoImplicit false

namespace InstanceMemory.Simulator

/-- Physical pages by the device address they are mapped to. -/
structure Translation where
  table : Std.ExtTreeMap Nat Nat
  budget : Budget

/-- Why a mapping is refused. -/
inductive MappingRefusal
  | invalid
  | noMemory
  | alreadyMapped
  deriving DecidableEq, Repr

/-- The code of a refusal. -/
def MappingRefusal.code : MappingRefusal → Int
  | .invalid => -22
  | .noMemory => -12
  | .alreadyMapped => -17

namespace Translation

/-- A table without mappings. -/
def empty : Translation := ⟨∅, none⟩

/-- The device address of the first byte of a page. -/
def pageOf (address : Nat) : Nat := address / pageSize * pageSize

/-- The physical address a device address is mapped to. -/
def translate (t : Translation) (address : Nat) : Except Fault (Option Nat) :=
  match t.table[pageOf address]? with
  | none => .ok none
  | some physical => do return some (← checkedAdd physical (address % pageSize))

/-- How many pages are mapped. -/
def mappedPages (t : Translation) : Nat := t.table.size

/-- Whether any of a number of pages, from the page of an index on, is mapped already. -/
def anyMapped (table : Std.ExtTreeMap Nat Nat) (address : Nat) :
    (pages index : Nat) → Except Fault Bool
  | 0, _ => .ok false
  | pages + 1, index => do
    if table.contains (← checkedAdd address (index * pageSize)) then return true
    else anyMapped table address pages (index + 1)

/-- Maps a number of pages, from the page of an index on. -/
def mapFrom (address physical : Nat) :
    (pages index : Nat) → EStateM Fault (Std.ExtTreeMap Nat Nat) Unit
  | 0, _ => return
  | pages + 1, index => do
    let page ← checkedAdd address (index * pageSize)
    let target ← checkedAdd physical (index * pageSize)
    modify (·.insert page target)
    mapFrom address physical pages (index + 1)

/-- Takes back the mappings of a number of pages, behind those that were `unmapped` already. -/
def unmapFrom : (pages page unmapped : Nat) → EStateM Fault (Std.ExtTreeMap Nat Nat) Nat
  | 0, _, unmapped => return unmapped
  | pages + 1, page, unmapped => do
    let was := (← get).contains page
    modify (·.erase page)
    unmapFrom pages (← checkedAdd page pageSize) (if was then unmapped + pageSize else unmapped)

/-- Lets the table change. -/
def onTable {α : Type} (act : EStateM Fault (Std.ExtTreeMap Nat Nat) α) :
    EStateM Fault Translation α := fun ⟨table, budget⟩ =>
  match act table with
  | .ok a table => .ok a ⟨table, budget⟩
  | .error f table => .error f ⟨table, budget⟩

/-- Maps a run of device addresses to a run of physical ones. -/
def map (address physical size : Nat) (permissions : Permissions) :
    EStateM Fault Translation (Except MappingRefusal Unit) := do
  if size = 0 ∨ size % pageSize ≠ 0 ∨ address % pageSize ≠ 0 ∨ permissions.isEmpty then
    return .error .invalid
  match (← get).budget.spend? with
  | none => return .error .noMemory
  | some budget =>
    modify fun t => { t with budget }
    let pages := size / pageSize
    if ← anyMapped (← get).table address pages 0 then return .error .alreadyMapped
    onTable (mapFrom address physical pages 0)
    return .ok ()

/-- Takes back the mappings of a run of device addresses, and tells how many bytes were mapped. -/
def unmap (address size : Nat) : EStateM Fault Translation Nat := do
  let stop ← checkedAdd address size
  let first := pageOf address
  onTable (unmapFrom ((stop - first + (pageSize - 1)) / pageSize) first 0)

end Translation
end InstanceMemory.Simulator
