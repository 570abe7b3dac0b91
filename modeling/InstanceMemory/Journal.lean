import InstanceMemory.AddressRange
import InstanceMemory.Error

/-!
# The journal

Operations note what they do in a journal. A notice is written out when it is noted, and not at all
while the journal is closed. Writing out can fault: the text of an untracked release names the
range's stop, which may lie outside the address space. So **a closed journal faults never**, and an
open one faults exactly on such a range; a notice that faults is not entered.
-/

set_option autoImplicit false

namespace InstanceMemory

/-- How grave a notice is. -/
inductive Level
  | error | warn | info | debug | trace
  deriving DecidableEq, Repr

/-- The level as it stands in front of a line. -/
def Level.text : Level → String
  | .error => "ERROR"
  | .warn => "WARN"
  | .info => "INFO"
  | .debug => "DEBUG"
  | .trace => "TRACE"

/-- What there is to note. -/
inductive Notice
  | untrackedRelease (space : String) (range : AddressRange)
  | heapExhausted (cause : Error)
  | spaceFull
  | pageRefused (index count : Nat)
  | mappingRefused (code : Int)
  | bufferRefused
  | barUnmapped
  | misaligned (handle align : Nat)
  | survivors (count : Nat) (strategy : Strategy)
  | servingHeap (reserved shaderUnits : Nat)
  | servingIommu
  | servingDma
  | requested (strategy : Strategy) (size align : Nat)
  | placed (size align address : Nat)
  | initialized (strategy : Strategy)
  | suspended
  | resumed
  | destroyed
  | windowMoved (base : Nat)
  deriving DecidableEq, Repr

namespace Notice

/-- The level of a notice. -/
def level : Notice → Level
  | untrackedRelease .. | heapExhausted _ | spaceFull | pageRefused .. | mappingRefused _
  | bufferRefused | barUnmapped => .error
  | misaligned .. | survivors .. => .warn
  | servingHeap .. | servingIommu | servingDma => .info
  | requested .. | placed .. | initialized _ | suspended | resumed | destroyed => .debug
  | windowMoved _ => .trace

/-- The text of a notice. -/
def text : Notice → Except Fault String
  | untrackedRelease space range => do
    return space ++ ": tried to release untracked range " ++ (← range.render)
  | heapExhausted cause => .ok ("instmem heap exhausted: " ++ cause.message)
  | spaceFull => .ok "virtual space is full!"
  | pageRefused index count =>
    .ok ("cannot allocate page " ++ toString index ++ " of " ++ toString count)
  | mappingRefused code => .ok ("IOMMU mapping failure: " ++ toString code)
  | bufferRefused => .ok "cannot allocate DMA memory"
  | barUnmapped => .ok "unable to map PRAMIN BAR"
  | misaligned handle align =>
    .ok ("memory not aligned as requested: " ++ Hex.write handle ++ " (" ++ Hex.write align ++ ")")
  | survivors count strategy =>
    .ok (toString count ++ " instance object(s) still alive at teardown, " ++ strategy.text ++
      " backing kept until they drop")
  | servingHeap reserved shaderUnits =>
    .ok ("using VRAM heap: " ++ Hex.write reserved ++ " reserved bytes, " ++ toString shaderUnits ++
      " shader units")
  | servingIommu => .ok "using IOMMU"
  | servingDma => .ok "using DMA API"
  | requested strategy size align =>
    .ok ("instobj (" ++ strategy.text ++ "): size: " ++ Hex.write size ++ " align: " ++
      Hex.write align)
  | placed size align address =>
    .ok ("alloc size: " ++ Hex.write size ++ ", align: " ++ Hex.write align ++ ", gaddr: " ++
      Hex.write address)
  | initialized strategy => .ok ("instmem initialized (" ++ strategy.text ++ ")")
  | suspended => .ok "instmem suspended"
  | resumed => .ok "instmem resumed"
  | destroyed => .ok "instmem destroyed"
  | windowMoved base => .ok ("PRAMIN window moved to " ++ Hex.write base)

/-- The line a notice leaves in an open journal. -/
def line (n : Notice) : Except Fault String := do
  return n.level.text ++ " " ++ (← n.text)

end Notice

/-- Lines noted so far, the oldest first, or a closed journal that takes none. -/
structure Journal where
  isOpen : Bool
  lines : Array String
  deriving DecidableEq, Repr, Inhabited

namespace Journal

/-- An empty journal. -/
def start (isOpen : Bool) : Journal := ⟨isOpen, #[]⟩

/-- Enters a notice. -/
def note (journal : Journal) (n : Notice) : Except Fault Journal :=
  if journal.isOpen then do return { journal with lines := journal.lines.push (← n.line) }
  else .ok journal

/-- A closed journal stays as it is. -/
theorem note_of_closed {journal : Journal} (h : journal.isOpen = false) (n : Notice) :
    journal.note n = .ok journal := by
  simp [note, h]

end Journal
end InstanceMemory
