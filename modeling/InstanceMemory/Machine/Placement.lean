import InstanceMemory.Machine.Window

/-!
# Placement

How each strategy makes an object and gives its resources back. The request is already rounded to
pages.

* In the **heap** an object is a range of the reserved heap.
* Behind the **IOMMU** it is made of system pages: the pages are taken first, then a range of device
  addresses, and then each page is mapped to its slot of the range. If a step fails, what was taken
  before is given back, the newest first.
* From the **buffer allocator** it is one contiguous buffer, aligned as the platform pleases.
-/

set_option autoImplicit false

namespace InstanceMemory.Action

variable {π : Type} [Platform π]

/-! ## The reserved heap -/

/-- Places an object in the heap of a controller. -/
def placeInHeap (i size align : Nat) : Action π (Except Error InstanceObject) := do
  match ← reserve (.heap i) size align with
  | .error cause =>
    note (.heapExhausted cause)
    return .error cause
  | .ok range => return .ok ⟨i, range.base, size, false, .heap range⟩

/-! ## Pages behind the IOMMU -/

/-- Gives pages back, from the head of the list on. -/
def freePages : List Nat → Action π Unit
  | [] => return
  | page :: rest => do
    freePage page
    freePages rest

/-- Takes back the mappings of a number of slots from a device address on, the last slot first. -/
def unmapSlots (base : Nat) : (slots : Nat) → Action π Unit
  | 0 => return
  | slots + 1 => do
    unmapPage (base + slots * pageSize)
    unmapSlots base slots

/-- Undoes a placement: the mapped slots, then the range, then the pages, each the newest first. -/
def undoPlacement (range : AddressRange) (slots : Nat) (taken : List Nat) : Action π Unit := do
  unmapSlots range.base slots
  release .shared range
  freePages taken

/-- Takes a number of pages more than those already taken, of `count` in all. The pages are listed
the newest first. If one is refused, all are given back. -/
def takePages (count : Nat) : (more : Nat) → (taken : List Nat) → Action π (Option (List Nat))
  | 0, taken => return some taken
  | more + 1, taken => do
    match ← orUndo allocPage (freePages taken) with
    | some page => takePages count more (page :: taken)
    | none =>
      note (.pageRefused taken.length count)
      freePages taken
      return none

/-- Draws an address from a sequence of them. The sequence steps past each address as it is drawn, so
the last address of all cannot be drawn. -/
def drawAddress (address : Nat) : Except Fault Unit := discard (checkedAdd address 1)

theorem drawAddress_of_lt {address : Nat} (h : address + 1 < addressLimit) :
    drawAddress address = .ok () := by
  rw [drawAddress, checkedAdd_of_lt h]
  rfl

theorem drawAddress_of_le {address : Nat} (h : addressLimit ≤ address + 1) :
    drawAddress address = .error .addOverflow := by
  rw [drawAddress, checkedAdd, if_neg (Nat.not_lt.mpr h)]
  rfl

/-- Maps pages to the slots of a range from a device address on, `slots` of which are mapped
already. If a mapping is refused, the placement is undone. An address is drawn for every slot, and
one more before it shows that there are no pages left. -/
def mapPages (range : AddressRange) (taken pages : List Nat) (slots address : Nat) :
    Action π (Except Error Unit) := do
  orUndo (drawAddress address) (undoPlacement range slots taken)
  match pages with
  | [] => return .ok ()
  | page :: rest =>
    match ← orUndo (mapPage address page) (undoPlacement range slots taken) with
    | .ok () => mapPages range taken rest (slots + 1) (address + pageSize)
    | .error code =>
      note (.mappingRefused code)
      undoPlacement range slots taken
      return .error (.platformFailed (.refusedMapping address code))

/-- Places an object behind the IOMMU. No pages are taken for a request that the space can never
hold. -/
def placeBehindIommu (i size align : Nat) : Action π (Except Error InstanceObject) := do
  let capacity := ((← get).shared.map (·.capacity)).getD 0
  if capacity < size then
    note .spaceFull
    return .error (.outOfAddressSpace size align)
  let count := size / pageSize
  match ← takePages count count [] with
  | none => return .error .outOfMemory
  | some taken =>
    match ← orUndo (reserve .shared size align) (freePages taken) with
    | .error cause =>
      note .spaceFull
      freePages taken
      return .error cause
    | .ok range =>
      let pages := taken.reverse
      match ← mapPages range taken pages 0 range.base with
      | .error cause => return .error cause
      | .ok () =>
        return .ok ⟨i, setResolveBit range.base, size, false, .iommu range pages⟩

/-- Takes back the mapping of each page and the page with it, the first slot first. The addresses are
drawn as they are for the mappings. -/
def unmapAndFree (address : Nat) (pages : List Nat) : Action π Unit := do
  drawAddress address
  match pages with
  | [] => return
  | page :: rest =>
    unmapPage address
    freePage page
    unmapAndFree (address + pageSize) rest

/-! ## Contiguous buffers -/

/-- Places an object in a buffer. The size is what was asked for, whatever the buffer's is. -/
def placeInBuffer (i size align : Nat) : Action π (Except Error InstanceObject) := do
  match ← allocBuffer size with
  | none =>
    note .bufferRefused
    return .error .outOfMemory
  | some buffer =>
    let isMisaligned := !(← isAligned buffer.handle align)
    if isMisaligned then note (.misaligned buffer.handle align)
    return .ok ⟨i, buffer.handle, size, isMisaligned, .dma buffer⟩

/-! ## All strategies -/

/-- Rounds a request to whole pages; nothing takes one page. -/
def pageRound (size align : Nat) : Except Error (Nat × Nat) :=
  match nextMultiple? (max size 1) pageSize, nextMultiple? (max align 1) pageSize with
  | some pages, some step =>
    if step.isPowerOfTwo then .ok (pages, step)
    else .error (.invalidArgument (.objectAlignment align))
  | _, _ => .error (.outOfAddressSpace size align)

/-- Makes an object by a strategy. -/
def placeBy (strategy : Strategy) (i size align : Nat) : Action π (Except Error InstanceObject) :=
  match strategy with
  | .heap => placeInHeap i size align
  | .iommu => placeBehindIommu i size align
  | .dma => placeInBuffer i size align

/-- Makes an object by a controller's strategy, which then counts as alive. -/
def place (i size align : Nat) : Action π (Except Error InstanceObject) := do
  let strategy := ((← get).controller i).strategy
  note (.requested strategy size align)
  match pageRound size align with
  | .error cause => return .error cause
  | .ok (size, align) =>
    match ← placeBy strategy i size align with
    | .error cause => return .error cause
    | .ok object =>
      note (.placed size align object.offset)
      onController i fun c => { c with live := c.live + 1 }
      return .ok object

/-- Gives the resources of an object back. -/
def giveBack (owner : Nat) : Resource → Action π Unit
  | .heap range => release (.heap owner) range
  | .iommu range pages => do
    unmapAndFree range.base pages
    release .shared range
  | .dma buffer => freeBuffer buffer

/-- Ends the life of an object. -/
def free (object : InstanceObject) : Action π Unit :=
  andFinally (giveBack object.owner object.resource)
    (·.mapController object.owner fun c => { c with live := c.live - 1 })

end InstanceMemory.Action
