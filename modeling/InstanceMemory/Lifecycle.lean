/-!
# Strategies and phases

A controller serves instance memory by one strategy, chosen once, and goes through three phases:
constructed, then initialized, then suspended and initialized in turn. Destruction ends the
controller, so no phase stands for it.
-/

set_option autoImplicit false

namespace InstanceMemory

/-- Where instance objects come from. -/
inductive Strategy
  /-- A reserved region of dedicated VRAM. -/
  | heap
  /-- System pages that the IOMMU makes contiguous to the device. -/
  | iommu
  /-- Physically contiguous system memory. -/
  | dma
  deriving DecidableEq, Repr, Inhabited

namespace Strategy

/-- The strategy as messages speak of it. -/
def text : Strategy → String
  | heap => "VRAM heap"
  | iommu => "IOMMU"
  | dma => "DMA API"

/-- The strategy's short name. -/
def name : Strategy → String
  | heap => "Heap"
  | iommu => "Iommu"
  | dma => "Dma"

end Strategy

/-- The phase of a controller. -/
inductive Phase
  | constructed
  | initialized
  | suspended
  deriving DecidableEq, Repr, Inhabited

namespace Phase

/-- The phase as messages speak of it. -/
def text : Phase → String
  | constructed => "constructed"
  | initialized => "initialized"
  | suspended => "suspended"

/-- The phase's short name. -/
def name : Phase → String
  | constructed => "Constructed"
  | initialized => "Initialized"
  | suspended => "Suspended"

end Phase

/-- What can be asked of a controller in the wrong phase. -/
inductive Request
  | init
  | suspend
  | resume
  | allocate
  deriving DecidableEq, Repr

/-- The request as messages speak of it. -/
def Request.text : Request → String
  | .init => "init"
  | .suspend => "suspend"
  | .resume => "resume"
  | .allocate => "allocate"

end InstanceMemory
