import InstanceMemory.Text.Hex
import InstanceMemory.Fault
import InstanceMemory.Alignment
import InstanceMemory.AddressRange
import InstanceMemory.Chipset
import InstanceMemory.Error
import InstanceMemory.Journal
import InstanceMemory.RangeSpace.Basic
import InstanceMemory.RangeSpace.Session
import InstanceMemory.DeviceMap
import InstanceMemory.ReservedLayout
import InstanceMemory.Platform
import InstanceMemory.Trace
import InstanceMemory.Controller
import InstanceMemory.Machine.State
import InstanceMemory.Machine.Calls
import InstanceMemory.Machine.Placement
import InstanceMemory.Machine.Access
import InstanceMemory.Machine.Construction
import InstanceMemory.Directory
import InstanceMemory.Session.Basic
import InstanceMemory.Simulator.Config
import InstanceMemory.Simulator.Device
import InstanceMemory.Scripted.Board
import InstanceMemory.Scripted.Session
import InstanceMemory.Simulator.Session
import InstanceMemory.Proofs.Fault
import InstanceMemory.Proofs.Alignment
import InstanceMemory.Proofs.Directory
import InstanceMemory.Proofs.DeviceMap
import InstanceMemory.Proofs.ReservedLayout
import InstanceMemory.Proofs.Actions
import InstanceMemory.Proofs.RangeSpace.Covering
import InstanceMemory.Proofs.RangeSpace.Holes
import InstanceMemory.Proofs.RangeSpace.Sound
import InstanceMemory.Proofs.RangeSpace.Partition
import InstanceMemory.Proofs.RangeSpace.Untracked
import InstanceMemory.Proofs.RangeSpace.FirstFit
import InstanceMemory.Proofs.RangeSpace.Stocked
import InstanceMemory.Proofs.ReservedHeap
import InstanceMemory.Proofs.RangeSpace.Gaps
import InstanceMemory.Proofs.RangeSpace.Merging
import InstanceMemory.Proofs.RangeSpace.Lending
import InstanceMemory.Proofs.RangeSpace.Room
import InstanceMemory.Proofs.Simulator.SystemMemory
import InstanceMemory.Proofs.Simulator.Translation
import InstanceMemory.Proofs.Simulator.PartialMap
import InstanceMemory.Proofs.Simulator.Device
import InstanceMemory.Proofs.Machine.Holding
import InstanceMemory.Proofs.Machine.Items
import InstanceMemory.Proofs.Machine.Calls
import InstanceMemory.Proofs.Machine.Placement
import InstanceMemory.Proofs.Machine.Books
import InstanceMemory.Proofs.Machine.Accounts
import InstanceMemory.Proofs.Machine.Construction
import InstanceMemory.Proofs.Machine.Booked
import InstanceMemory.Proofs.Machine.Refusals
import InstanceMemory.Proofs.Machine.Notes
import InstanceMemory.Proofs.Machine.Store
import InstanceMemory.Proofs.Machine.Lasting
import InstanceMemory.Proofs.Machine.Places
import InstanceMemory.Proofs.Machine.Selection
import InstanceMemory.Proofs.Machine.Window
import InstanceMemory.Proofs.Machine.Contents
import InstanceMemory.Proofs.Machine.Recycling
import InstanceMemory.Proofs.Machine.Blank
import InstanceMemory.Proofs.Machine.Phases
import InstanceMemory.Proofs.Machine.Windowed
import InstanceMemory.Proofs.Machine.Tally
import InstanceMemory.Proofs.Machine.Programming
import InstanceMemory.Proofs.Machine.Trust
import InstanceMemory.Proofs.Machine.Ledger
import InstanceMemory.Proofs.Machine.Aside
import InstanceMemory.Proofs.Machine.Frugal
import InstanceMemory.Proofs.Machine.Owing
import InstanceMemory.Proofs.Machine.Rollback
import InstanceMemory.Proofs.Machine.Turnover
import InstanceMemory.Proofs.Machine.Provision
import InstanceMemory.Proofs.Machine.Dedicated
import InstanceMemory.Proofs.Machine.HeapBuilding
import InstanceMemory.Proofs.Machine.Clearance
import InstanceMemory.Proofs.Machine.Extents
import InstanceMemory.Proofs.Machine.Forgetting
import InstanceMemory.Proofs.Machine.Faultless
import InstanceMemory.Proofs.Machine.Counters
import InstanceMemory.Proofs.Session.Runs
import InstanceMemory.Proofs.Session.Abiding
import InstanceMemory.Proofs.Session.Accounts
import InstanceMemory.Proofs.Session.Balance
import InstanceMemory.Proofs.Session.Atomicity
import InstanceMemory.Proofs.Session.Shelf
import InstanceMemory.Proofs.Session.Simulation
import InstanceMemory.Proofs.Session.FlatAccess
import InstanceMemory.Proofs.Session.Programming
import InstanceMemory.Proofs.Session.Windowed
import InstanceMemory.Proofs.Session.Resuming
import InstanceMemory.Proofs.Session.Sharing
import InstanceMemory.Proofs.Session.Housing
import InstanceMemory.Proofs.Session.Survivors
import InstanceMemory.Proofs.Session.Transparency
import InstanceMemory.Proofs.Session.Loans
import InstanceMemory.Proofs.Session.Separation
import InstanceMemory.Proofs.Session.Descriptors
import InstanceMemory.Proofs.Session.Faultless
import InstanceMemory.Proofs.Session.Provision
import InstanceMemory.Proofs.Session.Misalignment
import InstanceMemory.Proofs.Session.OddAlignment
import InstanceMemory.Proofs.Session.WordRuns
