import InstanceMemory.Proofs.Machine.Extents
import InstanceMemory.Proofs.Session.Housing

/-!
# Descriptors of live objects

An object's descriptor tells the device which pages to map. It is computed by shifts, which drop the low
bits of the offset and the size, so it is exact only because every live object takes whole pages
(`InstanceObject.exact_of_paged`). **Exact descriptors of objects that are clear of each other have no
page in common** (`InstanceObject.Exact.no_common_page`), and with the resolve bit in the address objects
are still clear of each other.

How large an object is follows from what was asked for. `Orders` is the ledger of what was asked for
under the names of the live objects; every move keeps the size of each of them at the least number of
whole pages that is enough (`Session.sized_after`).

Nothing is said of pages of different heaps, which lie over each other.
-/

set_option autoImplicit false

namespace InstanceMemory

open Simulator (Config Device Move)
open Simulator.Session (after)

/-! ## Exact descriptors -/

/-- The page is one of the pages of the region. -/
def MemoryRegion.Covers (r : MemoryRegion) (page : Nat) : Prop :=
  r.offset ≤ page ∧ page < r.offset + r.length

namespace InstanceObject

/-- The descriptor of the object has one region, whose pages have the bytes of the object and no others,
and says of it where it lies and how many pages it has. -/
structure Exact (o : InstanceObject) : Prop where
  region : ∃ r, o.descriptor.regions = [r] ∧ r.pageShift = o.descriptor.pageShift ∧
    r.length = o.descriptor.size ∧ r.offset * 2 ^ r.pageShift = o.descriptor.offset ∧
    ∀ x, r.Covers (x / 2 ^ r.pageShift) ↔ o.extent.Holds x
  pageShift : o.descriptor.pageShift = 12
  offset : o.descriptor.offset = o.offset
  size : o.descriptor.size * 2 ^ o.descriptor.pageShift = o.size

/-- The device maps a page for the object. -/
def Maps (o : InstanceObject) (page : Nat) : Prop := ∃ r ∈ o.descriptor.regions, r.Covers page

variable {o o' : InstanceObject}

/-- **A descriptor is exact for an object of whole pages.** -/
theorem exact_of_paged (hoffset : pageSize ∣ o.offset) (hsize : pageSize ∣ o.size) : o.Exact := by
  obtain ⟨first, hfirst⟩ := hoffset
  obtain ⟨count, hcount⟩ := hsize
  refine ⟨⟨⟨pageBits, o.offset / pageSize, o.size / pageSize⟩, rfl, rfl, rfl, ?_, ?_⟩, rfl, rfl, ?_⟩
  · exact Nat.div_mul_cancel ⟨first, hfirst⟩
  · intro x
    unfold MemoryRegion.Covers AddressRange.Holds AddressRange.limit extent
    dsimp only
    have hpage : (2 : Nat) ^ pageBits = pageSize := rfl
    rw [hpage, hfirst, hcount]
    unfold pageSize
    omega
  · exact Nat.div_mul_cancel ⟨count, hcount⟩

namespace Exact

/-- The pages that are mapped for an object are those of its bytes. -/
theorem maps_iff (h : o.Exact) (page : Nat) : o.Maps page ↔ o.extent.Holds (page * pageSize) := by
  obtain ⟨r, hregions, hshift, -, -, hcovers⟩ := h.region
  have hpage : page * pageSize / 2 ^ r.pageShift = page := by
    rw [hshift, h.pageShift]
    exact Nat.mul_div_cancel page (by decide)
  rw [← hcovers, hpage, Maps, hregions]
  simp only [List.mem_singleton, exists_eq_left]

/-- **Objects clear of each other have no page in common.** -/
theorem no_common_page (h : o.Exact) (h' : o'.Exact) (hclear : o.extent.Clear o'.extent) {page : Nat}
    (hpage : o.Maps page) : ¬ o'.Maps page := by
  intro hpage'
  exact hclear.not_holds ((h'.maps_iff page).mp hpage') ((h.maps_iff page).mp hpage)

end Exact
end InstanceObject

/-! ## What was asked for -/

/-- The bytes that were asked for, under the names of the objects that were granted. -/
abbrev Orders := String → Option Nat

namespace Orders

/-- What a move does to the ledger. -/
def after (orders : Orders) (session : Session Device) : Move → Orders
  | .operation (.allocate controller name size align zeroed) =>
    match (Session.request controller name size align zeroed session).1 with
    | .reply _ => Function.update orders name (some size)
    | _ => orders
  | .operation (.free name) => Function.update orders name none
  | _ => orders

/-- What a run does to the ledger. -/
def run : List Move → Session Device → Orders → Orders
  | [], _, orders => orders
  | move :: rest, session, orders =>
    run rest (Simulator.Session.after session move) (orders.after session move)

end Orders

/-- The bytes that a controller asks for when it places a firmware structure. -/
def FirmwareName.bytes : FirmwareName → Nat
  | .vbios => ReservedLayout.vbiosSize
  | .ramht => ReservedLayout.ramhtSize
  | .ramro => ReservedLayout.ramroSize
  | .ramfc => ReservedLayout.ramfcSize

/-- The operation makes no object for a caller and takes none from it. -/
def Operation.keepsObjects : Operation → Bool
  | .allocate .. | .free _ => false
  | _ => true

namespace Session

variable {session : Session Device} {orders : Orders} {config : Config}

/-- The names of objects stand for what they did after all other operations. -/
theorem objects_operate {operation : Operation} (h : operation.keepsObjects = true)
    (session : Session Device) : (leaves (operate operation) session).objects = session.objects := by
  have hkeeps : Keeps (fun later : Session Device => later.objects = session.objects)
      (operate operation) := by
    by_cases hturns : operation.turnsOver = true
    · cases operation with
      | build name =>
        apply keeps_get_bind
        intro later hlater
        split
        · exact hlater
        · refine Keeps.bind (P := fun later => later.objects = session.objects) ?_ ?_ later hlater
          · intro later hlater
            rwa [leaves_onMachine]
          · intro answer
            cases answer with
            | error cause => exact keeps_pure _
            | ok i => exact fun _ hlater => hlater
      | destroy name =>
        apply keeps_withController
        intro later i hlater _
        rw [leaves, run_modify_bind, ← leaves, leaves_onMachine_bind_pure]
        exact hlater
      | allocate controller name size align zeroed => cases h
      | free name => cases h
      | _ => cases hturns
    · exact keeps_of_books (fun _ _ _ hlater => hlater) (Bool.eq_false_iff.mpr hturns)
  exact hkeeps session rfl

/-- Every named object is on the ledger, and has the fewest whole pages that are enough for what was
asked for. -/
def Sized (orders : Orders) (session : Session Device) : Prop :=
  ∀ name o, session.objects.get? name = some o →
    ∃ bytes, orders name = some bytes ∧ LeastMultiple (max bytes 1) pageSize o.size

/-- A request that is granted is entered with what was asked for. -/
theorem sized_request (h : Sized orders session) (controller name : String) (size align : Nat)
    (zeroed : Bool) :
    Sized (orders.after session (.operation (.allocate controller name size align zeroed)))
      (request controller name size align zeroed session).2 := by
  unfold Orders.after
  dsimp only
  rw [request, outcome_allocate]
  cases hi : session.controllers.get? controller with
  | none => exact h
  | some i =>
    dsimp only
    by_cases hused : (session.objects.get? name).isSome = true
    · rw [if_pos hused]
      exact h
    · rw [if_neg hused]
      cases hact : (Action.allocate i size align zeroed : Action Device _) session.machine with
      | error f m' => exact h
      | ok answer m' =>
        cases answer with
        | error cause => exact h
        | ok object =>
          have hsize := (Action.verdict_allocate i size align zeroed _ _ _ hact).2
          have hfree := Directory.get?_eq_none_iff.mp (Option.not_isSome_iff_eq_none.mp hused)
          intro key o ho
          dsimp only at ho ⊢
          rw [Directory.get?_insert hfree] at ho
          by_cases hkey : key = name
          · rw [if_pos hkey] at ho
            obtain rfl := Option.some.inj ho
            subst hkey
            exact ⟨size, Function.update_self _ _ _, hsize⟩
          · rw [if_neg hkey] at ho
            rw [Function.update_of_ne hkey]
            exact h key o ho

/-- **Every move keeps the sizes of the objects at what was asked for.** -/
theorem sized_after (hbooked : Booked session) (h : Sized orders session) (move : Move) :
    Sized (orders.after session move) (after session move) := by
  cases move with
  | faults probe hfaults =>
    obtain ⟨d, -, hleaves⟩ := Simulator.Session.probe_setsFaults hfaults session
    rw [Simulator.Session.after, Simulator.Session.outcome_snd, hleaves]
    exact h
  | operation operation =>
    by_cases hobjects : operation.keepsObjects = true
    · have horders : orders.after session (.operation operation) = orders := by
        cases operation with
        | allocate controller name size align zeroed => cases hobjects
        | free name => cases hobjects
        | _ => rfl
      intro name o ho
      rw [Simulator.Session.after, Simulator.Session.outcome_snd,
        objects_operate hobjects] at ho
      rw [horders]
      exact h name o ho
    · cases operation with
      | allocate controller name size align zeroed =>
        exact sized_request h controller name size align zeroed
      | free name =>
        obtain ⟨m', hleaves, -⟩ := exists_leaves_free hbooked name
        intro key o ho
        rw [Simulator.Session.after, Simulator.Session.outcome_snd, hleaves,
          Directory.get?_erase] at ho
        split at ho
        · cases ho
        · rename_i hkey
          rw [Orders.after, Function.update_of_ne hkey]
          exact h key o ho
      | _ => exact absurd rfl hobjects

theorem sized_run {moves : List Move} (hbooked : Booked session) (h : Sized orders session) :
    Sized (Orders.run moves session orders) (Simulator.Session.run moves session) := by
  induction moves generalizing session orders with
  | nil => exact h
  | cons move rest ih =>
    exact ih (hbooked.after session move) (sized_after hbooked h move)

/-! ## Firmware structures -/

/-- No controller has firmware structures. -/
def Bare (session : Session Device) : Prop := ∀ firmware ∈ session.machine.roster, firmware = none

/-- Without dedicated memory no controller is built with firmware structures. -/
theorem bare_after {size : Nat} (hbooked : Booked session) (hwindowed : Windowed size session.machine)
    (h : Bare session) (move : Move) : Bare (after session move) := by
  have hstay : ∀ {later : Session Device}, later.machine.roster = session.machine.roster →
      Bare later := fun hroster => by
    unfold Bare
    rw [hroster]
    exact h
  cases move with
  | faults probe hfaults =>
    obtain ⟨d, -, hleaves⟩ := Simulator.Session.probe_setsFaults hfaults session
    rw [Simulator.Session.after, Simulator.Session.outcome_snd, hleaves]
    exact hstay rfl
  | operation operation =>
    rw [Simulator.Session.after, Simulator.Session.outcome_snd]
    by_cases hturns : operation.turnsOver = true
    · cases operation with
      | build name =>
        rw [operate, leaves, run_get_bind, ← leaves]
        split
        · exact h
        · rcases Action.build_cases (m := session.machine) hwindowed.memory with
            ⟨cause, hact⟩ | ⟨c, journal, -, -, hfirmware, hact⟩ <;>
            rw [leaves, run_bind_of_ok (onMachine_of_ok hact), ← leaves]
          · exact h
          · show ∀ firmware ∈ (session.machine.controllers ++ [c]).map (·.firmware), firmware = none
            rw [List.map_append, List.forall_mem_append]
            exact ⟨h, fun _ hmem => (List.mem_singleton.mp hmem).trans hfirmware⟩
      | destroy name =>
        cases hi : session.controllers.get? name with
        | none =>
          rw [operate, leaves_of_ok (run_withController_of_none hi _)]
          exact h
        | some i =>
          obtain ⟨m', hleaves, -, hroster⟩ := exists_leaves_destroy hbooked hi
          rw [hleaves]
          intro firmware hmem
          rw [hroster] at hmem
          rcases List.mem_or_eq_of_mem_set hmem with hmem | rfl
          · exact h firmware hmem
          · rfl
      | allocate controller name size align zeroed =>
        rw [← Simulator.Session.outcome_snd]
        exact hstay (roster_request hbooked controller name size align zeroed)
      | free name =>
        obtain ⟨m', hleaves, -, hroster⟩ := exists_leaves_free hbooked name
        rw [hleaves]
        exact hstay hroster
      | _ => cases hturns
    · refine keeps_of_books (P := Bare) ?_ (Bool.eq_false_iff.mpr hturns) session h
      intro session m' hbooks h
      unfold Bare
      rw [Machine.roster_of_plan (Machine.plan_of_books hbooks)]
      exact h

/-- **Firmware structures are as large as their controller asks for**, on every kind of device. -/
theorem size_firmware {journalOpen : Bool} {host : Simulator.Host}
    (h : Simulator.Session.start config journalOpen host = .ok session) (moves : List Move) {i : Nat}
    {firmware : FirmwareObjects} (key : FirmwareName)
    (hi : (Simulator.Session.run moves session).machine.roster[i]? = some (some firmware)) :
    (firmware.get key).size = key.bytes := by
  by_cases hvram : config.hasVram = true
  · have hhoused : Housed (Simulator.Session.run moves session) :=
      Simulator.Session.run_induction (fun _ move h => h.after move) moves (Housed.start h hvram)
    rw [hhoused.laid i firmware hi]
    cases key <;> rfl
  · have hbare : Booked (Simulator.Session.run moves session) ∧
        Windowed config.systemMemorySize (Simulator.Session.run moves session).machine ∧
          Bare (Simulator.Session.run moves session) := by
      apply Simulator.Session.run_induction (P := fun session => Booked session ∧
        Windowed config.systemMemorySize session.machine ∧ Bare session)
      · rintro session move ⟨hbooked, hwindowed, hbare⟩
        exact ⟨hbooked.after session move, windowed_after session move hwindowed,
          bare_after hbooked hwindowed hbare move⟩
      · refine ⟨Booked.start h, windowed_start h (Bool.eq_false_iff.mpr hvram), ?_⟩
        obtain ⟨device, shared, -, rfl⟩ := Simulator.Session.start_eq_ok h
        exact fun _ hmem => absurd hmem List.not_mem_nil
    cases hbare.2.2 _ (List.mem_of_getElem? hi)

/-! ## What shows -/

/-- The descriptors of the live objects of a session are exact and have no page in common, and the
objects are as large as was asked for. -/
structure Described (orders : Orders) (session : Session Device) : Prop where
  sized : Sized orders session
  firmware : ∀ (i : Nat) (firmware : FirmwareObjects) (key : FirmwareName),
    session.machine.roster[i]? = some (some firmware) →
      LeastMultiple (max key.bytes 1) pageSize (firmware.get key).size
  exact : ∀ o ∈ session.live, o.Exact
  /-- Objects on a heap share no page with those of the same controller, others with no other object. -/
  disjoint : session.live.Pairwise fun o o' => (o.strategy = .heap → o.owner = o'.owner) →
    ∀ page, o.Maps page → ¬ o'.Maps page

/-- **Descriptors of live objects are exact and disjoint** on every device, in every state that any number
of controllers reach. Objects that outlive their controller count as well. -/
theorem run_described {journalOpen : Bool} {host : Simulator.Host}
    (h : Simulator.Session.start config journalOpen host = .ok session) (moves : List Move) :
    Described (Orders.run moves session fun _ => none) (Simulator.Session.run moves session) := by
  have haccounts := (Booked.run h moves).accounts
  have hexact : ∀ o ∈ (Simulator.Session.run moves session).live, o.Exact := fun o ho =>
    InstanceObject.exact_of_paged (haccounts.paged ho).1 (haccounts.paged ho).2.1
  have hempty : Sized (fun _ => none) session := by
    obtain ⟨device, shared, -, rfl⟩ := Simulator.Session.start_eq_ok h
    intro name o ho
    cases ho
  refine ⟨sized_run (Booked.start h) hempty, ?_, hexact, ?_⟩
  · intro i firmware key hi
    rw [size_firmware h moves key hi]
    -- the firmware structures are whole pages already
    refine ⟨?_, ?_, ?_⟩
    · cases key <;> decide
    · cases key <;> decide
    · intro n _ hle
      exact Nat.le_trans (Nat.le_max_left _ _) hle
  · refine haccounts.clear.imp_of_mem fun ho ho' hclear howner page hpage => ?_
    exact (hexact _ ho).no_common_page (hexact _ ho') (hclear howner) hpage

/-- An object behind the IOMMU that outlives its controller, and one of the next controller for which
nothing was asked. -/
theorem run_described_outliving : ∃ session : Session Device,
    Simulator.Session.start { Config.systemMemory 0xea with iommuSpace := some 0x10000 } false =
        .ok session ∧
      let moves : List Move := [.operation (.build "first"),
        .operation (.allocate "first" "table" 0x1001 0 false), .operation (.destroy "first"),
        .operation (.build "second"), .operation (.allocate "second" "other" 0 0 false)]
      let orders := Orders.run moves session fun _ => none
      orders "table" = some 0x1001 ∧ orders "other" = some 0 ∧
        Described orders (Simulator.Session.run moves session) := by
  have hstart : Simulator.Session.start
      { Config.systemMemory 0xea with iommuSpace := some 0x10000 } false = .ok _ := rfl
  exact ⟨_, hstart, by decide +kernel, by decide +kernel, run_described hstart _⟩

end Session
end InstanceMemory
