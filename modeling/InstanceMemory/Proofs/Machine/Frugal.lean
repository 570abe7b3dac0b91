import InstanceMemory.Proofs.Machine.Aside
import InstanceMemory.Proofs.Machine.Lasting

/-!
# Granted requests give nothing back

An action is `Frugal` if it has given nothing back where it succeeds; nothing is said of it where it
is refused or faults. **Requests are frugal**, whatever the platform answers and by every strategy
(`Action.frugal_allocate`). So an object has all along what it has when it is made, while it is zeroed
too.
-/

set_option autoImplicit false

namespace InstanceMemory

variable {π α β : Type} {act : Action π α} {next : α → Action π β} {succeeds : α → Prop}
  {later : β → Prop}

/-- Where an action succeeds, it has given nothing back. -/
def Frugal (succeeds : α → Prop) (act : Action π α) : Prop :=
  ∀ m, Ends (fun a m' => succeeds a → m'.returned = m.returned) (fun _ => True) (act m)

namespace Frugal

theorem of_keeps (h : ∀ returned, Keeps (fun m => m.returned = returned) act) :
    Frugal succeeds act := by
  intro m
  have hact := h m.returned m rfl
  unfold leaves at hact
  cases hrun : act m with
  | ok a m' =>
    rw [hrun] at hact
    exact fun _ => hact
  | error f m' => trivial

/-- An action that never succeeds is frugal. -/
theorem of_yields (h : Yields (¬ succeeds ·) act) : Frugal succeeds act := by
  intro m
  cases hrun : act m with
  | ok a m' => exact fun ha => absurd ha (h m a m' hrun)
  | error f m' => trivial

theorem bind (h : Frugal succeeds act) (hnext : ∀ a, succeeds a → Frugal later (next a))
    (hfails : ∀ a, ¬ succeeds a → Yields (¬ later ·) (next a)) : Frugal later (act >>= next) := by
  intro m
  cases hrun : act m with
  | error f m' =>
    rw [run_bind_of_error hrun]
    trivial
  | ok a m' =>
    rw [run_bind_of_ok hrun]
    by_cases ha : succeeds a
    · exact (hnext a ha m').imp fun _ _ hlast hb => (hlast hb).trans ((h m).of_ok hrun ha)
    · cases hlast : next a m' with
      | ok b m'' => exact fun hb => absurd hb (hfails a ha m' b m'' hlast)
      | error f m'' => trivial

/-- A step that gives nothing back, whatever it answers, comes first. -/
theorem always_bind (h : Frugal (fun _ => True) act) (hnext : ∀ a, Frugal later (next a)) :
    Frugal later (act >>= next) :=
  h.bind (fun a _ => hnext a) fun _ ha => absurd trivial ha

theorem keeps_bind (h : ∀ returned, Keeps (fun m => m.returned = returned) act)
    (hnext : ∀ a, Frugal later (next a)) : Frugal later (act >>= next) :=
  always_bind (of_keeps h) hnext

theorem get_bind {next : Machine π → Action π β} (h : ∀ m, Frugal later (next m)) :
    Frugal later (get >>= next) := fun m => h m m

/-- What is undone has faulted. -/
theorem orUndo (h : Frugal succeeds act) (undo : Action π Unit) :
    Frugal succeeds (Action.orUndo act undo) := by
  intro m
  refine Action.ends_orUndo (h m) ?_
  intro m' _
  cases undo m' <;> trivial

end Frugal

namespace Action

variable {returned : List Loan} {i size align : Nat}

theorem returned_record {call : Call} (hgives : call.gives = none) :
    Keeps (fun m : Machine π => m.returned = returned) (record call) := by
  intro m hm
  unfold leaves record
  by_cases hrecording : m.trace.isRecording = true
  · rw [if_pos hrecording]
    exact (Machine.returned_record hgives).trans hm
  · rw [if_neg hrecording]
    exact hm

theorem returned_reserve (id : SpaceId) (size align : Nat) :
    Keeps (fun m : Machine π => m.returned = returned) (reserve id size align) := by
  have hset : ∀ (m : Machine π) next, (m.setSpace id next).returned = m.returned := by
    intro m next
    cases id <;> rfl
  apply keeps_get_bind
  intro m hm
  cases m.space? id with
  | none => exact hm
  | some space =>
    refine Keeps.bind (P := fun m => m.returned = returned) (keeps_lift _) (fun answer => ?_) m hm
    cases answer with
    | error cause => exact (returned_record rfl).bind fun _ => keeps_pure _
    | ok granted =>
      obtain ⟨range, next⟩ := granted
      exact Keeps.bind (keeps_modify fun m hm => (hset m next).trans hm) fun _ =>
        (returned_record rfl).bind fun _ => keeps_pure _

variable [Platform π]

theorem returned_allocPage :
    Keeps (fun m : Machine π => m.returned = returned) (allocPage : Action π _) :=
  ((aside_returned returned).onHardware _).bind fun _ =>
    (returned_record rfl).bind fun _ => keeps_pure _

theorem returned_mapPage (address page : Nat) :
    Keeps (fun m : Machine π => m.returned = returned) (mapPage address page : Action π _) :=
  ((aside_returned returned).onHardware _).bind fun _ =>
    (returned_record rfl).bind fun _ => keeps_pure _

theorem returned_allocBuffer (size : Nat) :
    Keeps (fun m : Machine π => m.returned = returned) (allocBuffer size : Action π _) :=
  ((aside_returned returned).onHardware _).bind fun _ =>
    (returned_record rfl).bind fun _ => keeps_pure _

/-! ## Placing -/

theorem frugal_takePages (count more : Nat) (taken : List Nat) :
    Frugal (·.isSome = true) (takePages count more taken : Action π _) := by
  induction more generalizing taken with
  | zero => exact .of_keeps fun _ => keeps_pure _
  | succ more ih =>
    have halloc : Frugal (fun _ => True) (allocPage : Action π _) :=
      .of_keeps fun _ => returned_allocPage
    refine (halloc.orUndo _).always_bind fun page => ?_
    cases page with
    | some page => exact ih (page :: taken)
    | none => exact .of_yields (yields_bind fun _ => yields_bind fun _ => yields_pure Bool.false_ne_true)

theorem frugal_mapPages (range : AddressRange) (taken pages : List Nat) (slots address : Nat) :
    Frugal (·.isOk = true) (mapPages range taken pages slots address : Action π _) := by
  have hdraw : ∀ address, Frugal (fun _ => True) (liftM (drawAddress address) : Action π Unit) :=
    fun _ => .of_keeps fun _ => keeps_lift _
  induction pages generalizing slots address with
  | nil =>
    unfold mapPages
    exact ((hdraw address).orUndo _).always_bind fun _ => .of_keeps fun _ => keeps_pure _
  | cons page rest ih =>
    have hmap : Frugal (fun _ => True) (mapPage address page : Action π _) :=
      .of_keeps fun _ => returned_mapPage address page
    unfold mapPages
    refine ((hdraw address).orUndo _).always_bind fun _ => ?_
    refine (hmap.orUndo _).always_bind fun answer => ?_
    cases answer with
    | error code => exact .of_yields (yields_bind fun _ => yields_bind fun _ => yields_pure Bool.false_ne_true)
    | ok _ => exact ih (slots + 1) (address + pageSize)

theorem frugal_placeBehindIommu (i size align : Nat) :
    Frugal (·.isOk = true) (placeBehindIommu i size align : Action π _) := by
  refine .get_bind fun m => ?_
  dsimp only
  split
  · exact .of_yields (yields_bind fun _ => yields_pure Bool.false_ne_true)
  · refine (frugal_takePages _ _ _).bind (fun answer hsome => ?_) fun answer hnone => ?_
    · obtain ⟨taken, rfl⟩ := Option.isSome_iff_exists.mp hsome
      have hreserve : Frugal (fun _ => True) (reserve .shared size align : Action π _) :=
        .of_keeps fun _ => returned_reserve .shared size align
      refine (hreserve.orUndo _).always_bind fun answer => ?_
      cases answer with
      | error cause =>
        exact .of_yields (yields_bind fun _ => yields_bind fun _ => yields_pure Bool.false_ne_true)
      | ok range =>
        refine (frugal_mapPages _ _ _ _ _).bind (fun answer _ => ?_) fun answer hrefused => ?_
        · cases answer with
          | error cause => exact .of_yields (yields_pure Bool.false_ne_true)
          | ok _ => exact .of_keeps fun _ => keeps_pure _
        · cases answer with
          | error cause => exact yields_pure Bool.false_ne_true
          | ok _ => exact absurd rfl hrefused
    · cases answer with
      | none => exact yields_pure Bool.false_ne_true
      | some taken => exact absurd rfl hnone

theorem frugal_placeBy (strategy : Strategy) (i size align : Nat) :
    Frugal (·.isOk = true) (placeBy strategy i size align : Action π _) := by
  have hnote : ∀ n returned, Keeps (fun m : Machine π => m.returned = returned) (note n) :=
    fun n returned => (aside_returned returned).note n
  cases strategy with
  | heap =>
    refine Frugal.keeps_bind (fun _ => returned_reserve _ _ _) fun answer => ?_
    cases answer with
    | error cause => exact .of_yields (yields_bind fun _ => yields_pure Bool.false_ne_true)
    | ok range => exact .of_keeps fun _ => keeps_pure _
  | iommu => exact frugal_placeBehindIommu i size align
  | dma =>
    refine Frugal.keeps_bind (fun _ => returned_allocBuffer size) fun answer => ?_
    cases answer with
    | none => exact .of_yields (yields_bind fun _ => yields_pure Bool.false_ne_true)
    | some buffer =>
      refine Frugal.keeps_bind (fun _ => keeps_lift _) fun aligned => ?_
      dsimp only
      split
      · exact .of_keeps fun _ => (hnote _ _).bind fun _ => keeps_pure _
      · exact .of_keeps fun _ => keeps_pure _

theorem frugal_place (i size align : Nat) :
    Frugal (·.isOk = true) (place i size align : Action π _) := by
  have hnote : ∀ n returned, Keeps (fun m : Machine π => m.returned = returned) (note n) :=
    fun n returned => (aside_returned returned).note n
  refine .get_bind fun m => Frugal.keeps_bind (fun _ => hnote _ _) fun _ => ?_
  cases pageRound size align with
  | error cause => exact .of_yields (yields_pure Bool.false_ne_true)
  | ok rounded =>
    refine (frugal_placeBy _ _ _ _).bind (fun answer _ => ?_) fun answer hrefused => ?_
    · cases answer with
      | error cause => exact .of_yields (yields_pure Bool.false_ne_true)
      | ok object =>
        exact .of_keeps fun _ => (hnote _ _).bind fun _ =>
          Keeps.bind (keeps_onController fun _ hm => hm) fun _ => keeps_pure _
    · cases answer with
      | error cause => exact yields_pure Bool.false_ne_true
      | ok object => exact absurd rfl hrefused

/-- **A request that is granted has given nothing back.** -/
theorem frugal_allocate (i size align : Nat) (zeroed : Bool) :
    Frugal (·.isOk = true) (allocate i size align zeroed : Action π _) := by
  have hmake : Frugal (·.isOk = true) (make i size align zeroed : Action π _) := by
    refine (frugal_place _ _ _).bind (fun answer _ => ?_) fun answer hrefused => ?_
    · cases answer with
      | error cause => exact .of_yields (yields_pure Bool.false_ne_true)
      | ok object =>
        have hfill : ∀ returned, Keeps (fun m : Machine π => m.returned = returned)
            (fill object 0) := fun returned =>
          keeps_fill fun offset => (aside_returned returned).writeWord object offset 0
        cases zeroed with
        | false => exact .of_keeps fun _ => keeps_pure _
        | true =>
          have hzero : Frugal (fun _ => True) (fill object 0 : Action π _) := .of_keeps hfill
          exact (hzero.orUndo _).always_bind fun _ => .of_keeps fun _ => keeps_pure _
    · cases answer with
      | error cause => exact yields_pure Bool.false_ne_true
      | ok object => exact absurd rfl hrefused
  refine .get_bind fun m => ?_
  cases (m.controller i).phase with
  | suspended => exact .of_yields (yields_pure Bool.false_ne_true)
  | constructed => exact hmake
  | initialized => exact hmake

end Action
end InstanceMemory
