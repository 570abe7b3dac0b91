import InstanceMemory.Proofs.Machine.Books
import InstanceMemory.Machine.Construction

/-!
# What a request may answer

`Yields Q act` says that every answer of an action has the property `Q`, from whatever state it runs.
The answer of a request is either granted or refused, and each placement function has one lemma that
says both: **an object that is granted is of its controller and of the size asked for**, and **the
alignment asked for is refused by rounding alone**, before any strategy comes into play
(`Action.verdict_placeBy`, `Action.verdict_place`, `Action.verdict_allocate`).
-/

set_option autoImplicit false

namespace InstanceMemory

variable {σ α β : Type}

/-- Every answer of an action has a property. -/
def Yields (Q : α → Prop) (act : EStateM Fault σ α) : Prop :=
  ∀ s a s', act s = .ok a s' → Q a

theorem yields_pure {Q : α → Prop} {a : α} (h : Q a) : Yields Q (pure a : EStateM Fault σ α) := by
  intro s b s' hact
  cases hact
  exact h

/-- The answer is that of the last step, which may count on what the first step answered. -/
theorem Yields.bind {R : α → Prop} {Q : β → Prop} {act : EStateM Fault σ α}
    {next : α → EStateM Fault σ β} (h : Yields R act) (hnext : ∀ a, R a → Yields Q (next a)) :
    Yields Q (act >>= next) := by
  intro s b s' hact
  cases hfirst : act s with
  | ok a s₁ =>
    rw [run_bind_of_ok hfirst] at hact
    exact hnext a (h s a s₁ hfirst) s₁ b s' hact
  | error f s₁ =>
    rw [run_bind_of_error hfirst] at hact
    cases hact

theorem yields_bind {Q : β → Prop} {act : EStateM Fault σ α} {next : α → EStateM Fault σ β}
    (h : ∀ a, Yields Q (next a)) : Yields Q (act >>= next) :=
  Yields.bind (R := fun _ => True) (fun _ _ _ _ => trivial) fun a _ => h a

theorem yields_lift {Q : α → Prop} {x : Except Fault α} (h : ∀ a, x = .ok a → Q a) :
    Yields Q (liftM x : EStateM Fault σ α) := by
  intro s a s' hact
  cases x with
  | error f => cases hact
  | ok b =>
    cases hact
    exact h a rfl

theorem Keeps.bind_of_yields {P : σ → Prop} {R : α → Prop} {act : EStateM Fault σ α}
    {next : α → EStateM Fault σ β} (h : Keeps P act) (hR : Yields R act)
    (hnext : ∀ a, R a → Keeps P (next a)) : Keeps P (act >>= next) := by
  intro s hs
  cases hact : act s with
  | ok a s' =>
    rw [leaves_bind_of_ok hact]
    exact hnext a (hR s a s' hact) s' (h.of_ok hs hact)
  | error f s' =>
    rw [leaves, run_bind_of_error hact]
    exact h.of_error hs hact

theorem Blind.bind_of_yields {S : σ → σ → Prop} {R : α → Prop} {act : EStateM Fault σ α}
    {next : α → EStateM Fault σ β} (h : Blind S act) (hR : Yields R act)
    (hnext : ∀ a, R a → Blind S (next a)) : Blind S (act >>= next) :=
  fun s s' hs => (h s s' hs).bind fun a t t' hact ht => hnext a (hR s a t hact) t t' ht

/-- What is granted has one property, and the cause of a refusal another. -/
def Verdict (granted : α → Prop) (refused : Error → Prop) : Except Error α → Prop
  | .ok a => granted a
  | .error cause => refused cause

/-- The cause is not the alignment that was asked for an object. -/
def Error.Unaligned (cause : Error) : Prop :=
  ∀ asked, cause ≠ .invalidArgument (.objectAlignment asked)

/-- A space names itself in what it refuses. -/
theorem RangeSpace.verdict_of_reserve {space : RangeSpace} {size align : Nat}
    {answer : Except Error (AddressRange × RangeSpace)} (h : space.reserve size align = .ok answer) :
    Verdict (fun _ => True) Error.Unaligned answer := by
  unfold reserve at h
  split at h
  · cases h
    exact nofun
  · dsimp only at h
    split at h
    · cases h
      exact nofun
    · split at h
      · cases h
        exact nofun
      · obtain ⟨found, -, hfound⟩ := bind_eq_ok.mp h
        cases found with
        | none =>
          cases hfound
          exact nofun
        | some taken =>
          cases hfound
          trivial

namespace Action

variable {π : Type}

/-- What undoes an action has no part in its answer. -/
theorem yields_orUndo {Q : α → Prop} {act : Action π α} (h : Yields Q act) (undo : Action π Unit) :
    Yields Q (orUndo act undo) :=
  fun m a m' hact => h m a m' (run_orUndo_eq_ok.mp hact)

theorem verdict_reserve (id : SpaceId) (size align : Nat) :
    Yields (Verdict (fun _ => True) Error.Unaligned) (reserve id size align : Action π _) := by
  apply yields_bind
  intro m
  cases m.space? id with
  | none => exact yields_pure nofun
  | some space =>
    refine Yields.bind (yields_lift fun _ => space.verdict_of_reserve) fun answer hanswer => ?_
    cases answer with
    | error cause => exact yields_bind fun _ => yields_pure hanswer
    | ok granted => exact yields_bind fun _ => yields_bind fun _ => yields_pure trivial

/-! ## Placements -/

/-- The object is of a controller and of a size. -/
def IsMade (i size : Nat) (o : InstanceObject) : Prop := o.owner = i ∧ o.size = size

theorem verdict_placeInHeap (i size align : Nat) :
    Yields (Verdict (IsMade i size) Error.Unaligned) (placeInHeap i size align : Action π _) := by
  refine (verdict_reserve (.heap i) size align).bind fun answer hanswer => ?_
  cases answer with
  | error cause => exact yields_bind fun _ => yields_pure hanswer
  | ok range => exact yields_pure ⟨rfl, rfl⟩

variable [Platform π]

theorem verdict_mapPages (range : AddressRange) (taken pages : List Nat) (slots address : Nat) :
    Yields (Verdict (fun _ => True) Error.Unaligned)
      (mapPages range taken pages slots address : Action π _) := by
  induction pages generalizing slots address with
  | nil =>
    unfold mapPages
    exact yields_bind fun _ => yields_pure trivial
  | cons page rest ih =>
    unfold mapPages
    refine yields_bind fun _ => yields_bind fun answer => ?_
    cases answer with
    | ok _ => exact ih (slots + 1) (address + pageSize)
    | error code => exact yields_bind fun _ => yields_bind fun _ => yields_pure fun _ h => Error.noConfusion h

theorem verdict_placeBehindIommu (i size align : Nat) :
    Yields (Verdict (IsMade i size) Error.Unaligned)
      (placeBehindIommu i size align : Action π _) := by
  apply yields_bind
  intro m
  dsimp only
  split
  · exact yields_bind fun _ => yields_pure nofun
  · apply yields_bind
    intro taken
    cases taken with
    | none => exact yields_pure nofun
    | some taken =>
      refine (yields_orUndo (verdict_reserve .shared size align) _).bind fun answer hanswer => ?_
      cases answer with
      | error cause => exact yields_bind fun _ => yields_bind fun _ => yields_pure hanswer
      | ok range =>
        refine (verdict_mapPages range taken taken.reverse 0 range.base).bind fun answer hanswer => ?_
        cases answer with
        | error cause => exact yields_pure hanswer
        | ok _ => exact yields_pure ⟨rfl, rfl⟩

theorem verdict_placeInBuffer (i size align : Nat) :
    Yields (Verdict (IsMade i size) Error.Unaligned) (placeInBuffer i size align : Action π _) := by
  apply yields_bind
  intro answer
  cases answer with
  | none => exact yields_bind fun _ => yields_pure nofun
  | some buffer =>
    apply yields_bind
    intro aligned
    dsimp only
    split
    · exact yields_bind fun _ => yields_pure ⟨rfl, rfl⟩
    · exact yields_pure ⟨rfl, rfl⟩

/-- **No strategy judges an alignment**, and each places what it is asked for. -/
theorem verdict_placeBy (strategy : Strategy) (i size align : Nat) :
    Yields (Verdict (IsMade i size) Error.Unaligned) (placeBy strategy i size align : Action π _) := by
  cases strategy with
  | heap => exact verdict_placeInHeap i size align
  | iommu => exact verdict_placeBehindIommu i size align
  | dma => exact verdict_placeInBuffer i size align

/-! ## Requests -/

/-- The object is of a controller, and of the size that was asked for in whole pages. -/
def IsRounded (i size : Nat) (o : InstanceObject) : Prop :=
  o.owner = i ∧ LeastMultiple (max size 1) pageSize o.size

/-- The request cannot be rounded for this cause, or the cause is not its alignment. -/
def Refuses (size align : Nat) (cause : Error) : Prop :=
  pageRound size align = .error cause ∨ cause.Unaligned

/-- **What a controller places is its own**, and of the size asked for in whole pages. -/
theorem verdict_place (i size align : Nat) :
    Yields (Verdict (IsRounded i size) (Refuses size align)) (place i size align : Action π _) := by
  refine yields_bind fun m => yields_bind fun _ => ?_
  cases hround : pageRound size align with
  | error cause => exact yields_pure (.inl hround)
  | ok rounded =>
    obtain ⟨pages, step⟩ := rounded
    refine (verdict_placeBy _ i pages step).bind fun answer hanswer => ?_
    cases answer with
    | error cause => exact yields_pure (.inr hanswer)
    | ok o =>
      have hsize : LeastMultiple (max size 1) pageSize o.size :=
        hanswer.2 ▸ (pageRound_eq_ok hround).1
      exact yields_bind fun _ => yields_bind fun _ => yields_pure ⟨hanswer.1, hsize⟩

theorem verdict_make (i size align : Nat) (zeroed : Bool) :
    Yields (Verdict (IsRounded i size) (Refuses size align))
      (make i size align zeroed : Action π _) := by
  refine (verdict_place i size align).bind fun answer hanswer => ?_
  cases answer with
  | error cause => exact yields_pure hanswer
  | ok o =>
    dsimp only
    split
    · exact yields_bind fun _ => yields_pure hanswer
    · exact yields_pure hanswer

/-- **An object that is granted is of the size asked for**, in whole pages. -/
theorem verdict_allocate (i size align : Nat) (zeroed : Bool) :
    Yields (Verdict (IsRounded i size) (Refuses size align))
      (allocate i size align zeroed : Action π _) := by
  apply yields_bind
  intro m
  cases (m.controller i).phase with
  | suspended => exact yields_pure (.inr nofun)
  | constructed => exact verdict_make i size align zeroed
  | initialized => exact verdict_make i size align zeroed

end Action
end InstanceMemory
