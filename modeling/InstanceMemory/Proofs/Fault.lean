import InstanceMemory.AddressRange

/-!
# Checked computations that answer

A checked computation that answered did so step by step (`bind_eq_ok`), and each checked sum in it
stayed below the address limit (`checkedAdd_eq_ok_iff`).
-/

set_option autoImplicit false

namespace InstanceMemory

variable {α β : Type} {a b n : Nat}

/-- A checked computation goes on with what it answered. -/
theorem ok_bind (x : α) (f : α → Except Fault β) : (Except.ok x >>= f) = f x := rfl

/-- A computation that answered did so after its first step had answered. -/
theorem bind_eq_ok {ε : Type} {first : Except ε α} {next : α → Except ε β} {y : β} :
    (first >>= next) = .ok y ↔ ∃ x, first = .ok x ∧ next x = .ok y := by
  constructor
  · intro h
    cases first with
    | error f => cases h
    | ok x => exact ⟨x, rfl, h⟩
  · rintro ⟨x, rfl, h⟩
    exact h

theorem checkedAdd_eq_ok_iff : checkedAdd a b = .ok n ↔ n = a + b ∧ a + b < addressLimit := by
  constructor
  · intro h
    unfold checkedAdd at h
    split at h
    · cases h
      exact ⟨rfl, ‹_›⟩
    · cases h
  · rintro ⟨rfl, h⟩
    exact checkedAdd_of_lt h

/-- The stop of a range that ends below the address limit is its limit. -/
theorem AddressRange.stop_eq {r : AddressRange} (h : r.limit < addressLimit) :
    r.stop = .ok r.limit :=
  checkedAdd_of_lt h

theorem AddressRange.stop_eq_ok_iff {r : AddressRange} :
    r.stop = .ok n ↔ n = r.limit ∧ r.limit < addressLimit :=
  checkedAdd_eq_ok_iff

end InstanceMemory
