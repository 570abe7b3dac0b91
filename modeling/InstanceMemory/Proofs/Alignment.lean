import InstanceMemory.Alignment
import Mathlib.Data.Nat.Log

/-!
# Rounding to multiples

`LeastMultiple value step m` says what rounding up means, in numbers without bound: `m` is the least
multiple of `step` that is at least `value`. `nextMultiple?` answers exactly that number where it is
an address, and nothing where it is none (`nextMultiple?_eq_some_iff`, `nextMultiple?_eq_none_iff`).

Powers of two divide each other in their order (`dvd_of_isPowerOfTwo`), which is what makes an
alignment a multiple of any smaller granularity.
-/

set_option autoImplicit false

namespace InstanceMemory

/-- The least multiple of a step that is at least a value. -/
structure LeastMultiple (value step m : Nat) : Prop where
  dvd : step ∣ m
  le : value ≤ m
  least : ∀ n, step ∣ n → value ≤ n → m ≤ n

/-- Rounding up by division finds the least multiple. -/
theorem leastMultiple_div_mul (value : Nat) {step : Nat} (hstep : 0 < step) :
    LeastMultiple value step ((value + (step - 1)) / step * step) := by
  refine ⟨Nat.dvd_mul_left step _, ?_, ?_⟩
  · have hdiv := Nat.div_add_mod (value + (step - 1)) step
    have hmod := Nat.mod_lt (value + (step - 1)) hstep
    rw [Nat.mul_comm] at hdiv
    omega
  · rintro n ⟨k, rfl⟩ hle
    rw [Nat.mul_comm step k]
    apply Nat.mul_le_mul_right step
    rw [Nat.div_le_iff_le_mul_add_pred hstep]
    omega

/-- There is only one least multiple. -/
theorem LeastMultiple.unique {value step m n : Nat} (hm : LeastMultiple value step m)
    (hn : LeastMultiple value step n) : m = n :=
  Nat.le_antisymm (hm.least n hn.dvd hn.le) (hn.least m hm.dvd hm.le)

/-- A greater value has no smaller least multiple. -/
theorem LeastMultiple.mono {value greater step m n : Nat} (hm : LeastMultiple value step m)
    (hn : LeastMultiple greater step n) (h : value ≤ greater) : m ≤ n :=
  hm.least n hn.dvd (Nat.le_trans h hn.le)

/-- **`nextMultiple?` rounds up**: it answers the least multiple, if that is an address. -/
theorem nextMultiple?_eq_some_iff {value step m : Nat} :
    nextMultiple? value step = some m ↔
      0 < step ∧ LeastMultiple value step m ∧ m < addressLimit := by
  simp only [nextMultiple?]
  by_cases hstep : step = 0
  · simp only [hstep, true_or, ↓reduceIte, reduceCtorEq, Nat.lt_irrefl, false_and]
  · have hpos : 0 < step := Nat.pos_of_ne_zero hstep
    have hleast := leastMultiple_div_mul value hpos
    constructor
    · intro h
      split at h
      · cases h
      · cases h
        exact ⟨hpos, hleast, by omega⟩
    · rintro ⟨-, hm, hlt⟩
      obtain rfl := hm.unique hleast
      rw [if_neg (by omega)]

/-- `nextMultiple?` answers nothing exactly if no multiple from the value on is an address. -/
theorem nextMultiple?_eq_none_iff {value step : Nat} (hstep : 0 < step) :
    nextMultiple? value step = none ↔ ∀ n, step ∣ n → value ≤ n → addressLimit ≤ n := by
  have hleast := leastMultiple_div_mul value hstep
  constructor
  · intro h n hdvd hle
    by_contra hlt
    have := hleast.least n hdvd hle
    have hsome := nextMultiple?_eq_some_iff.mpr ⟨hstep, hleast, by omega⟩
    rw [h] at hsome
    cases hsome
  · intro h
    cases hsome : nextMultiple? value step with
    | none => rfl
    | some m =>
      obtain ⟨-, hm, hlt⟩ := nextMultiple?_eq_some_iff.mp hsome
      have := h m hm.dvd hm.le
      omega

/-- A power of two divides every power of two that is no smaller. -/
theorem dvd_of_isPowerOfTwo {a b : Nat} (ha : a.isPowerOfTwo) (hb : b.isPowerOfTwo) (h : a ≤ b) :
    a ∣ b := by
  obtain ⟨i, rfl⟩ := ha
  obtain ⟨j, rfl⟩ := hb
  exact Nat.pow_dvd_pow 2 ((Nat.pow_le_pow_iff_right (by omega)).mp h)

/-- A power of two is positive. -/
theorem pos_of_isPowerOfTwo {a : Nat} (h : a.isPowerOfTwo) : 0 < a := by
  obtain ⟨k, rfl⟩ := h
  exact Nat.two_pow_pos k

end InstanceMemory
