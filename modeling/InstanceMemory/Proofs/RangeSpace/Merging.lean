import InstanceMemory.Proofs.RangeSpace.Holes

/-!
# Merging a range into a free map

A `FreeMap` is a map from bases to lengths, listed in the order of its keys: no range in it is empty, and no
two have an address in common or touch. A range that is disjoint from all of them has them `Around` it:
those that end before it, at most one that ends where it begins, at most one that begins where it ends,
and those that begin behind it. `Holes.insert` puts the range, joined with the one or two that touch it, in
their place (`Holes.insert_around`).

`Holes.insertByBase` gives the range back through look-ups by key instead. It finds the neighbour below as
the last entry with a smaller base, and the neighbour above by the address at which the range ends once it
is joined with the first; it then enters the joined range under its base, over whatever stood there. The
two agree (`Holes.insertByBase_around`), so nothing but a neighbour is ever written over.

`Holes.insert_merges` says of both what they do to a free map.
-/

set_option autoImplicit false

namespace InstanceMemory

variable {r range : AddressRange} {free first second : List AddressRange} {base length address : Nat}

/-- One of the ranges begins where the other ends. -/
def AddressRange.Touches (r s : AddressRange) : Prop := r.limit = s.base ∨ s.limit = r.base

instance : DecidableRel AddressRange.Touches := fun _ _ => inferInstanceAs (Decidable (_ ∨ _))

/-! ## Free maps -/

/-- A **free map**: ranges in the order of their bases, of which none is empty and no two have an address
in common or touch, all of them ending at an address. -/
structure FreeMap (free : List AddressRange) : Prop where
  keyed : free.Pairwise fun r s => r.base < s.base
  positive : ∀ r ∈ free, 0 < r.length
  disjoint : free.Pairwise AddressRange.Disjoint
  separate : free.Pairwise fun r s => ¬ r.Touches s
  limit_lt : ∀ r ∈ free, r.limit < addressLimit

theorem FreeMap.of_cons (h : FreeMap (r :: free)) : FreeMap free where
  keyed := h.keyed.of_cons
  positive s hs := h.positive s (List.mem_cons_of_mem _ hs)
  disjoint := h.disjoint.of_cons
  separate := h.separate.of_cons
  limit_lt s hs := h.limit_lt s (List.mem_cons_of_mem _ hs)

/-- **Free maps are the canonical lists** whose ranges end at addresses. -/
theorem freeMap_iff : FreeMap free ↔ Canonical free ∧ ∀ r ∈ free, r.limit < addressLimit := by
  constructor
  · rintro ⟨hkeyed, hpos, hdisjoint, hseparate, hlimit⟩
    refine ⟨⟨hpos, ?_⟩, hlimit⟩
    refine ((hkeyed.and hdisjoint).and hseparate).imp_of_mem fun {r s} hr hs h => ?_
    obtain ⟨⟨hlt, hdisjoint⟩, hseparate⟩ := h
    have hpos' := hpos s hs
    rcases (AddressRange.disjoint_iff (hpos r hr) hpos').mp hdisjoint with hle | hle
    · exact Nat.lt_of_le_of_ne hle fun htouch => hseparate (.inl htouch)
    · simp only [AddressRange.limit] at hle
      omega
  · rintro ⟨hc, hlimit⟩
    refine ⟨hc.apart.imp ?_, hc.positive, hc.ascending.disjoint, hc.apart.imp_of_mem ?_, hlimit⟩
    · intro r s h
      simp only [AddressRange.limit] at h
      omega
    · intro r s hr hs h htouch
      have hpos := hc.positive s hs
      unfold AddressRange.Touches AddressRange.limit at htouch
      simp only [AddressRange.limit] at h
      omega

/-- Nonempty ranges end where what they cover ends, or before. -/
theorem limit_le_of_covers_lt (hpos : ∀ r ∈ free, 0 < r.length)
    (hcovers : ∀ x, Covers free x → x < address) (hr : r ∈ free) : r.limit ≤ address := by
  have hlength := hpos r hr
  have hlast : r.Holds (r.limit - 1) := by
    simp only [AddressRange.Holds, AddressRange.limit]
    omega
  have := hcovers _ ⟨r, hr, hlast⟩
  omega

namespace Holes

/-! ## Giving back by base -/

/-- The last of the holes that begin below an address. -/
def lastBelow (address : Nat) (free : List AddressRange) : Option AddressRange :=
  (free.filter (·.base < address)).getLast?

/-- The hole that begins at an address. -/
def startingAt (address : Nat) (free : List AddressRange) : Option AddressRange :=
  free.find? (·.base = address)

/-- The holes without the one that begins at an address. -/
def eraseAt (address : Nat) (free : List AddressRange) : List AddressRange :=
  free.filter (·.base ≠ address)

/-- Enters a range at its base, in the place of any hole that begins there. -/
def enter (range : AddressRange) (free : List AddressRange) : List AddressRange :=
  free.filter (·.base < range.base) ++ range :: free.filter (range.base < ·.base)

/-- Takes the last hole below a range out, if the range begins where it ends, and joins them. -/
def absorbBelow (range : AddressRange) (free : List AddressRange) :
    Except Fault (AddressRange × List AddressRange) :=
  match lastBelow range.base free with
  | none => .ok (range, free)
  | some hole => do
    if (← hole.stop) = range.base then
      return (⟨hole.base, ← checkedAdd range.length hole.length⟩, eraseAt hole.base free)
    else return (range, free)

/-- Takes the hole out that begins where a range ends, if there is one, and joins them. -/
def absorbAbove (range : AddressRange) (free : List AddressRange) :
    Except Fault (AddressRange × List AddressRange) := do
  let stop ← range.stop
  match startingAt stop free with
  | none => return (range, free)
  | some hole => return (⟨range.base, ← checkedAdd range.length hole.length⟩, eraseAt stop free)

/-- Gives a range back by looking its neighbours up, the one below first. -/
def insertByBase (range : AddressRange) (free : List AddressRange) :
    Except Fault (List AddressRange) := do
  let (joined, rest) ← absorbBelow range free
  let (joined, rest) ← absorbAbove joined rest
  return enter joined rest

/-! ## The neighbours of a range -/

/-- How holes lie around a range: those that end before it, at most one that ends where it begins, at
most one that begins where it ends, and those that begin behind it. -/
structure Around (range : AddressRange) (lower : List AddressRange) (below above : Option AddressRange)
    (upper : List AddressRange) : Prop where
  lower : ∀ r ∈ lower, r.limit < range.base
  below : ∀ r ∈ below, r.limit = range.base
  above : ∀ r ∈ above, r.base = range.limit
  upper : ∀ r ∈ upper, range.limit < r.base

/-- A range with its neighbours, as one range. -/
def joined (range : AddressRange) (below above : Option AddressRange) : AddressRange :=
  ⟨below.elim range.base (·.base), range.length + below.elim 0 (·.length) + above.elim 0 (·.length)⟩

/-- Of canonical holes behind a range at most the first begins where it ends. -/
theorem exists_above (hc : Canonical free) (hbehind : ∀ r ∈ free, range.limit ≤ r.base) :
    ∃ above upper, free = Option.toList above ++ upper ∧ (∀ r ∈ above, r.base = range.limit) ∧
      ∀ r ∈ upper, range.limit < r.base := by
  cases free with
  | nil => exact ⟨none, [], rfl, nofun, nofun⟩
  | cons hole rest =>
    obtain ⟨-, hrest, -⟩ := canonical_cons.mp hc
    have hhole := hbehind hole List.mem_cons_self
    have hlt : ∀ r ∈ rest, range.limit < r.base := by
      intro r hr
      have := hrest r hr
      unfold AddressRange.limit at this hhole ⊢
      omega
    by_cases htouch : hole.base = range.limit
    · exact ⟨some hole, rest, rfl, fun r hr => Option.mem_some.mp hr ▸ htouch, hlt⟩
    · refine ⟨none, hole :: rest, rfl, nofun, ?_⟩
      exact List.forall_mem_cons.mpr ⟨Nat.lt_of_le_of_ne hhole (Ne.symm htouch), hlt⟩

/-- **Canonical holes lie around every range that is disjoint from them.** -/
theorem exists_around (hc : Canonical free) (hpos : 0 < range.length)
    (hdisjoint : ∀ r ∈ free, r.Disjoint range) :
    ∃ lower below above upper, free = lower ++ Option.toList below ++ Option.toList above ++ upper ∧
      Around range lower below above upper := by
  induction free with
  | nil => exact ⟨[], none, none, [], rfl, nofun, nofun, nofun, nofun⟩
  | cons hole rest ih =>
    obtain ⟨hhole, hrest, hcrest⟩ := canonical_cons.mp hc
    have hdisjointRest : ∀ r ∈ rest, r.Disjoint range :=
      fun r hr => hdisjoint r (List.mem_cons_of_mem _ hr)
    rcases (AddressRange.disjoint_iff hhole hpos).mp (hdisjoint hole List.mem_cons_self) with hle | hle
    · rcases Nat.lt_or_eq_of_le hle with hlt | heq
      · obtain ⟨lower, below, above, upper, rfl, haround⟩ := ih hcrest hdisjointRest
        exact ⟨hole :: lower, below, above, upper, rfl,
          List.forall_mem_cons.mpr ⟨hlt, haround.lower⟩, haround.below, haround.above, haround.upper⟩
      · have hbehind : ∀ r ∈ rest, range.limit ≤ r.base := by
          intro r hr
          have hbeyond := hrest r hr
          rcases (AddressRange.disjoint_iff (hcrest.positive r hr) hpos).mp (hdisjointRest r hr) with h | h
          · unfold AddressRange.limit at h hbeyond heq
            omega
          · exact h
        obtain ⟨above, upper, rfl, habove, hupper⟩ := exists_above hcrest hbehind
        exact ⟨[], some hole, above, upper, rfl, nofun, fun r hr => Option.mem_some.mp hr ▸ heq,
          habove, hupper⟩
    · have hbehind : ∀ r ∈ hole :: rest, range.limit ≤ r.base := by
        refine List.forall_mem_cons.mpr ⟨hle, fun r hr => ?_⟩
        have hbeyond := hrest r hr
        unfold AddressRange.limit at hbeyond hle ⊢
        omega
      obtain ⟨above, upper, heq, habove, hupper⟩ := exists_above hc hbehind
      exact ⟨[], none, above, upper, heq, nofun, nofun, habove, hupper⟩

section

variable {lower upper : List AddressRange} {below above : Option AddressRange}

theorem mem_of_mem_below (hr : r ∈ below) : r ∈ lower ++ below.toList ++ above.toList ++ upper := by
  have hmem : r ∈ below.toList := Option.mem_toList.mpr hr
  simp only [List.mem_append, hmem, or_true, true_or]

theorem mem_of_mem_above (hr : r ∈ above) : r ∈ lower ++ below.toList ++ above.toList ++ upper := by
  have hmem : r ∈ above.toList := Option.mem_toList.mpr hr
  simp only [List.mem_append, hmem, or_true, true_or]

namespace Around

variable (h : Around range lower below above upper)

include h

/-- What does not end before a range begins further on. -/
theorem base_lt (hpos : 0 < range.length) (hr : r ∈ above.toList ++ upper) : range.base < r.base := by
  have hlt : range.base < range.limit := Nat.lt_add_of_pos_right hpos
  rcases List.mem_append.mp hr with hr | hr
  · exact h.above r (Option.mem_toList.mp hr) ▸ hlt
  · exact Nat.lt_trans hlt (h.upper r hr)

/-- The neighbour below does not move the end of the joined range. -/
theorem limit_joined_none : (joined range below none).limit = range.limit := by
  cases below with
  | none => rfl
  | some hole =>
    have htouch := h.below hole rfl
    simp only [joined, Option.elim_some, Option.elim_none, AddressRange.limit] at htouch ⊢
    omega

variable (hmap : FreeMap (lower ++ below.toList ++ above.toList ++ upper))

include hmap

theorem base_lt_of_below (hr : r ∈ below) : r.base < range.base :=
  h.below r hr ▸ Nat.lt_add_of_pos_right (hmap.positive r (mem_of_mem_below hr))

/-- The holes further down begin before the joined range does. -/
theorem base_lt_joined (hr : r ∈ lower) : r.base < (joined range below above).base := by
  cases below with
  | none => exact Nat.lt_of_le_of_lt (Nat.le_add_right _ _) (h.lower r hr)
  | some hole =>
    have hkeyed := (List.pairwise_append.mp hmap.keyed).1
    rw [List.append_assoc, List.pairwise_append] at hkeyed
    exact hkeyed.2.2 r hr hole (List.mem_append_left _ (List.mem_singleton_self hole))

theorem joined_base_le : (joined range below above).base ≤ range.base := by
  cases below with
  | none => exact Nat.le_refl _
  | some hole =>
    have hlt : hole.base < range.base := h.base_lt_of_below hmap rfl
    exact Nat.le_of_lt hlt

end Around

end

/-! ## Giving back along the list -/

/-- Holes that all begin behind a range take it in front of them. -/
theorem insert_eq_joinNext (h : ∀ r ∈ free, base ≤ r.base) :
    insert base length free = joinNext base length free := by
  cases free with
  | nil => rfl
  | cons hole rest => rw [insert, if_neg (Nat.not_lt.mpr (h hole List.mem_cons_self))]

/-- A hole that ends before a range is passed by. -/
theorem insert_cons_of_limit_lt {hole : AddressRange} (hlimit : hole.limit < addressLimit)
    (h : hole.limit < base) :
    insert base length (hole :: free) = (insert base length free).map (hole :: ·) := by
  have hlt : hole.base < base := Nat.lt_of_le_of_lt (Nat.le_add_right _ _) h
  rw [insert, if_pos hlt, AddressRange.stop_eq hlimit, ok_bind, if_neg (Nat.ne_of_lt h)]
  cases insert base length free <;> rfl

/-- A hole that ends where a range begins is joined with it. -/
theorem insert_cons_of_limit_eq {hole : AddressRange} (hpos : 0 < hole.length)
    (hlimit : base + length < addressLimit) (h : hole.limit = base) :
    insert base length (hole :: free) = joinNext hole.base (length + hole.length) free := by
  have hlt : hole.base < base := h ▸ Nat.lt_add_of_pos_right hpos
  have hstop : hole.limit < addressLimit := by omega
  have hsum : length + hole.length < addressLimit := by
    unfold AddressRange.limit at h
    omega
  rw [insert, if_pos hlt, AddressRange.stop_eq hstop, ok_bind, if_pos h, checkedAdd_of_lt hsum, ok_bind]

/-- A range in front of holes is joined with the one that begins where it ends. -/
theorem joinNext_around {above : Option AddressRange} {upper : List AddressRange}
    (habove : ∀ r ∈ above, r.base = range.limit) (hupper : ∀ r ∈ upper, range.limit < r.base)
    (hlimit : range.limit < addressLimit) (hlimits : ∀ r ∈ above, r.limit < addressLimit) :
    joinNext range.base range.length (above.toList ++ upper) =
      .ok (⟨range.base, range.length + above.elim 0 (·.length)⟩ :: upper) := by
  have hstop : checkedAdd range.base range.length = .ok range.limit := checkedAdd_of_lt hlimit
  rw [joinNext, hstop, ok_bind]
  cases above with
  | some hole =>
    have htouch := habove hole rfl
    have hsum : range.length + hole.length < addressLimit := by
      have := hlimits hole rfl
      unfold AddressRange.limit at this htouch
      omega
    simp only [Option.toList_some, List.cons_append, List.nil_append, htouch, ↓reduceIte,
      checkedAdd_of_lt hsum, Option.elim_some]
    rfl
  | none =>
    cases upper with
    | nil => rfl
    | cons hole rest =>
      have hbehind := hupper hole List.mem_cons_self
      simp only [Option.toList_none, List.nil_append, Nat.ne_of_gt hbehind, ↓reduceIte]
      rfl

section

variable {lower upper : List AddressRange} {below above : Option AddressRange}
  (h : Around range lower below above upper)
  (hmap : FreeMap (lower ++ below.toList ++ above.toList ++ upper))

include h hmap

/-- **A range that is given back takes the place of its neighbours**, joined with them. -/
theorem insert_around (hpos : 0 < range.length) (hlimit : range.limit < addressLimit) :
    insert range.base range.length (lower ++ below.toList ++ above.toList ++ upper) =
      .ok (lower ++ joined range below above :: upper) := by
  induction lower with
  | nil =>
    have haboveLimits : ∀ r ∈ above, r.limit < addressLimit :=
      fun r hr => hmap.limit_lt r (mem_of_mem_above hr)
    cases below with
    | none =>
      have hbehind : ∀ r ∈ above.toList ++ upper, range.base ≤ r.base :=
        fun r hr => Nat.le_of_lt (h.base_lt hpos hr)
      exact (insert_eq_joinNext hbehind).trans (joinNext_around h.above h.upper hlimit haboveLimits)
    | some hole =>
      -- with the hole below, the range begins lower and ends where it ended
      have hsame : (⟨hole.base, range.length + hole.length⟩ : AddressRange).limit = range.limit :=
        h.limit_joined_none
      have hjoin := @joinNext_around ⟨hole.base, range.length + hole.length⟩ above upper
        (hsame ▸ h.above) (hsame ▸ h.upper) (hsame ▸ hlimit) haboveLimits
      have hhole := hmap.positive hole List.mem_cons_self
      exact (insert_cons_of_limit_eq hhole hlimit (h.below hole rfl)).trans hjoin
  | cons hole rest ih =>
    have hrest := ih ⟨fun r hr => h.lower r (List.mem_cons_of_mem _ hr), h.below, h.above, h.upper⟩
      hmap.of_cons
    simp only [List.cons_append] at hrest ⊢
    rw [insert_cons_of_limit_lt (hmap.limit_lt hole List.mem_cons_self)
      (h.lower hole List.mem_cons_self), hrest]
    rfl

end

/-! ## Look-ups by base -/

theorem filter_base_lt (hfirst : ∀ r ∈ first, r.base < address)
    (hsecond : ∀ r ∈ second, address ≤ r.base) :
    (first ++ second).filter (·.base < address) = first := by
  have hkeep : first.filter (·.base < address) = first :=
    List.filter_eq_self.mpr fun r hr => decide_eq_true (hfirst r hr)
  have hdrop : second.filter (·.base < address) = [] :=
    List.filter_eq_nil_iff.mpr fun r hr h => Nat.not_lt.mpr (hsecond r hr) (of_decide_eq_true h)
  rw [List.filter_append, hkeep, hdrop, List.append_nil]

theorem filter_lt_base (hfirst : ∀ r ∈ first, r.base ≤ address)
    (hsecond : ∀ r ∈ second, address < r.base) :
    (first ++ second).filter (address < ·.base) = second := by
  have hkeep : second.filter (address < ·.base) = second :=
    List.filter_eq_self.mpr fun r hr => decide_eq_true (hsecond r hr)
  have hdrop : first.filter (address < ·.base) = [] :=
    List.filter_eq_nil_iff.mpr fun r hr h => Nat.not_lt.mpr (hfirst r hr) (of_decide_eq_true h)
  rw [List.filter_append, hkeep, hdrop, List.nil_append]

/-- A range is entered between the holes below it and those above. -/
theorem enter_append (hfirst : ∀ r ∈ first, r.base < range.base)
    (hsecond : ∀ r ∈ second, range.base < r.base) :
    enter range (first ++ second) = first ++ range :: second := by
  rw [enter, filter_base_lt hfirst fun r hr => Nat.le_of_lt (hsecond r hr),
    filter_lt_base (fun r hr => Nat.le_of_lt (hfirst r hr)) hsecond]

section

variable {hole : Option AddressRange} (hfirst : ∀ r ∈ first, r.base < address)
  (hhole : ∀ r ∈ hole, r.base = address) (hsecond : ∀ r ∈ second, address < r.base)

include hfirst hhole hsecond

theorem startingAt_append : startingAt address (first ++ hole.toList ++ second) = hole := by
  have hbefore : first.find? (·.base = address) = none :=
    List.find?_eq_none.mpr fun r hr h => Nat.ne_of_lt (hfirst r hr) (of_decide_eq_true h)
  have hbehind : second.find? (·.base = address) = none :=
    List.find?_eq_none.mpr fun r hr h => Nat.ne_of_gt (hsecond r hr) (of_decide_eq_true h)
  rw [startingAt, List.append_assoc, List.find?_append, hbefore, Option.none_or, List.find?_append,
    hbehind, Option.or_none]
  cases hole with
  | none => rfl
  | some r => exact List.find?_cons_of_pos (decide_eq_true (hhole r rfl))

theorem eraseAt_append : eraseAt address (first ++ hole.toList ++ second) = first ++ second := by
  have hbefore : first.filter (·.base ≠ address) = first :=
    List.filter_eq_self.mpr fun r hr => decide_eq_true (Nat.ne_of_lt (hfirst r hr))
  have hbehind : second.filter (·.base ≠ address) = second :=
    List.filter_eq_self.mpr fun r hr => decide_eq_true (Nat.ne_of_gt (hsecond r hr))
  have hat : hole.toList.filter (·.base ≠ address) = [] :=
    List.filter_eq_nil_iff.mpr fun r hr h =>
      of_decide_eq_true h (hhole r (Option.mem_toList.mp hr))
  rw [eraseAt, List.filter_append, List.filter_append, hbefore, hat, hbehind, List.append_nil]

end

section

variable {lower upper : List AddressRange} {below above : Option AddressRange}
  (h : Around range lower below above upper)
  (hmap : FreeMap (lower ++ below.toList ++ above.toList ++ upper))

include h hmap

/-- The neighbour below is found as the last hole with a smaller base. -/
theorem absorbBelow_around (hpos : 0 < range.length) (hlimit : range.limit < addressLimit) :
    absorbBelow range (lower ++ below.toList ++ above.toList ++ upper) =
      .ok (joined range below none, lower ++ above.toList ++ upper) := by
  have hbelow : ∀ r ∈ lower ++ below.toList, r.base < range.base := by
    intro r hr
    rcases List.mem_append.mp hr with hr | hr
    · exact Nat.lt_of_lt_of_le (h.base_lt_joined hmap hr) (h.joined_base_le hmap)
    · exact h.base_lt_of_below hmap (Option.mem_toList.mp hr)
  have habove : ∀ r ∈ above.toList ++ upper, range.base < r.base := fun r hr => h.base_lt hpos hr
  have hlast : lastBelow range.base (lower ++ below.toList ++ above.toList ++ upper) =
      (lower ++ below.toList).getLast? := by
    rw [lastBelow, List.append_assoc _ above.toList,
      filter_base_lt hbelow fun r hr => Nat.le_of_lt (habove r hr)]
  have hbase : range.base ≤ range.limit := Nat.le_add_right _ _
  rw [absorbBelow, hlast]
  cases below with
  | some hole =>
    have htouch := h.below hole rfl
    have hstop : hole.stop = .ok hole.limit := AddressRange.stop_eq (by omega)
    have hsum : range.length + hole.length < addressLimit := by
      simp only [AddressRange.limit] at htouch hlimit
      omega
    have herase : eraseAt hole.base (lower ++ [hole] ++ above.toList ++ upper) =
        lower ++ above.toList ++ upper := by
      have hhole := h.base_lt_of_below hmap (Option.mem_some_self hole)
      have hlower : ∀ r ∈ lower, r.base < hole.base := fun r hr => h.base_lt_joined hmap hr
      rw [List.append_assoc _ above.toList, List.append_assoc _ above.toList]
      have hat : ∀ r ∈ some hole, r.base = hole.base := fun r hr => Option.mem_some.mp hr ▸ rfl
      exact eraseAt_append hlower hat fun r hr => Nat.lt_trans hhole (habove r hr)
    simp only [Option.toList_some, List.getLast?_concat, hstop, ok_bind, htouch, ↓reduceIte,
      checkedAdd_of_lt hsum, herase]
    rfl
  | none =>
    simp only [Option.toList_none, List.append_nil]
    cases hlower : lower.getLast? with
    | none => rfl
    | some hole =>
      have hlt := h.lower hole (List.mem_of_getLast? hlower)
      have hstop : hole.stop = .ok hole.limit := AddressRange.stop_eq (by omega)
      simp only [hstop, ok_bind, Nat.ne_of_lt hlt, ↓reduceIte]
      rfl

/-- The neighbour above is found by the address at which the range ends, also after the range was joined
with the neighbour below. -/
theorem absorbAbove_around (hpos : 0 < range.length) (hlimit : range.limit < addressLimit) :
    absorbAbove (joined range below none) (lower ++ above.toList ++ upper) =
      .ok (joined range below above, lower ++ upper) := by
  have hlower : ∀ r ∈ lower, r.base < range.limit := by
    intro r hr
    have hlt := Nat.lt_of_lt_of_le (h.base_lt_joined hmap hr) (h.joined_base_le hmap)
    exact Nat.lt_trans hlt (Nat.lt_add_of_pos_right hpos)
  have hsame := h.limit_joined_none
  have hstop : (joined range below none).stop = .ok range.limit :=
    hsame ▸ AddressRange.stop_eq (hsame.symm ▸ hlimit)
  rw [absorbAbove, hstop, ok_bind, startingAt_append hlower h.above h.upper,
    eraseAt_append hlower h.above h.upper]
  cases above with
  | none =>
    rw [Option.toList_none, List.append_nil]
    rfl
  | some hole =>
    have hholeLimit := hmap.limit_lt hole (mem_of_mem_above rfl)
    have hsum : (joined range below none).length + hole.length < addressLimit := by
      have htouch := h.above hole rfl
      unfold AddressRange.limit at hholeLimit htouch hsame
      omega
    dsimp only
    rw [checkedAdd_of_lt hsum]
    rfl

/-- **Giving back by base is giving back along the list.** -/
theorem insertByBase_around (hpos : 0 < range.length) (hlimit : range.limit < addressLimit) :
    insertByBase range (lower ++ below.toList ++ above.toList ++ upper) =
      .ok (lower ++ joined range below above :: upper) := by
  have henter : enter (joined range below above) (lower ++ upper) =
      lower ++ joined range below above :: upper := by
    refine enter_append (fun r hr => h.base_lt_joined hmap hr) fun r hr => ?_
    exact Nat.lt_of_le_of_lt (h.joined_base_le hmap) (h.base_lt hpos (List.mem_append_right _ hr))
  rw [insertByBase, absorbBelow_around h hmap hpos hlimit, ok_bind]
  dsimp only
  rw [absorbAbove_around h hmap hpos hlimit, ok_bind]
  exact congrArg Except.ok henter

end

/-! ## What giving back does to a free map -/

section

variable {lower upper : List AddressRange} {below above : Option AddressRange}
  (h : Around range lower below above upper) (hpos : 0 < range.length)

include h hpos

theorem not_touches_of_around (r : AddressRange) (hr : r ∈ lower ∨ r ∈ upper) : ¬ r.Touches range := by
  unfold AddressRange.Touches
  rcases hr with hr | hr
  · have := h.lower r hr
    simp only [AddressRange.limit] at this ⊢
    omega
  · have := h.upper r hr
    simp only [AddressRange.limit] at this ⊢
    omega

/-- **The holes that touch a range are its neighbours**, and the others stay as they lie. -/
theorem touches_around :
    (lower ++ below.toList ++ above.toList ++ upper).countP (fun r => r.Touches range) =
        below.toList.length + above.toList.length ∧
      (lower ++ below.toList ++ above.toList ++ upper).filter (fun r => ¬ r.Touches range) =
        lower ++ upper := by
  have hlower : ∀ r ∈ lower, ¬ r.Touches range := fun r hr => not_touches_of_around h hpos r (.inl hr)
  have hupper : ∀ r ∈ upper, ¬ r.Touches range := fun r hr => not_touches_of_around h hpos r (.inr hr)
  have hbelow : ∀ r ∈ below.toList, r.Touches range :=
    fun r hr => .inl (h.below r (Option.mem_toList.mp hr))
  have habove : ∀ r ∈ above.toList, r.Touches range :=
    fun r hr => .inr (h.above r (Option.mem_toList.mp hr)).symm
  constructor
  · have hbelowCount := List.countP_eq_length.mpr fun r hr => decide_eq_true (hbelow r hr)
    have haboveCount := List.countP_eq_length.mpr fun r hr => decide_eq_true (habove r hr)
    have hlowerCount := List.countP_eq_zero.mpr fun r hr ht => hlower r hr (of_decide_eq_true ht)
    have hupperCount := List.countP_eq_zero.mpr fun r hr ht => hupper r hr (of_decide_eq_true ht)
    simp only [List.countP_append, hlowerCount, hbelowCount, haboveCount, hupperCount, Nat.zero_add,
      Nat.add_zero]
  · have hkeepLower := List.filter_eq_self.mpr fun r hr => decide_eq_true (hlower r hr)
    have hkeepUpper := List.filter_eq_self.mpr fun r hr => decide_eq_true (hupper r hr)
    have hdropBelow : below.toList.filter (fun r => ¬ r.Touches range) = [] :=
      List.filter_eq_nil_iff.mpr fun r hr ht => of_decide_eq_true ht (hbelow r hr)
    have hdropAbove : above.toList.filter (fun r => ¬ r.Touches range) = [] :=
      List.filter_eq_nil_iff.mpr fun r hr ht => of_decide_eq_true ht (habove r hr)
    simp only [List.filter_append, hkeepLower, hdropBelow, hdropAbove, hkeepUpper, List.append_nil]

end

/-- A free map after a range was **merged** into it. -/
structure Merged (range : AddressRange) (free out : List AddressRange) : Prop where
  freeMap : FreeMap out
  covers : ∀ x, Covers out x ↔ Covers free x ∨ range.Holds x
  /-- One entry is new, and of the old ones those are left that the range does not touch. -/
  entries : ∃ merged, out.Perm (merged :: free.filter fun r => ¬ r.Touches range)
  length_add : out.length + free.countP (fun r => r.Touches range) = free.length + 1
  touching_le : free.countP (fun r => r.Touches range) ≤ 2

/-- **Giving a range back merges it exactly.** This holds of every free map and every range that is not
empty, ends at an address and has no address in common with an entry. -/
theorem insert_merges (hfree : FreeMap free) (hpos : 0 < range.length)
    (hlimit : range.limit < addressLimit) (hdisjoint : ∀ r ∈ free, r.Disjoint range) :
    ∃ out, insert range.base range.length free = .ok out ∧ insertByBase range free = .ok out ∧
      Merged range free out := by
  obtain ⟨hc, hlimits⟩ := freeMap_iff.mp hfree
  obtain ⟨out, hout, hcout, hcovers⟩ := insert_spec hc hlimits hpos hlimit
    fun x hle hlt ⟨r, hr, hx⟩ => hdisjoint r hr x hx ⟨hle, hlt⟩
  obtain ⟨lower, below, above, upper, rfl, haround⟩ := exists_around hc hpos hdisjoint
  obtain rfl := Except.ok.inj (hout.symm.trans (insert_around haround hfree hpos hlimit))
  obtain ⟨hcount, hothers⟩ := touches_around haround hpos
  refine ⟨_, hout, insertByBase_around haround hfree hpos hlimit, ?_, ?_, ?_, ?_, ?_⟩
  · have hcovered : ∀ x, Covers (lower ++ joined range below above :: upper) x → x < addressLimit - 1 := by
      intro x hx
      rcases (hcovers x).mp hx with ⟨-, hlt⟩ | ⟨r, hr, -, hlt⟩
      · exact Nat.lt_sub_of_add_lt (Nat.lt_of_le_of_lt hlt hlimit)
      · exact Nat.lt_sub_of_add_lt (Nat.lt_of_le_of_lt hlt (hlimits r hr))
    refine freeMap_iff.mpr ⟨hcout, fun r hr => ?_⟩
    exact Nat.lt_of_le_of_lt (limit_le_of_covers_lt hcout.positive hcovered hr) (by decide)
  · exact fun x => (hcovers x).trans or_comm
  · refine ⟨joined range below above, ?_⟩
    rw [hothers]
    exact List.perm_middle
  · rw [hcount]
    simp only [List.length_append, List.length_cons]
    omega
  · rw [hcount]
    have hbelow := below.length_toList_le
    have habove := above.length_toList_le
    omega

/-- The last addresses but one page are given back between two holes that both touch them, with a third
hole at the start of the address space. -/
theorem insert_merges_both_neighbours :
    let free : List AddressRange :=
      [⟨0, 0x1000⟩, ⟨0xffffffffffffd000, 0x1000⟩, ⟨0xfffffffffffff000, 0xfff⟩]
    let range : AddressRange := ⟨0xffffffffffffe000, 0x1000⟩
    let out : List AddressRange := [⟨0, 0x1000⟩, ⟨0xffffffffffffd000, 0x2fff⟩]
    FreeMap free ∧ 0 < range.length ∧ range.limit < addressLimit ∧ (∀ r ∈ free, r.Disjoint range) ∧
      insert range.base range.length free = .ok out ∧ insertByBase range free = .ok out ∧
      Merged range free out := by
  intro free range out
  have hfree : FreeMap free := freeMap_iff.mpr ⟨⟨by decide, by decide⟩, by decide⟩
  have hside : ∀ r ∈ free, r.limit ≤ range.base ∨ range.limit ≤ r.base := by decide
  have hdisjoint : ∀ r ∈ free, r.Disjoint range :=
    fun r hr => (AddressRange.disjoint_iff (hfree.positive r hr) (by decide)).mpr (hside r hr)
  obtain ⟨merged, hinsert, hbyBase, hmerged⟩ := insert_merges hfree (by decide) (by decide) hdisjoint
  have hout : insert range.base range.length free = .ok out := by decide +kernel
  obtain rfl : merged = out := Except.ok.inj (hinsert.symm.trans hout)
  exact ⟨hfree, by decide, by decide, hdisjoint, hinsert, hbyBase, hmerged⟩

end Holes
end InstanceMemory
