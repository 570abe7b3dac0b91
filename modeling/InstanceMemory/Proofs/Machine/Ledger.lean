import InstanceMemory.Proofs.Machine.Items
import InstanceMemory.Trace

/-!
# What a trace leaves on loan

A call takes a **loan** of the platform or of a range space, or gives one back: a page, a mapping,
a range, a buffer. Calls that give back name the loan as the calls that took it did, so the account
of a loan is a count, `taken` against `given`. Where it matters which call took a loan,
`Outstanding` and `InForce` look at what came last.

`OnLoan items calls` is the account between a trace and a list of items: what has been taken and
not given back is exactly these items. A call that takes adds an item to them (`OnLoan.take`), one
that gives back removes it (`OnLoan.give`), and all others leave them alone (`OnLoan.pass`).

`Ledger start kept own calls` follows an operation from the calls `start` on. The items `kept` are
those of objects that the operation leaves alone, and `own` are its own. It says of **every moment**
that nothing had been given back that was not out (`Ledger.solvent`), of every moment since `start`
that what is kept was out (`Ledger.held`), and, if no page was handed out while it was out, that no
device address was mapped outside a reserved range or to a page given back (`Ledger.guarded`). One
step is `Ledger.step`.
-/

set_option autoImplicit false

namespace InstanceMemory

/-- Something that one call takes and another gives back, as far as both name it. -/
inductive Loan
  | page (page : Nat)
  | mapping (address size : Nat)
  | range (space : SpaceId) (range : AddressRange)
  | buffer (buffer : Buffer) (attributes : BufferAttributes)
  deriving DecidableEq

namespace Call

/-- What the call takes, if it takes something. -/
def takes : Call → Option Loan
  | allocPage (some page) => some (.page page)
  | map address _ size _ (.ok ()) => some (.mapping address size)
  | reserve space _ _ (.ok range) => some (.range space range)
  | allocBuffer _ attributes (some buffer) => some (.buffer buffer attributes)
  | _ => none

/-- What the call gives back, if it gives something back. -/
def gives : Call → Option Loan
  | freePage page _ => some (.page page)
  | unmap address size _ => some (.mapping address size)
  | release space range => some (.range space range)
  | freeBuffer buffer attributes => some (.buffer buffer attributes)
  | _ => none

/-- No call both takes and gives back. -/
theorem gives_of_takes {call : Call} {loan : Loan} (h : call.takes = some loan) :
    call.gives = none := by
  cases call <;> first | rfl | cases h

theorem takes_of_gives {call : Call} {loan : Loan} (h : call.gives = some loan) :
    call.takes = none := by
  cases call <;> first | rfl | cases h

end Call

/-- How often a loan was taken. -/
def taken (calls : List Call) (loan : Loan) : Nat := (calls.filterMap Call.takes).count loan

/-- How often a loan was given back. -/
def given (calls : List Call) (loan : Loan) : Nat := (calls.filterMap Call.gives).count loan

/-- There was a call of one kind, and none of another kind since. -/
def Since (begins ends : Call → Prop) (calls : List Call) : Prop :=
  ∃ before call after, calls = before ++ call :: after ∧ begins call ∧ ∀ c ∈ after, ¬ ends c

/-- A loan has not been given back since it was taken last. -/
def Outstanding (loan : Loan) : List Call → Prop :=
  Since (·.takes = some loan) (·.gives = some loan)

/-- Device addresses are mapped to a physical page, and that was not taken back since. -/
def InForce (address page size : Nat) : List Call → Prop :=
  Since (fun call => ∃ permissions, call = .map address page size permissions (.ok ()))
    (·.gives = some (.mapping address size))

/-- No page was handed out while it was out already. -/
def Unrepeated (calls : List Call) : Prop :=
  ∀ before page, before ++ [.allocPage (some page)] <+: calls → ¬ Outstanding (.page page) before

/-- Addresses are mapped only while their range is reserved, and to pages that are out. -/
def Guarded (calls : List Call) : Prop :=
  ∀ address page size, InForce address page size calls →
    Outstanding (.page page) calls ∧
      ∃ range, Outstanding (.range .shared range) calls ∧
        range.base ≤ address ∧ address + size ≤ range.limit

/-! ## One more call -/

section

variable {begins ends : Call → Prop} {calls : List Call} {call : Call} {loan : Loan}

theorem since_concat :
    Since begins ends (calls ++ [call]) ↔ begins call ∨ Since begins ends calls ∧ ¬ ends call := by
  constructor
  · rintro ⟨before, first, after, hcalls, hbegins, hends⟩
    rcases List.eq_nil_or_concat after with rfl | ⟨rest, last, rfl⟩
    · obtain ⟨-, hlast⟩ := List.append_inj' hcalls rfl
      obtain rfl := List.singleton_inj.mp hlast
      exact .inl hbegins
    · rw [List.concat_eq_append, ← List.cons_append, ← List.append_assoc] at hcalls
      obtain ⟨rfl, hlast⟩ := List.append_inj' hcalls rfl
      obtain rfl := List.singleton_inj.mp hlast
      exact .inr ⟨⟨before, first, rest, rfl, hbegins, fun c hc => hends c (by
        rw [List.concat_eq_append]
        exact List.mem_append_left _ hc)⟩, hends _ (by
        rw [List.concat_eq_append]
        exact List.mem_append_right _ List.mem_cons_self)⟩
  · rintro (hbegins | ⟨⟨before, first, after, rfl, hbegins, hends⟩, hlast⟩)
    · exact ⟨calls, call, [], rfl, hbegins, fun _ hc => absurd hc List.not_mem_nil⟩
    · refine ⟨before, first, after ++ [call], ?_, hbegins, ?_⟩
      · rw [List.append_assoc, List.cons_append]
      · intro c hc
        rcases List.mem_append.mp hc with hc | hc
        · exact hends c hc
        · obtain rfl := List.mem_singleton.mp hc
          exact hlast

/-- Nothing happened in a trace without calls. -/
theorem not_since_nil : ¬ Since begins ends [] := by
  rintro ⟨before, first, after, hcalls, -⟩
  exact absurd hcalls.symm (List.append_ne_nil_of_right_ne_nil _ (List.cons_ne_nil _ _))

theorem taken_concat (calls : List Call) (call : Call) (loan : Loan) :
    taken (calls ++ [call]) loan = taken calls loan + if call.takes = some loan then 1 else 0 := by
  unfold taken
  rw [List.filterMap_append, List.count_append]
  cases htakes : call.takes with
  | none => simp [htakes]
  | some other => simp [htakes, List.count_singleton]

theorem given_concat (calls : List Call) (call : Call) (loan : Loan) :
    given (calls ++ [call]) loan = given calls loan + if call.gives = some loan then 1 else 0 := by
  unfold given
  rw [List.filterMap_append, List.count_append]
  cases hgives : call.gives with
  | none => simp [hgives]
  | some other => simp [hgives, List.count_singleton]

theorem Unrepeated.of_prefix {before : List Call} (h : Unrepeated calls)
    (hbefore : before <+: calls) : Unrepeated before :=
  fun first page hfirst => h first page (hfirst.trans hbefore)

/-- Where nothing is taken twice, no page is. -/
theorem Unrepeated.of_nodup (h : (calls.filterMap Call.takes).Nodup) : Unrepeated calls := by
  rintro _ page ⟨rest, rfl⟩ ⟨before, call, after, rfl, htakes, -⟩
  rw [List.filterMap_append, List.filterMap_append] at h
  have hapart := (List.nodup_append.mp (List.nodup_append.mp h).1).2.2
  refine hapart (.page page) (List.mem_filterMap.mpr ⟨call, ?_, htakes⟩) (.page page)
    (List.mem_filterMap.mpr ⟨_, List.mem_cons_self, rfl⟩) rfl
  exact List.mem_append_right _ List.mem_cons_self

end

/-! ## The loans of items -/

namespace Item

/-- What the item is on loan as. -/
def loan : Item → Loan
  | page p => .page p
  | buffer b => .buffer b .instanceMemory
  | range id r => .range id r
  | slot address _ => .mapping address pageSize

/-- The item is one that slots rest on: a page, or a range of device addresses. -/
def isAnchor : Item → Bool
  | page _ | range .shared _ => true
  | _ => false

/-- What slots rest on is known by its loan. -/
theorem eq_of_loan_eq {item other : Item} (hanchor : other.isAnchor = true)
    (h : item.loan = other.loan) : item = other := by
  cases other with
  | page p => cases item <;> simp_all only [loan, Loan.page.injEq, reduceCtorEq]
  | range id r => cases item <;> simp_all only [loan, Loan.range.injEq, reduceCtorEq]
  | buffer b => cases hanchor
  | slot a p => cases hanchor

/-- Every slot rests on a page and on a range of device addresses among some items. -/
def Backed (items : List Item) : Prop :=
  ∀ address p, slot address p ∈ items →
    page p ∈ items ∧ ∃ r, range .shared r ∈ items ∧ r.base ≤ address ∧ address + pageSize ≤ r.limit

theorem Backed.append {items others : List Item} (h : Backed items) (ho : Backed others) :
    Backed (items ++ others) := by
  intro address p hslot
  rcases List.mem_append.mp hslot with hslot | hslot
  · obtain ⟨hp, r, hr, hbase, hlimit⟩ := h address p hslot
    exact ⟨List.mem_append_left _ hp, r, List.mem_append_left _ hr, hbase, hlimit⟩
  · obtain ⟨hp, r, hr, hbase, hlimit⟩ := ho address p hslot
    exact ⟨List.mem_append_right _ hp, r, List.mem_append_right _ hr, hbase, hlimit⟩

/-- What takes nothing to rest on may come along. -/
theorem Backed.cons {items : List Item} {item : Item} (h : Backed items)
    (hslot : item.slot? = none) : Backed (item :: items) := by
  intro address p hmem
  rcases List.mem_cons.mp hmem with rfl | hmem
  · cases hslot
  · obtain ⟨hp, r, hr, hbase, hlimit⟩ := h address p hmem
    exact ⟨List.mem_cons_of_mem _ hp, r, List.mem_cons_of_mem _ hr, hbase, hlimit⟩

theorem Backed.perm {items others : List Item} (h : Backed items) (hperm : items.Perm others) :
    Backed others := by
  intro address p hslot
  obtain ⟨hp, r, hr, hbase, hlimit⟩ := h address p (hperm.mem_iff.mpr hslot)
  exact ⟨hperm.mem_iff.mp hp, r, hperm.mem_iff.mp hr, hbase, hlimit⟩

/-- Where there are no slots, nothing has to rest on anything. -/
theorem backed_of_slots_eq_nil {items : List Item} (h : slots items = []) : Backed items := by
  intro address p hslot
  have hmem : (address, p) ∈ slots items := List.mem_filterMap.mpr ⟨_, hslot, rfl⟩
  rw [h] at hmem
  cases hmem

/-- Slots in a row rest on the range they lie in and on their pages. -/
theorem backed_slotsFrom {r : AddressRange} {address : Nat} {mapped pages : List Nat}
    (hbase : r.base ≤ address) (hlimit : address + mapped.length * pageSize ≤ r.limit)
    (hmapped : ∀ p ∈ mapped, p ∈ pages) :
    Backed (slotsFrom address mapped ++ range .shared r :: pages.map page) := by
  intro a p hslot
  have hslots : (a, p) ∈ slots (slotsFrom address mapped) := by
    rcases List.mem_append.mp hslot with hslot | hslot
    · exact List.mem_filterMap.mpr ⟨_, hslot, rfl⟩
    · simp only [List.mem_cons, List.mem_map, reduceCtorEq, and_false, exists_false,
        or_self] at hslot
  obtain ⟨i, hi, rfl⟩ := mem_slots_slotsFrom.mp hslots
  obtain ⟨hlt, -⟩ := List.getElem?_eq_some_iff.mp hi
  have hp : p ∈ pages := hmapped p (List.mem_of_getElem? hi)
  have hslot : (i + 1) * pageSize ≤ mapped.length * pageSize := Nat.mul_le_mul_right _ hlt
  rw [Nat.succ_mul] at hslot
  refine ⟨List.mem_append_right _ (List.mem_cons_of_mem _ (List.mem_map_of_mem hp)), r,
    List.mem_append_right _ List.mem_cons_self, ?_, ?_⟩
  · omega
  · omega

end Item

/-! ## The account of a trace -/

/-- What a trace leaves on loan is exactly these items. -/
structure OnLoan (items : List Item) (calls : List Call) : Prop where
  balanced : ∀ loan, taken calls loan = given calls loan + (items.map Item.loan).count loan
  /-- What is mapped is mapped by a slot. -/
  mapped : ∀ address page size, InForce address page size calls →
    size = pageSize ∧ .slot address page ∈ items
  standing : Unrepeated calls → ∀ item ∈ items, item.isAnchor = true → Outstanding item.loan calls
  apart : Unrepeated calls → (items.filter Item.isAnchor).Nodup

namespace OnLoan

variable {items others : List Item} {item : Item} {calls : List Call} {call : Call}

theorem nil : OnLoan [] [] where
  balanced _ := rfl
  mapped _ _ _ h := absurd h not_since_nil
  standing _ _ h := absurd h List.not_mem_nil
  apart _ := List.nodup_nil

/-- The order of the items does not matter. -/
theorem perm (h : OnLoan items calls) (hperm : items.Perm others) : OnLoan others calls where
  balanced loan := by rw [h.balanced, (hperm.map Item.loan).count_eq]
  mapped address page size hforce := by
    obtain ⟨hsize, hslot⟩ := h.mapped address page size hforce
    exact ⟨hsize, hperm.mem_iff.mp hslot⟩
  standing hfresh item hitem := h.standing hfresh item (hperm.mem_iff.mpr hitem)
  apart hfresh := ((hperm.filter _).nodup_iff).mp (h.apart hfresh)

theorem unrepeated_of_concat (h : Unrepeated (calls ++ [call])) : Unrepeated calls :=
  h.of_prefix (List.prefix_append _ _)

/-- A call that neither takes nor gives back leaves the account alone. -/
theorem pass (h : OnLoan items calls) (htakes : call.takes = none) (hgives : call.gives = none) :
    OnLoan items (calls ++ [call]) where
  balanced loan := by
    rw [taken_concat, given_concat, htakes, hgives, h.balanced]
    rfl
  mapped address page size hforce := by
    rcases since_concat.mp hforce with ⟨permissions, rfl⟩ | ⟨hforce, -⟩
    · cases htakes
    · exact h.mapped address page size hforce
  standing hfresh item hitem hanchor := by
    refine since_concat.mpr (.inr ⟨h.standing (unrepeated_of_concat hfresh) item hitem hanchor, ?_⟩)
    rw [hgives]
    exact nofun
  apart hfresh := h.apart (unrepeated_of_concat hfresh)

/-- **A call that takes adds an item.** -/
theorem take (h : OnLoan items calls) (item : Item) (htakes : call.takes = some item.loan)
    (hslot : ∀ address page size permissions, call = .map address page size permissions (.ok ()) →
      size = pageSize ∧ item = .slot address page)
    (hnew : Unrepeated (calls ++ [call]) → item.isAnchor = true → item ∉ items) :
    OnLoan (item :: items) (calls ++ [call]) where
  balanced loan := by
    rw [taken_concat, given_concat, htakes, Call.gives_of_takes htakes, h.balanced, List.map_cons,
      List.count_cons]
    simp only [Option.some.injEq, beq_iff_eq, reduceCtorEq, ↓reduceIte, Nat.add_zero]
    omega
  mapped address page size hforce := by
    rcases since_concat.mp hforce with ⟨permissions, hcall⟩ | ⟨hforce, -⟩
    · obtain ⟨hsize, rfl⟩ := hslot address page size permissions hcall
      exact ⟨hsize, List.mem_cons_self⟩
    · obtain ⟨hsize, hmem⟩ := h.mapped address page size hforce
      exact ⟨hsize, List.mem_cons_of_mem _ hmem⟩
  standing hfresh other hother hanchor := by
    rcases List.mem_cons.mp hother with rfl | hother
    · exact since_concat.mpr (.inl htakes)
    · refine since_concat.mpr
        (.inr ⟨h.standing (unrepeated_of_concat hfresh) other hother hanchor, ?_⟩)
      rw [Call.gives_of_takes htakes]
      exact nofun
  apart hfresh := by
    have hrest := h.apart (unrepeated_of_concat hfresh)
    by_cases hanchor : item.isAnchor = true
    · rw [List.filter_cons_of_pos hanchor]
      refine List.nodup_cons.mpr ⟨?_, hrest⟩
      exact fun hmem => hnew hfresh hanchor (List.mem_of_mem_filter hmem)
    · rwa [List.filter_cons_of_neg hanchor]

/-- A page that is handed out is not among the items, if it was not out. -/
theorem page_not_mem {page : Nat} (h : OnLoan items calls)
    (hfresh : Unrepeated (calls ++ [.allocPage (some page)])) : .page page ∉ items := fun hmem =>
  hfresh calls page (List.prefix_refl _) (h.standing (unrepeated_of_concat hfresh) _ hmem rfl)

/-- **A call that gives an item back removes it.** -/
theorem give (h : OnLoan (item :: items) calls) (hgives : call.gives = some item.loan) :
    OnLoan items (calls ++ [call]) where
  balanced loan := by
    have hbalanced := h.balanced loan
    rw [List.map_cons, List.count_cons] at hbalanced
    rw [taken_concat, given_concat, hgives, Call.takes_of_gives hgives, hbalanced]
    simp only [Option.some.injEq, beq_iff_eq, reduceCtorEq, ↓reduceIte, Nat.add_zero]
    omega
  mapped address page size hforce := by
    rcases since_concat.mp hforce with ⟨permissions, rfl⟩ | ⟨hforce, hlast⟩
    · cases hgives
    · obtain ⟨rfl, hmem⟩ := h.mapped address page size hforce
      refine ⟨rfl, (List.mem_cons.mp hmem).resolve_left ?_⟩
      rintro rfl
      exact hlast hgives
  standing hfresh other hother hanchor := by
    have hfresh' := unrepeated_of_concat hfresh
    have hstanding := h.standing hfresh' other (List.mem_cons_of_mem _ hother) hanchor
    refine since_concat.mpr (.inr ⟨hstanding, fun hsame => ?_⟩)
    -- the item given back would be there twice
    obtain rfl := Item.eq_of_loan_eq hanchor (Option.some.inj (hgives.symm.trans hsame))
    have hapart := h.apart hfresh'
    rw [List.filter_cons_of_pos hanchor] at hapart
    exact (List.nodup_cons.mp hapart).1 (List.mem_filter.mpr ⟨hother, hanchor⟩)
  apart hfresh := (h.apart (unrepeated_of_concat hfresh)).sublist
    ((List.sublist_cons_self item items).filter _)

/-- **What is mapped is guarded**, if every slot rests on something. -/
theorem guarded (h : OnLoan items calls) (hbacked : Item.Backed items) (hfresh : Unrepeated calls) :
    Guarded calls := by
  intro address page size hforce
  obtain ⟨rfl, hslot⟩ := h.mapped address page size hforce
  obtain ⟨hpage, range, hrange, hbase, hlimit⟩ := hbacked address page hslot
  exact ⟨h.standing hfresh _ hpage rfl, range, h.standing hfresh _ hrange rfl, hbase, hlimit⟩

end OnLoan

/-! ## Operations under way -/

/-- An operation that began after the calls `start` has items of its own on loan, beside those that
it leaves alone. -/
structure Ledger (start : List Call) (kept own : List Item) (calls : List Call) : Prop where
  began : start <+: calls
  onLoan : OnLoan (own ++ kept) calls
  backed : Item.Backed kept
  /-- Nothing was ever given back that was not out. -/
  solvent : ∀ before, before <+: calls → ∀ loan, given before loan ≤ taken before loan
  /-- What is kept has been out all along. -/
  held : ∀ before, start <+: before → before <+: calls →
    ∀ loan, given before loan + (kept.map Item.loan).count loan ≤ taken before loan
  guarded : Unrepeated calls → ∀ before, before <+: calls → Guarded before

namespace Ledger

variable {start calls : List Call} {call : Call} {kept own others : List Item}

theorem nil : Ledger [] [] [] [] where
  began := List.prefix_refl _
  onLoan := .nil
  backed := Item.backed_of_slots_eq_nil rfl
  solvent before hbefore loan := by
    obtain rfl := List.prefix_nil.mp hbefore
    exact Nat.le_refl _
  held before _ hbefore loan := by
    obtain rfl := List.prefix_nil.mp hbefore
    exact Nat.le_refl _
  guarded _ before hbefore address page size hforce := by
    obtain rfl := List.prefix_nil.mp hbefore
    exact absurd hforce not_since_nil

/-- The order of the items does not matter. -/
theorem perm (h : Ledger start kept own calls) (hperm : own.Perm others) :
    Ledger start kept others calls :=
  { h with onLoan := h.onLoan.perm (hperm.append_right kept) }

/-- What is kept is out at the present moment. -/
theorem held_le {items : List Item} (h : OnLoan (own ++ items) calls) (loan : Loan) :
    given calls loan + (items.map Item.loan).count loan ≤ taken calls loan := by
  rw [h.balanced, List.map_append, List.count_append]
  omega

/-- **One more call** keeps the ledger if what is then on loan is accounted for. -/
theorem step (h : Ledger start kept own calls) (hafter : OnLoan (others ++ kept) (calls ++ [call]))
    (hbacked : Item.Backed others) : Ledger start kept others (calls ++ [call]) where
  began := h.began.trans (List.prefix_append _ _)
  onLoan := hafter
  backed := h.backed
  solvent before hbefore loan := by
    rcases List.prefix_concat_iff.mp hbefore with rfl | hbefore
    · exact Nat.le_trans (Nat.le_add_right _ _) (held_le hafter loan)
    · exact h.solvent before hbefore loan
  held before hstart hbefore loan := by
    rcases List.prefix_concat_iff.mp hbefore with rfl | hbefore
    · exact held_le hafter loan
    · exact h.held before hstart hbefore loan
  guarded hfresh before hbefore := by
    rcases List.prefix_concat_iff.mp hbefore with rfl | hbefore
    · exact hafter.guarded (hbacked.append h.backed) hfresh
    · exact h.guarded (OnLoan.unrepeated_of_concat hfresh) before hbefore

/-- **Another operation begins** with the items sorted anew. -/
theorem restart {own' kept' : List Item} (h : Ledger start kept own calls)
    (hperm : (own ++ kept).Perm (own' ++ kept')) (hbacked : Item.Backed kept') :
    Ledger calls kept' own' calls where
  began := List.prefix_refl _
  onLoan := h.onLoan.perm hperm
  backed := hbacked
  solvent := h.solvent
  held before hstart hbefore loan := by
    obtain rfl := hstart.eq_of_length_le hbefore.length_le
    exact held_le (h.onLoan.perm hperm) loan
  guarded := h.guarded

end Ledger
end InstanceMemory
