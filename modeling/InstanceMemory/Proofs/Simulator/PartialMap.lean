import InstanceMemory.Proofs.RangeSpace.Covering
import InstanceMemory.Proofs.Simulator.Translation

/-!
# The translation table as a partial function

A table translates some device addresses and leaves the others alone, whatever was put into it. To map a
run of pages **extends** this partial function by the run, or changes nothing of it; to take a run back
**restricts** it to the addresses outside the run (`Translation.map_update`).

Three loops go over the pages of a run: the first looks for a page that is mapped already, the second
maps them, the third takes them back. Each is settled by what it leaves behind, page by page
(`anyMapped_eq`, `mapFrom_eq`, `unmapFrom_eq`). From that follow the outcomes of a mapping, each with
its exact condition (`Mapping`), and that taking a new run back leaves the very table of before.

A run may go up to the last page of the address space but one. Taking back the last page faults after it
has been taken back, because the page behind it has no address.
-/

set_option autoImplicit false

namespace InstanceMemory.Simulator.Translation

variable {t t' : Translation} {table : Std.ExtTreeMap Nat Nat} {range : AddressRange}
  {address physical size pages index page unmapped a : Nat} {permissions : Permissions}

/-- Whether a device address is mapped. -/
def maps (t : Translation) (address : Nat) : Bool := t.table.contains (pageOf address)

/-- What is not mapped is not translated. -/
theorem maps_eq_false_iff : t.maps a = false ↔ t.translate a = .ok none := by
  unfold maps translate
  rw [Std.ExtTreeMap.contains_eq_isSome_getElem?]
  cases t.table[pageOf a]? with
  | none => simp only [Option.isSome_none]
  | some target =>
    simp only [Option.isSome_some, Bool.true_eq_false, false_iff]
    intro hnone
    obtain ⟨sum, -, hsome⟩ := bind_eq_ok.mp hnone
    cases hsome

/-- An address is translated as its page is. -/
theorem translate_congr (h : t'.table[pageOf a]? = t.table[pageOf a]?) :
    t'.translate a = t.translate a := by
  rw [translate, translate, h]

/-! ## Pages of a run -/

/-- The address is that of one of some pages from a first one on. -/
def IsPageOf (first pages a : Nat) : Prop :=
  a % pageSize = 0 ∧ first ≤ a ∧ a < first + pages * pageSize

instance (first pages a : Nat) : Decidable (IsPageOf first pages a) :=
  inferInstanceAs (Decidable (_ ∧ _))

/-- The first page of a run, and the others. -/
theorem isPageOf_succ (hpage : page % pageSize = 0) :
    IsPageOf page (pages + 1) a ↔ a = page ∨ IsPageOf (page + pageSize) pages a := by
  unfold IsPageOf
  rw [Nat.succ_mul]
  unfold pageSize at *
  omega

/-- What is there for the pages of a run is there for the first, and for the others. -/
theorem ite_isPageOf_succ {α : Type} (hpage : page % pageSize = 0) (x y : α) :
    (if IsPageOf page (pages + 1) a then x else y) =
      if IsPageOf (page + pageSize) pages a then x else if page = a then x else y := by
  simp only [isPageOf_succ hpage, eq_comm (a := a)]
  by_cases hlater : IsPageOf (page + pageSize) pages a
  · rw [if_pos hlater, if_pos (.inr hlater)]
  · simp only [hlater, or_false, ↓reduceIte]

theorem not_isPageOf_zero : ¬ IsPageOf page 0 a := by
  rintro ⟨-, hle, hlt⟩
  omega

theorem not_isPageOf_next : ¬ IsPageOf (page + pageSize) pages page := by
  rintro ⟨-, hle, -⟩
  unfold pageSize at hle
  omega

/-- An address lies in a run of whole pages if its page is one of them. -/
theorem holds_iff_isPageOf (hbase : pageSize ∣ range.base) (hlength : pageSize ∣ range.length) :
    range.Holds a ↔ IsPageOf range.base (range.length / pageSize) (pageOf a) := by
  unfold AddressRange.Holds AddressRange.limit IsPageOf pageOf
  rw [Nat.div_mul_cancel hlength]
  unfold pageSize at *
  omega

/-- The pages of a run as a list. -/
theorem mem_pages_iff (hpage : page % pageSize = 0) :
    a ∈ List.range' page pages pageSize ↔ IsPageOf page pages a := by
  rw [List.mem_range']
  unfold IsPageOf pageSize at *
  constructor
  · rintro ⟨k, hk, rfl⟩
    omega
  · rintro ⟨ha, hle, hlt⟩
    exact ⟨(a - page) / 0x1000, by omega, by omega⟩

/-! ## The three loops -/

/-- **The first loop** tells whether a page of the run is mapped. -/
theorem anyMapped_eq (table : Std.ExtTreeMap Nat Nat)
    (hlimit : address + (index + pages) * pageSize ≤ addressLimit) :
    anyMapped table address pages index =
      .ok ((List.range' (address + index * pageSize) pages pageSize).any table.contains) := by
  induction pages generalizing index with
  | zero => rfl
  | succ pages ih =>
    have hpage : address + index * pageSize < addressLimit := by
      unfold pageSize at *
      omega
    have hsucc : index + 1 + pages = index + (pages + 1) := by omega
    have hnext : address + (index + 1) * pageSize = address + index * pageSize + pageSize := by
      rw [Nat.succ_mul, Nat.add_assoc]
    have hrest := @ih (index + 1) (hsucc ▸ hlimit)
    rw [anyMapped, checkedAdd_of_lt hpage, ok_bind, List.range'_succ, List.any_cons, ← hnext, hrest]
    cases table.contains (address + index * pageSize) <;> rfl

/-- **The second loop** maps each page of the run to its own target. -/
theorem mapFrom_eq (haddress : address % pageSize = 0) (table : Std.ExtTreeMap Nat Nat)
    (hlimit : address + (index + pages) * pageSize ≤ addressLimit)
    (hphysical : physical + (index + pages) * pageSize ≤ addressLimit) :
    ∃ table', mapFrom address physical pages index table = .ok () table' ∧
      ∀ a, table'[a]? = if IsPageOf (address + index * pageSize) pages a
        then some (physical + (a - address)) else table[a]? := by
  induction pages generalizing index table with
  | zero => exact ⟨table, rfl, fun a => (if_neg not_isPageOf_zero).symm⟩
  | succ pages ih =>
    have hbounds : address + index * pageSize < addressLimit ∧
        physical + index * pageSize < addressLimit := by
      unfold pageSize at *
      omega
    have hsucc : index + 1 + pages = index + (pages + 1) := by omega
    have hnext : address + (index + 1) * pageSize = address + index * pageSize + pageSize := by
      rw [Nat.succ_mul, Nat.add_assoc]
    have hpage : (address + index * pageSize) % pageSize = 0 := by
      rw [Nat.add_mul_mod_self_right, haddress]
    obtain ⟨table', hrest, hlookup⟩ := @ih (index + 1)
      (table.insert (address + index * pageSize) (physical + index * pageSize))
      (hsucc ▸ hlimit) (hsucc ▸ hphysical)
    refine ⟨table', ?_, fun a => ?_⟩
    · unfold mapFrom
      rw [run_bind_of_ok (run_lift_of_ok (checkedAdd_of_lt hbounds.1) table),
        run_bind_of_ok (run_lift_of_ok (checkedAdd_of_lt hbounds.2) table), run_modify_bind]
      exact hrest
    · rw [hlookup, hnext, ite_isPageOf_succ hpage]
      simp only [Std.ExtTreeMap.getElem?_insert, Nat.compare_eq_eq]
      by_cases hfirst : address + index * pageSize = a
      · rw [if_pos hfirst, if_pos hfirst, ← hfirst, Nat.add_sub_cancel_left]
      · rw [if_neg hfirst, if_neg hfirst]

/-- **The third loop** leaves no page of the run mapped, and counts those that were. -/
theorem unmapFrom_eq (hpage : page % pageSize = 0) (table : Std.ExtTreeMap Nat Nat)
    (hlimit : page + pages * pageSize < addressLimit) :
    ∃ table', unmapFrom pages page unmapped table =
        .ok (unmapped + pageSize * (List.range' page pages pageSize).countP table.contains) table' ∧
      ∀ a, table'[a]? = if IsPageOf page pages a then none else table[a]? := by
  induction pages generalizing page unmapped table with
  | zero => exact ⟨table, rfl, fun a => (if_neg not_isPageOf_zero).symm⟩
  | succ pages ih =>
    rw [Nat.succ_mul] at hlimit
    have hnext : page + pageSize < addressLimit := by omega
    have hpage' : (page + pageSize) % pageSize = 0 := by rwa [Nat.add_mod_right]
    obtain ⟨table', hrest, hlookup⟩ := @ih (page + pageSize)
      (if table.contains page then unmapped + pageSize else unmapped) hpage' (table.erase page)
      (by omega)
    refine ⟨table', ?_, fun a => ?_⟩
    · -- the pages behind are mapped as they were before the first was taken back
      have hcount : (List.range' (page + pageSize) pages pageSize).countP
          (table.erase page).contains =
          (List.range' (page + pageSize) pages pageSize).countP table.contains := by
        refine List.countP_congr fun b hb => ?_
        have hne : page ≠ b := by
          rintro rfl
          exact not_isPageOf_next ((mem_pages_iff hpage').mp hb)
        have hcompare : (compare page b != .eq) = true := by
          rwa [bne_iff_ne, ne_eq, Nat.compare_eq_eq]
        rw [Std.ExtTreeMap.contains_erase, hcompare, Bool.true_and]
      have hsum : ∀ n, (if table.contains page then unmapped + pageSize else unmapped) +
          pageSize * n = unmapped + pageSize * (n + if table.contains page then 1 else 0) := by
        intro n
        split
        · rw [Nat.mul_succ, Nat.add_assoc, Nat.add_comm pageSize]
        · rfl
      unfold unmapFrom
      rw [run_get_bind, run_modify_bind, run_bind_of_ok (run_lift_of_ok (checkedAdd_of_lt hnext) _),
        hrest, hcount, hsum, List.range'_succ, List.countP_cons]
    · rw [hlookup, ite_isPageOf_succ hpage]
      simp only [Std.ExtTreeMap.getElem?_erase, Nat.compare_eq_eq]

/-! ## Runs of whole pages -/

/-- Another table translates a run of device addresses to a run of physical ones, and the others as
before. -/
structure Extends (t : Translation) (range : AddressRange) (physical : Nat) (t' : Translation) :
    Prop where
  inside : ∀ a, range.Holds a → t'.translate a = .ok (some (physical + (a - range.base)))
  outside : ∀ a, ¬ range.Holds a → t'.translate a = t.translate a

/-- Another table translates nothing of a run of device addresses, and the others as before. -/
structure Restricts (t : Translation) (range : AddressRange) (t' : Translation) : Prop where
  inside : ∀ a, range.Holds a → t'.translate a = .ok none
  outside : ∀ a, ¬ range.Holds a → t'.translate a = t.translate a

/-- How many pages of a run are mapped. -/
def mappedPagesIn (t : Translation) (range : AddressRange) : Nat :=
  (List.range' range.base (range.length / pageSize) pageSize).countP t.maps

/-- The outcomes of mapping a run of whole pages. -/
inductive Mapping (t : Translation) (range : AddressRange) (physical : Nat) (permissions : Permissions) :
    Except MappingRefusal Unit → Translation → Prop
  | invalid : range.length = 0 ∨ permissions.isEmpty = true →
    Mapping t range physical permissions (.error .invalid) t
  | noMemory : 0 < range.length → permissions.isEmpty = false → t.budget.spend? = none →
    Mapping t range physical permissions (.error .noMemory) t
  | alreadyMapped {budget : Budget} {a : Nat} : 0 < range.length → permissions.isEmpty = false →
    t.budget.spend? = some budget → range.Holds a → t.maps a = true →
    Mapping t range physical permissions (.error .alreadyMapped) ⟨t.table, budget⟩
  | mapped {budget : Budget} {table : Std.ExtTreeMap Nat Nat} : 0 < range.length →
    permissions.isEmpty = false → t.budget.spend? = some budget →
    (∀ a, range.Holds a → t.maps a = false) →
    (∀ a, table[a]? = if IsPageOf range.base (range.length / pageSize) a
      then some (physical + (a - range.base)) else t.table[a]?) →
    Mapping t range physical permissions (.ok ()) ⟨table, budget⟩

/-- What comes of mapping a run: it is mapped exactly if it is not empty, something is permitted, the
budget allows it and none of its addresses is mapped; else the table stays as it is. -/
structure MapsRun (t : Translation) (range : AddressRange) (physical : Nat) (permissions : Permissions)
    (answer : Except MappingRefusal Unit) (t' : Translation) : Prop where
  granted_iff : answer = .ok () ↔ 0 < range.length ∧ permissions.isEmpty = false ∧
    t.budget.spend?.isSome = true ∧ ∀ a, range.Holds a → t.translate a = .ok none
  refused : ∀ cause, answer = .error cause → t'.table = t.table
  extended : answer = .ok () → t.Extends range physical t'
  /-- Taking the run back tells its length, and leaves the very table of before. -/
  takenBack : answer = .ok () →
    ∃ t'', t'.unmap range.base range.length = .ok range.length t'' ∧ t''.table = t.table

section

variable (hbase : pageSize ∣ range.base) (hlength : pageSize ∣ range.length)

include hbase hlength

/-- Some page of a run is mapped if some address of it is. -/
theorem any_contains_iff :
    (List.range' range.base (range.length / pageSize) pageSize).any t.table.contains = true ↔
      ∃ a, range.Holds a ∧ t.maps a = true := by
  have hpage := Nat.mod_eq_zero_of_dvd hbase
  rw [List.any_eq_true]
  constructor
  · rintro ⟨a, hmem, hcontains⟩
    have ha := (mem_pages_iff hpage).mp hmem
    have hsame : pageOf a = a := pageOf_of_aligned ha.1
    refine ⟨a, (holds_iff_isPageOf hbase hlength).mpr (by rwa [hsame]), ?_⟩
    rwa [maps, hsame]
  · rintro ⟨a, ha, hmaps⟩
    exact ⟨pageOf a, (mem_pages_iff hpage).mpr ((holds_iff_isPageOf hbase hlength).mp ha), hmaps⟩

omit hlength in
/-- Pages are mapped if their addresses are. -/
theorem countP_contains : (List.range' range.base (range.length / pageSize) pageSize).countP
    t.table.contains = t.mappedPagesIn range := by
  refine List.countP_congr fun a hmem => ?_
  have ha := (mem_pages_iff (Nat.mod_eq_zero_of_dvd hbase)).mp hmem
  rw [maps, pageOf_of_aligned ha.1]

/-- **A run is mapped**, or refused for one of three causes. -/
theorem map_cases (t : Translation) (physical : Nat) (permissions : Permissions)
    (hlimit : range.limit ≤ addressLimit) (hphysical : physical + range.length ≤ addressLimit) :
    ∃ answer t', t.map range.base physical range.length permissions = .ok answer t' ∧
      Mapping t range physical permissions answer t' := by
  have hpage := Nat.mod_eq_zero_of_dvd hbase
  have hpages : (0 + range.length / pageSize) * pageSize = range.length := by
    rw [Nat.zero_add, Nat.div_mul_cancel hlength]
  have hstop : range.base + (0 + range.length / pageSize) * pageSize ≤ addressLimit := by
    rwa [hpages]
  unfold Translation.map
  by_cases hrequest : range.length = 0 ∨ permissions.isEmpty = true
  · have hinvalid : range.length = 0 ∨ range.length % pageSize ≠ 0 ∨ range.base % pageSize ≠ 0 ∨
        permissions.isEmpty = true := hrequest.imp_right fun h => .inr (.inr h)
    rw [if_pos hinvalid]
    exact ⟨_, t, rfl, .invalid hrequest⟩
  · obtain ⟨hpos, hpermits⟩ := not_or.mp hrequest
    have hvalid : ¬ (range.length = 0 ∨ range.length % pageSize ≠ 0 ∨ range.base % pageSize ≠ 0 ∨
        permissions.isEmpty = true) := by
      rintro (hempty | hparts | hstart | hnothing)
      · exact hpos hempty
      · exact hparts (Nat.mod_eq_zero_of_dvd hlength)
      · exact hstart hpage
      · exact hpermits hnothing
    rw [Bool.not_eq_true] at hpermits
    rw [if_neg hvalid, run_get_bind]
    cases hspend : t.budget.spend? with
    | none => exact ⟨_, t, rfl, .noMemory (Nat.pos_of_ne_zero hpos) hpermits hspend⟩
    | some budget =>
      have hany := anyMapped_eq t.table hstop
      rw [Nat.zero_mul, Nat.add_zero] at hany
      dsimp only
      rw [run_modify_bind, run_get_bind, run_bind_of_ok (run_lift_of_ok hany _)]
      by_cases hconflict : (List.range' range.base (range.length / pageSize) pageSize).any
          t.table.contains = true
      · obtain ⟨a, ha, hmaps⟩ := (any_contains_iff hbase hlength).mp hconflict
        rw [if_pos hconflict]
        exact ⟨_, _, rfl, .alreadyMapped (Nat.pos_of_ne_zero hpos) hpermits hspend ha hmaps⟩
      · have hfree : ∀ a, range.Holds a → t.maps a = false := by
          intro a ha
          rw [← Bool.not_eq_true]
          exact fun hmaps => hconflict ((any_contains_iff hbase hlength).mpr ⟨a, ha, hmaps⟩)
        obtain ⟨table, hmap, hlookup⟩ := @mapFrom_eq _ physical _ 0 hpage t.table hstop
          (by rwa [hpages])
        simp only [Nat.zero_mul, Nat.add_zero] at hlookup
        rw [if_neg hconflict,
          run_bind_of_ok (Maps.onTable_of_ok (t := ⟨t.table, budget⟩) hmap)]
        exact ⟨_, _, rfl, .mapped (Nat.pos_of_ne_zero hpos) hpermits hspend hfree hlookup⟩

/-- **A run is taken back**, and what was mapped of it is told. -/
theorem unmap_eq (t : Translation) (hlimit : range.limit < addressLimit) :
    ∃ table, t.unmap range.base range.length =
        .ok (pageSize * t.mappedPagesIn range) ⟨table, t.budget⟩ ∧
      ∀ a, table[a]? = if IsPageOf range.base (range.length / pageSize) a
        then none else t.table[a]? := by
  have hpage := Nat.mod_eq_zero_of_dvd hbase
  have hcount : (range.base + range.length - range.base + (pageSize - 1)) / pageSize =
      range.length / pageSize := by
    unfold pageSize at *
    omega
  have hstop : range.base + range.length / pageSize * pageSize < addressLimit := by
    rwa [Nat.div_mul_cancel hlength]
  obtain ⟨table, hunmap, hlookup⟩ := @unmapFrom_eq _ _ 0 hpage t.table hstop
  rw [Nat.zero_add, countP_contains hbase] at hunmap
  refine ⟨table, ?_, hlookup⟩
  have hsum : checkedAdd range.base range.length = .ok (range.base + range.length) :=
    checkedAdd_of_lt hlimit
  unfold Translation.unmap
  rw [run_bind_of_ok (run_lift_of_ok hsum t), pageOf_of_aligned hpage, hcount]
  exact Maps.onTable_of_ok hunmap

/-- A table that maps the pages of a run to a run of physical addresses extends the table by it. -/
theorem extends_of_lookup (hphysical : physical + range.length ≤ addressLimit)
    (hlookup : ∀ a, t'.table[a]? = if IsPageOf range.base (range.length / pageSize) a
      then some (physical + (a - range.base)) else t.table[a]?) : t.Extends range physical t' where
  inside a ha := by
    have hslot := hlookup (pageOf a)
    rw [if_pos ((holds_iff_isPageOf hbase hlength).mp ha)] at hslot
    have hsum : physical + (pageOf a - range.base) + a % pageSize = physical + (a - range.base) := by
      have hle : range.base ≤ pageOf a := ((holds_iff_isPageOf hbase hlength).mp ha).2.1
      unfold pageOf pageSize at *
      omega
    have hlt : physical + (a - range.base) < addressLimit := by
      have hbefore := ha.2
      have hle := ha.1
      unfold AddressRange.limit at hbefore
      omega
    rw [translate, hslot]
    dsimp only
    rw [checkedAdd_of_lt (hsum ▸ hlt), hsum]
    rfl
  outside a ha := by
    refine translate_congr ?_
    rw [hlookup, if_neg fun hpages => ha ((holds_iff_isPageOf hbase hlength).mpr hpages)]

/-- A table without the pages of a run restricts the table to what is outside of it. -/
theorem restricts_of_lookup
    (hlookup : ∀ a, t'.table[a]? = if IsPageOf range.base (range.length / pageSize) a
      then none else t.table[a]?) : t.Restricts range t' where
  inside a ha := by
    have hslot := hlookup (pageOf a)
    rw [if_pos ((holds_iff_isPageOf hbase hlength).mp ha)] at hslot
    rw [translate, hslot]
  outside a ha := by
    refine translate_congr ?_
    rw [hlookup, if_neg fun hpages => ha ((holds_iff_isPageOf hbase hlength).mpr hpages)]

/-- **What was mapped anew is taken back without a trace.** -/
theorem unmap_of_lookup (hlimit : range.limit < addressLimit)
    (hfree : ∀ a, range.Holds a → t.maps a = false)
    (hlookup : ∀ a, t'.table[a]? = if IsPageOf range.base (range.length / pageSize) a
      then some (physical + (a - range.base)) else t.table[a]?) :
    ∃ t'', t'.unmap range.base range.length = .ok range.length t'' ∧ t''.table = t.table := by
  have hpage := Nat.mod_eq_zero_of_dvd hbase
  have hall : pageSize * t'.mappedPagesIn range = range.length := by
    have hmapped : ∀ a ∈ List.range' range.base (range.length / pageSize) pageSize,
        t'.maps a = true := by
      intro a hmem
      have ha := (mem_pages_iff hpage).mp hmem
      rw [maps, pageOf_of_aligned ha.1, Std.ExtTreeMap.contains_eq_isSome_getElem?, hlookup,
        if_pos ha, Option.isSome_some]
    rw [mappedPagesIn, List.countP_eq_length.mpr hmapped, List.length_range',
      Nat.mul_div_cancel' hlength]
  obtain ⟨table, hunmap, hback⟩ := unmap_eq hbase hlength t' hlimit
  rw [hall] at hunmap
  refine ⟨_, hunmap, Std.ExtTreeMap.ext_getElem? fun a => ?_⟩
  rw [hback]
  by_cases ha : IsPageOf range.base (range.length / pageSize) a
  · have hnone := hfree a ((holds_iff_isPageOf hbase hlength).mpr (by rwa [pageOf_of_aligned ha.1]))
    rw [maps, pageOf_of_aligned ha.1, Std.ExtTreeMap.contains_eq_isSome_getElem?,
      Option.isSome_eq_false_iff, Option.isNone_iff_eq_none] at hnone
    rw [if_pos ha, hnone]
  · rw [if_neg ha, hlookup, if_neg ha]

/-- **The outcomes of mapping a run**, as conditions on the answer. -/
theorem Mapping.mapsRun {answer : Except MappingRefusal Unit}
    (h : Mapping t range physical permissions answer t') (hlimit : range.limit < addressLimit)
    (hphysical : physical + range.length ≤ addressLimit) :
    t.MapsRun range physical permissions answer t' := by
  cases h with
  | invalid hrequest =>
    refine ⟨⟨nofun, fun ⟨hpos, hpermits, _⟩ => ?_⟩, fun _ _ => rfl, nofun, nofun⟩
    rcases hrequest with hempty | hempty
    · exact absurd hempty (Nat.ne_of_gt hpos)
    · exact absurd (hpermits.symm.trans hempty) Bool.false_ne_true
  | noMemory hpos hpermits hspend =>
    refine ⟨⟨nofun, fun ⟨_, _, hbudget, _⟩ => ?_⟩, fun _ _ => rfl, nofun, nofun⟩
    rw [hspend] at hbudget
    cases hbudget
  | alreadyMapped hpos hpermits hspend ha hmaps =>
    refine ⟨⟨nofun, fun ⟨_, _, _, hfree⟩ => ?_⟩, fun _ _ => rfl, nofun, nofun⟩
    rw [maps_eq_false_iff.mpr (hfree _ ha)] at hmaps
    cases hmaps
  | mapped hpos hpermits hspend hfree hlookup =>
    have hbudget : t.budget.spend?.isSome = true := by rw [hspend, Option.isSome_some]
    exact ⟨⟨fun _ => ⟨hpos, hpermits, hbudget, fun a ha => maps_eq_false_iff.mp (hfree a ha)⟩,
        fun _ => rfl⟩, nofun, fun _ => extends_of_lookup hbase hlength hphysical hlookup,
      fun _ => unmap_of_lookup hbase hlength hlimit hfree hlookup⟩

/-- **To map a run is to extend the table by it, and to take it back is to restrict the table.** This
holds of every table and budget, for a run of whole pages that ends at the last page or before. -/
theorem map_update (t : Translation) (permissions : Permissions)
    (hlimit : range.limit ≤ addressLimit - pageSize)
    (hphysical : physical + range.length ≤ addressLimit) :
    (∃ answer t', t.map range.base physical range.length permissions = .ok answer t' ∧
      t.MapsRun range physical permissions answer t') ∧
    ∃ t', t.unmap range.base range.length = .ok (pageSize * t.mappedPagesIn range) t' ∧
      t.Restricts range t' := by
  have hlt : range.limit < addressLimit := Nat.lt_of_le_of_lt hlimit (by decide)
  constructor
  · obtain ⟨answer, t', hmap, hmapping⟩ :=
      map_cases hbase hlength t physical permissions (Nat.le_of_lt hlt) hphysical
    exact ⟨answer, t', hmap, hmapping.mapsRun hbase hlength hlt hphysical⟩
  · obtain ⟨table, hunmap, hlookup⟩ := unmap_eq hbase hlength t hlt
    exact ⟨_, hunmap, restricts_of_lookup hbase hlength hlookup⟩

end

/-- The two pages behind the only one of a table are mapped, up to the last page of the address space and
to the last two physical pages; what is taken back instead begins with the page that was there. -/
theorem map_update_below_last_page :
    let t : Translation := ⟨(∅ : Std.ExtTreeMap Nat Nat).insert 0xffffffffffffc000 0x10000000, some 1⟩
    let range : AddressRange := ⟨0xffffffffffffd000, 0x2000⟩
    let wider : AddressRange := ⟨0xffffffffffffc000, 0x3000⟩
    range.limit = addressLimit - pageSize ∧ 0xffffffffffffe000 + range.length = addressLimit ∧
      (∃ t', t.map range.base 0xffffffffffffe000 range.length .readWrite = .ok (.ok ()) t' ∧
        t.MapsRun range 0xffffffffffffe000 .readWrite (.ok ()) t') ∧
      t.mappedPagesIn wider = 1 ∧
      ∃ t', t.unmap wider.base wider.length = .ok (pageSize * t.mappedPagesIn wider) t' ∧
        t.Restricts wider t' := by
  intro t range wider
  -- the run begins behind the only page of the table
  have hfree : ∀ a, range.Holds a → t.translate a = .ok none := by
    rintro a ⟨hbehind, -⟩
    have hne : 0xffffffffffffc000 ≠ pageOf a := by
      have hle : 0xffffffffffffd000 ≤ a := hbehind
      unfold pageOf pageSize
      omega
    refine maps_eq_false_iff.mp ?_
    rw [maps, Std.ExtTreeMap.contains_insert, Std.ExtTreeMap.contains_empty, Bool.or_false,
      beq_eq_false_iff_ne, ne_eq, Nat.compare_eq_eq]
    exact hne
  obtain ⟨⟨answer, t', hmap, hruns⟩, -⟩ := @map_update range
    0xffffffffffffe000 (by decide) (by decide) t .readWrite (by decide) (by decide)
  obtain rfl : answer = .ok () := hruns.granted_iff.mpr ⟨by decide, rfl, rfl, hfree⟩
  obtain ⟨-, hunmap⟩ := @map_update wider 0 (by decide) (by decide) t
    .readWrite (by decide) (by decide)
  exact ⟨by decide, by decide, ⟨t', hmap, hruns⟩, by decide +kernel, hunmap⟩

end InstanceMemory.Simulator.Translation
