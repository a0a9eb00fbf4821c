import RecordQuery.Proofs.Filter.Batch
import RecordQuery.Proofs.Query.Steps

/-!
Paging through a selection. The records that match stand in one list, and its order leaves no choice: that of the
comparator, and among equals that of the input. Every request makes the list anew and cuts a page out of it. So pages of
one size, read one behind another, make up the list, and a page with any numbers is the stretch of it that they name.
-/
namespace RecordQuery

variable {ρ : Type} {records : List ρ} {test : Filter.Predicate ρ} {comparator : Sorting.Comparator ρ}

/-! ## The list of a query -/

/-- All records that pass a test, in the strict order of a comparator and then of the input, so that none stands there
twice. -/
structure Listing (records : List ρ) (test : Filter.Predicate ρ) (comparator : Sorting.Comparator ρ)
    (rows : List (Row ρ)) : Prop where
  ordered : rows.Pairwise fun a b => lexOrder [comparator] a b = .lt
  mem_iff : ∀ row, row ∈ rows ↔ records[row.position]? = some row.record ∧ test row.record = true

theorem Selection.listing {rows : List (Row ρ)} (h : Selection records [test] [comparator] True rows) :
    Listing records test comparator rows where
  ordered := h.ordered
  mem_iff row := by
    constructor
    · intro hrow
      exact ⟨h.given row hrow, h.passed row hrow test List.mem_cons_self⟩
    · intro hrow
      refine h.full trivial row (Row.mem_ofList.mpr hrow.1) fun t ht => ?_
      obtain rfl := List.mem_singleton.mp ht
      exact hrow.2

theorem transCmp_lexOrder {comparators : List (Sorting.Comparator ρ)} (h : ∀ c ∈ comparators, Std.TransCmp c) :
    Std.TransCmp (lexOrder comparators) := by
  induction comparators with
  | nil => exact Sorting.transCmp_by compare Row.position
  | cons c earlier ih =>
    have hc := h c List.mem_cons_self
    have hearlier := ih fun d hd => h d (List.mem_cons_of_mem c hd)
    exact inferInstanceAs (Std.TransCmp (compareLex (c.on Row.record) (lexOrder earlier)))

namespace Listing

variable [Std.TransCmp comparator] {rows rows' : List (Row ρ)}

theorem nodup (h : Listing records test comparator rows) : rows.Nodup := by
  have htrans : Std.TransCmp (lexOrder [comparator]) := transCmp_lexOrder (by simpa)
  refine h.ordered.imp ?_
  rintro a b hab rfl
  exact Std.OrientedCmp.not_lt_of_lt hab hab

/-- No record of the input stands in the list twice. -/
theorem distinct (h : Listing records test comparator rows) :
    rows.Pairwise fun a b => a.position ≠ b.position := by
  refine List.Pairwise.imp_of_mem ?_ h.nodup
  intro a b ha hb hne heq
  have hrecord := ((h.mem_iff a).mp ha).1
  rw [heq, ((h.mem_iff b).mp hb).1] at hrecord
  obtain ⟨position, record⟩ := a
  obtain rfl : position = b.position := heq
  obtain rfl := Option.some.inj hrecord
  exact hne rfl

/-- A test and a comparator leave one list only. -/
theorem unique (h : Listing records test comparator rows) (h' : Listing records test comparator rows') :
    rows' = rows := by
  have htrans : Std.TransCmp (lexOrder [comparator]) := transCmp_lexOrder (by simpa)
  have hperm : rows'.Perm rows := (List.perm_ext_iff_of_nodup h'.nodup h.nodup).mpr fun row =>
    (h'.mem_iff row).trans (h.mem_iff row).symm
  refine hperm.eq_of_pairwise ?_ h'.ordered h.ordered
  intro a b _ _ hab hba
  exact absurd hba (Std.OrientedCmp.not_lt_of_lt hab)

end Listing

/-! ## Pages in a row -/

section

variable {α ε : Type}

/-- Pages of one size, each from where the one before ends, up to the first one that is short: put together they give
the items. -/
inductive ReadsPages (fetch : Nat → Except ε (List α)) (size : Nat) : Nat → List α → Prop
  | last {skip : Nat} {page : List α} : fetch skip = .ok page → page.length < size →
      ReadsPages fetch size skip page
  | next {skip : Nat} {page rest : List α} : fetch skip = .ok page → size ≤ page.length →
      ReadsPages fetch size (skip + size) rest → ReadsPages fetch size skip (page ++ rest)

variable {fetch : Nat → Except ε (List α)} {size : Nat} {items : List α}

/-- If each page is cut out of the same list, the pages give the list from where they start, and nothing else. -/
theorem ReadsPages.eq_drop (hfetch : ∀ skip, fetch skip = .ok ((items.drop skip).take size)) {skip : Nat}
    {read : List α} (h : ReadsPages fetch size skip read) : read = items.drop skip := by
  induction h with
  | last hpage hlt =>
    obtain rfl := Except.ok.inj (hpage.symm.trans (hfetch _))
    rw [List.length_take] at hlt
    exact List.take_of_length_le (by omega)
  | next hpage _ _ ih =>
    obtain rfl := Except.ok.inj (hpage.symm.trans (hfetch _))
    rw [ih, ← List.drop_drop, List.take_append_drop]

/-- The reading comes to an end, since each page that is not short leaves less of the list. -/
theorem readsPages_drop (hfetch : ∀ skip, fetch skip = .ok ((items.drop skip).take size)) (hsize : 0 < size)
    (skip : Nat) : ReadsPages fetch size skip (items.drop skip) := by
  induction hleft : items.length - skip using Nat.strongRecOn generalizing skip with
  | ind left ih =>
    subst hleft
    have hpage := hfetch skip
    by_cases hshort : (items.drop skip).length < size
    · rw [List.take_of_length_le (Nat.le_of_lt hshort)] at hpage
      exact .last hpage hshort
    · rw [List.length_drop] at hshort
      have hrest := ih (items.length - (skip + size)) (by omega) (skip + size) rfl
      rw [← List.take_append_drop size (items.drop skip), List.drop_drop]
      exact .next hpage (by simp; omega) hrest

end

/-! ## Requests for pages -/

namespace Engine

variable (e : Engine ρ) {filter orderBy : Option String}

theorem exists_of_validate (h : e.validate filter orderBy = .ok ()) :
    ∃ test comparator, e.testOf filter = .ok test ∧ e.orderOf orderBy = .ok comparator := by
  rw [validate_eq] at h
  obtain ⟨test, htest, h⟩ := exists_of_bind_eq_ok h
  obtain ⟨comparator, hcomparator, -⟩ := exists_of_map_eq_ok h
  exact ⟨test, comparator, htest, hcomparator⟩

theorem transCmp_of_orderOf (h : e.orderOf orderBy = .ok comparator) : Std.TransCmp comparator := by
  unfold orderOf at h
  split at h
  · obtain rfl := Except.ok.inj h
    exact Sorting.transCmp_by (compare : Unit → Unit → Ordering) fun _ => ()
  · exact Sorting.transCmp_of_compile h

/-- What a query selects before a page is taken. -/
def matching (records : List ρ) (test : Filter.Predicate ρ) (comparator : Sorting.Comparator ρ) : List (Row ρ) :=
  (comparator.on Row.record).sort ((Row.ofList records).filter fun row => test row.record)

theorem listing_matching (records : List ρ) (test : Filter.Predicate ρ) (comparator : Sorting.Comparator ρ)
    [Std.TransCmp comparator] : Listing records test comparator (matching records test comparator) :=
  (((Selection.ofList records).keep test).sort comparator).listing

/-- Each request cuts its page out of the list, which does not depend on the numbers of the request. -/
theorem run_eq_page (htest : e.testOf filter = .ok test) (horder : e.orderOf orderBy = .ok comparator)
    (records : List ρ) (skip take : Option Nat) : e.run ⟨filter, orderBy, skip, take⟩ records =
      .ok (((matching records test comparator).drop (skip.getD 0)).take (take.getD e.config.defaultTake)) := by
  rw [run_eq, htest, horder]
  rfl

/-- The pages of a query that can be run, of any size, put together are one list: that of all records that pass the
filter, each once, in the one order that the sort text and the input fix. And a page with any numbers holds what stands
in this list at its places, up to its end; a page without a size has the default one. -/
theorem run_pages (h : e.validate filter orderBy = .ok ()) (records : List ρ) :
    ∃ test comparator rows, e.testOf filter = .ok test ∧ e.orderOf orderBy = .ok comparator ∧
      Listing records test comparator rows ∧ rows.Pairwise (fun a b => a.position ≠ b.position) ∧
      (∀ rows', Listing records test comparator rows' → rows' = rows) ∧
      (∀ size, 0 < size → ∀ read,
        ReadsPages (fun skip => e.run ⟨filter, orderBy, some skip, some size⟩ records) size 0 read ↔
          read = rows) ∧
      ∀ skip take, ∃ page, e.run ⟨filter, orderBy, skip, take⟩ records = .ok page ∧
        ∀ i, page[i]? = if i < take.getD e.config.defaultTake then rows[skip.getD 0 + i]? else none := by
  obtain ⟨test, comparator, htest, horder⟩ := e.exists_of_validate h
  have htrans := e.transCmp_of_orderOf horder
  have hlisting := listing_matching records test comparator
  have hpage := e.run_eq_page htest horder records
  refine ⟨test, comparator, matching records test comparator, htest, horder, hlisting, hlisting.distinct,
    fun rows' => hlisting.unique, fun size hsize read => ?_, fun skip take => ⟨_, hpage skip take, fun i => ?_⟩⟩
  · have hfetch := fun skip => hpage (some skip) (some size)
    constructor
    · intro hread
      exact hread.eq_drop hfetch
    · rintro rfl
      exact readsPages_drop hfetch hsize 0
  · rw [List.getElem?_take, List.getElem?_drop]

/-- Of three records that match, two are of the same text; they stay in the order of the input, and the second page
of two is short. -/
theorem run_pages_words :
    let words : Engine String := ⟨⟨[("Text", .scalar .string id)]⟩, .default⟩
    let page := fun skip take =>
      words.run ⟨some "Text contains 'a'", some "Text desc", skip, take⟩ ["ab", "c", "ba", "ab"]
    words.validate (some "Text contains 'a'") (some "Text desc") = .ok () ∧
      (∀ read, ReadsPages (fun skip => page (some skip) (some 2)) 2 0 read ↔
        read = [⟨2, "ba"⟩, ⟨0, "ab"⟩, ⟨3, "ab"⟩]) ∧
      ∃ rows, page (some 1) none = .ok rows ∧ rows[1]? = some ⟨3, "ab"⟩ ∧ rows[2]? = none := by
  intro words page
  have hvalid : words.validate (some "Text contains 'a'") (some "Text desc") = .ok () := by decide +kernel
  have hscan : Filter.scan "Text contains 'a'" =
      .ok [⟨⟨none, none⟩, .clause ⟨"Text", "contains", .literal "a"⟩⟩] := by decide +kernel
  have hkeys : Sorting.keys "Text desc" = .ok [⟨"Text", .desc⟩] := by decide +kernel
  have htest : words.testOf (some "Text contains 'a'") = .ok fun text => Filter.occursIn ['a'] text.toList :=
    Filter.compileAt_eq_compileRow hscan
  have horder : words.orderOf (some "Text desc") = .ok fun a b => (compare a b).swap := Sorting.compile_of_keys hkeys
  obtain ⟨test, comparator, rows, htest', horder', -, -, hunique, hpages, hpage⟩ :=
    words.run_pages hvalid ["ab", "c", "ba", "ab"]
  obtain rfl := Except.ok.inj (htest.symm.trans htest')
  obtain rfl := Except.ok.inj (horder.symm.trans horder')
  have hmem : ∀ test : Filter.Predicate String, test "ab" = true → test "ba" = true → test "c" = false →
      ∀ row : Row String, row ∈ [⟨2, "ba"⟩, ⟨0, "ab"⟩, ⟨3, "ab"⟩] ↔
        ["ab", "c", "ba", "ab"][row.position]? = some row.record ∧ test row.record = true := by
    rintro test hab hba hc ⟨position, record⟩
    match position with
    | 0 | 1 | 2 | 3 => grind
    | n + 4 => simp
  have hrows : [⟨2, "ba"⟩, ⟨0, "ab"⟩, ⟨3, "ab"⟩] = rows := by
    refine hunique _ ⟨by decide +kernel, hmem (fun text => Filter.occursIn ['a'] text.toList) ?_ ?_ ?_⟩
    all_goals decide +kernel
  subst hrows
  obtain ⟨rows, hrun, hrows⟩ := hpage (some 1) none
  exact ⟨hvalid, hpages 2 (by decide), rows, hrun, hrows 1, hrows 2⟩

end Engine

end RecordQuery
