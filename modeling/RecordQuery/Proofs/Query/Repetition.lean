import RecordQuery.Proofs.Query.Paging
import RecordQuery.Proofs.Sorting.Preorder

/-!
Queries over what queries select. The rows that a sort text puts in order are those that a filter leaves, whichever of
the two is applied first. A query that passes no rows over finds, in the records that it has selected, every one of them
again, in the same order: all of them pass the filter, they are sorted, and they are no more than it takes.
-/
namespace RecordQuery

variable {ρ : Type}

theorem Row.map_record_ofList (records : List ρ) : (Row.ofList records).map Row.record = records := by
  apply List.ext_getElem
  · simp [ofList]
  · intro i h h'
    simp [ofList]

namespace Engine

variable (e : Engine ρ) {filter orderBy : Option String} {test : Filter.Predicate ρ} {comparator : Sorting.Comparator ρ}

/-- A list of records that pass a test and are in order is what the query selects from it. -/
theorem matching_eq_self {records : List ρ} (htest : ∀ record ∈ records, test record = true)
    (hsorted : records.Pairwise fun a b => (comparator a b).isLE = true) :
    matching records test comparator = Row.ofList records := by
  rw [← Row.map_record_ofList records] at htest hsorted
  have hkept : (Row.ofList records).filter (fun row => test row.record) = Row.ofList records :=
    List.filter_eq_self.mpr (List.forall_mem_map.mp htest)
  rw [matching, hkept]
  exact List.mergeSort_of_pairwise (List.pairwise_map.mp hsorted)

/-- So it is with any part of what the query has selected before. -/
theorem matching_of_sublist [Std.TransCmp comparator] {records : List ρ} {rows : List (Row ρ)}
    (h : rows.Sublist (matching records test comparator)) :
    matching (rows.map Row.record) test comparator = Row.ofList (rows.map Row.record) := by
  have hsorted : rows.Pairwise fun a b => (comparator a.record b.record).isLE = true :=
    ((comparator.on Row.record).pairwise_sort _).sublist h
  refine matching_eq_self (List.forall_mem_map.mpr fun row hrow => ?_) (List.pairwise_map.mpr hsorted)
  exact (((listing_matching records test comparator).mem_iff row).mp (h.subset hrow)).2

/-- Filter and sort text can be applied in either order. And a query that passes nothing over selects from the records
that it has selected all of them, as they stand. -/
theorem keep_sort_run_again (h : e.validate filter orderBy = .ok ()) :
    (∀ rows, ∃ selected, (e.keep filter rows).bind (e.sort orderBy) = .ok selected ∧
      (e.sort orderBy rows).bind (e.keep filter) = .ok selected) ∧
    ∀ records skip take, skip = none ∨ skip = some 0 →
      ∃ rows, e.run ⟨filter, orderBy, skip, take⟩ records = .ok rows ∧
        e.run ⟨filter, orderBy, skip, take⟩ (rows.map Row.record) = .ok (Row.ofList (rows.map Row.record)) := by
  obtain ⟨test, comparator, htest, horder⟩ := e.exists_of_validate h
  have htrans := e.transCmp_of_orderOf horder
  constructor
  · intro rows
    refine ⟨(comparator.on Row.record).sort (rows.filter fun row => test row.record), ?_, ?_⟩
    · rw [e.keep_of_testOf htest]
      exact e.sort_of_orderOf horder _
    · rw [e.sort_of_orderOf horder, Sorting.Comparator.sort_filter]
      exact e.keep_of_testOf htest _
  · intro records skip take hskip
    have hrun : ∀ records, e.run ⟨filter, orderBy, skip, take⟩ records =
        .ok ((matching records test comparator).take (take.getD e.config.defaultTake)) := by
      intro records
      rw [e.run_eq_page htest horder]
      rcases hskip with rfl | rfl <;> rfl
    refine ⟨_, hrun records, ?_⟩
    rw [hrun, matching_of_sublist (List.take_sublist _ _), List.take_of_length_le]
    simp [Row.ofList]

/-- The first two of three words that match, the last word in the alphabet first. -/
theorem keep_sort_run_again_words :
    let words : Engine String := ⟨⟨[("Text", .scalar .string id)]⟩, .default⟩
    let filter := some "Text contains 'a'"
    let orderBy := some "Text desc"
    let run := words.run ⟨filter, orderBy, none, some 2⟩
    words.validate filter orderBy = .ok () ∧
      (∃ selected, (words.keep filter [⟨0, "ab"⟩, ⟨1, "c"⟩, ⟨2, "ba"⟩]).bind (words.sort orderBy) = .ok selected ∧
        (words.sort orderBy [⟨0, "ab"⟩, ⟨1, "c"⟩, ⟨2, "ba"⟩]).bind (words.keep filter) = .ok selected) ∧
      ∃ rows, run ["ab", "c", "ba", "ab"] = .ok rows ∧ rows.map Row.record = ["ba", "ab"] ∧
        run (rows.map Row.record) = .ok [⟨0, "ba"⟩, ⟨1, "ab"⟩] := by
  intro words filter orderBy run
  have hvalid : words.validate filter orderBy = .ok () := by decide +kernel
  obtain ⟨hswap, hagain⟩ := words.keep_sort_run_again hvalid
  obtain ⟨rows, hrows, hrun⟩ := hagain ["ab", "c", "ba", "ab"] none (some 2) (.inl rfl)
  have hscan : Filter.scan "Text contains 'a'" =
      .ok [⟨⟨none, none⟩, .clause ⟨"Text", "contains", .literal "a"⟩⟩] := by decide +kernel
  have hkeys : Sorting.keys "Text desc" = .ok [⟨"Text", .desc⟩] := by decide +kernel
  have htest : words.testOf filter = .ok fun text => Filter.occursIn ['a'] text.toList :=
    Filter.compileAt_eq_compileRow hscan
  have horder : words.orderOf orderBy = .ok fun a b => (compare a b).swap := Sorting.compile_of_keys hkeys
  have hrecords : rows.map Row.record = ["ba", "ab"] := by
    rw [words.run_eq_page htest horder] at hrows
    obtain rfl := Except.ok.inj hrows
    cbv
  refine ⟨hvalid, hswap _, rows, hrows, hrecords, ?_⟩
  rw [hrecords] at hrun ⊢
  exact hrun

end Engine

end RecordQuery
