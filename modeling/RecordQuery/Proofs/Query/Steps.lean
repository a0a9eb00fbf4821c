import Mathlib.Data.List.Induction
import RecordQuery.Proofs.Query.Request
import RecordQuery.Proofs.Sorting.Order

/-!
Queries in steps. A selection starts with all records of the input, and any steps follow one another, in any
order; a step that fails leaves the selection as it was. Whatever has been done, the rows stand in one strict order:
that of the last sort, among its equals that of the sort before, and so on to the order of the input.
-/
namespace RecordQuery

/-- What can be done to a selection, with the arguments as they are given: missing, empty or faulty. -/
inductive Step where
  | keep (filter : Option String)
  | sort (orderBy : Option String)
  | skip (count : Option Nat)
  | take (count : Option Nat)
  | validate (filter orderBy : Option String)

/-- Whether the step may drop rows that match. -/
def Step.pages : Step → Bool
  | skip _ | take _ => true
  | _ => false

variable {ρ : Type}

namespace Engine

variable (e : Engine ρ)

def perform (rows : List (Row ρ)) : Step → Except QueryError (List (Row ρ))
  | .keep filter => e.keep filter rows
  | .sort orderBy => e.sort orderBy rows
  | .skip count => .ok (e.skip count rows)
  | .take count => .ok (e.take count rows)
  | .validate filter orderBy => (e.validate filter orderBy).map fun _ => rows

/-- The selection after a step; a step that fails changes nothing. -/
def advance (rows : List (Row ρ)) (s : Step) : List (Row ρ) :=
  match e.perform rows s with
  | .ok rows => rows
  | .error _ => rows

/-- The selection after some steps. -/
def after (records : List ρ) (steps : List Step) : List (Row ρ) :=
  steps.foldl e.advance (Row.ofList records)

/-- The test of a filter that is applied; one that fails or is empty applies none. -/
def test? : Step → Option (Filter.Predicate ρ)
  | .keep filter => (asked filter).bind fun text => (e.compileFilter text).toOption
  | _ => none

/-- The comparator of a sort that is applied; a sort text that fails or is empty applies none. -/
def comparator? : Step → Option (Sorting.Comparator ρ)
  | .sort orderBy => (asked orderBy).bind fun text => (e.compileOrder text).toOption
  | _ => none

end Engine

/-- The order of comparators one after another, the first one first; rows that all find equal are in the order of
the input. -/
def lexOrder : List (Sorting.Comparator ρ) → Sorting.Comparator (Row ρ)
  | [] => fun a b => compare a.position b.position
  | c :: earlier => compareLex (c.on Row.record) (lexOrder earlier)

/-! ## What a selection is -/

theorem Row.mem_ofList {records : List ρ} {row : Row ρ} :
    row ∈ Row.ofList records ↔ records[row.position]? = some row.record := by
  obtain ⟨position, record⟩ := row
  rw [ofList, List.mem_mapIdx, List.getElem?_eq_some_iff]
  simp

theorem Row.pairwise_ofList (records : List ρ) :
    (Row.ofList records).Pairwise fun a b => a.position < b.position := by
  rw [List.pairwise_iff_getElem]
  intro i j hi hj hij
  simpa [Row.ofList] using hij

/-- A selection of the records: in what order its rows stand, the comparators of the later sorts first, and which
tests they have passed. If no page was taken, the selection is complete. -/
structure Selection (records : List ρ) (tests : List (Filter.Predicate ρ))
    (comparators : List (Sorting.Comparator ρ)) (complete : Prop) (rows : List (Row ρ)) : Prop where
  ordered : rows.Pairwise fun a b => lexOrder comparators a b = .lt
  distinct : rows.Pairwise fun a b => a.position ≠ b.position
  given : ∀ row ∈ rows, records[row.position]? = some row.record
  passed : ∀ row ∈ rows, ∀ test ∈ tests, test row.record = true
  full : complete → ∀ row ∈ Row.ofList records, (∀ test ∈ tests, test row.record = true) → row ∈ rows

namespace Selection

variable {records : List ρ} {tests : List (Filter.Predicate ρ)} {comparators : List (Sorting.Comparator ρ)}
  {complete : Prop} {rows : List (Row ρ)}

theorem ofList (records : List ρ) : Selection records [] [] True (Row.ofList records) where
  ordered := (Row.pairwise_ofList records).imp Nat.compare_eq_lt.mpr
  distinct := (Row.pairwise_ofList records).imp Nat.ne_of_lt
  given _ h := Row.mem_ofList.mp h
  passed _ _ _ ht := absurd ht List.not_mem_nil
  full _ _ h _ := h

theorem keep (h : Selection records tests comparators complete rows) (test : Filter.Predicate ρ) :
    Selection records (tests ++ [test]) comparators complete (rows.filter fun row => test row.record) where
  ordered := h.ordered.sublist List.filter_sublist
  distinct := h.distinct.sublist List.filter_sublist
  given row hrow := h.given row (List.mem_filter.mp hrow).1
  passed row hrow t ht := by
    obtain ⟨hrow, htest⟩ := List.mem_filter.mp hrow
    rcases List.mem_append.mp ht with ht | ht
    · exact h.passed row hrow t ht
    · obtain rfl := List.mem_singleton.mp ht
      exact htest
  full hc row hrow hall := by
    have hbefore := h.full hc row hrow fun t ht => hall t (List.mem_append_left _ ht)
    exact List.mem_filter.mpr ⟨hbefore, hall test (by simp)⟩

theorem sort (h : Selection records tests comparators complete rows) (c : Sorting.Comparator ρ) [Std.TransCmp c] :
    Selection records tests (c :: comparators) complete ((c.on Row.record).sort rows) where
  ordered := (c.on Row.record).pairwise_sort_compareLex h.ordered
  distinct := h.distinct.perm ((c.on Row.record).perm_sort rows).symm fun h => h.symm
  given row hrow := h.given row (((c.on Row.record).perm_sort rows).mem_iff.mp hrow)
  passed row hrow := h.passed row (((c.on Row.record).perm_sort rows).mem_iff.mp hrow)
  full hc row hrow hall := ((c.on Row.record).perm_sort rows).mem_iff.mpr (h.full hc row hrow hall)

theorem page (h : Selection records tests comparators complete rows) {rows' : List (Row ρ)}
    (hsub : rows'.Sublist rows) : Selection records tests comparators False rows' where
  ordered := h.ordered.sublist hsub
  distinct := h.distinct.sublist hsub
  given row hrow := h.given row (hsub.subset hrow)
  passed row hrow := h.passed row (hsub.subset hrow)
  full hc := hc.elim

/-- Less can be claimed to be complete. -/
theorem weaken (h : Selection records tests comparators complete rows) {complete' : Prop}
    (hc : complete' → complete) : Selection records tests comparators complete' rows :=
  ⟨h.ordered, h.distinct, h.given, h.passed, fun h' => h.full (hc h')⟩

end Selection

section

variable {α β : Type} (f : α → Option β) (xs : List α) (x : α)

theorem filterMap_concat : (xs ++ [x]).filterMap f = xs.filterMap f ++ (f x).toList := by
  rw [List.filterMap_append]
  cases h : f x <;> simp [h]

theorem reverse_filterMap_concat :
    ((xs ++ [x]).filterMap f).reverse = (f x).toList ++ (xs.filterMap f).reverse := by
  rw [filterMap_concat, List.reverse_append]
  cases f x <;> rfl

end

/-! ## Steps -/

namespace Engine

variable (e : Engine ρ)

theorem advance_keep (rows : List (Row ρ)) (filter : Option String) : e.advance rows (.keep filter) =
    match e.test? (.keep filter) with
    | none => rows
    | some test => rows.filter fun row => test row.record := by
  simp only [advance, perform, Engine.keep, test?]
  cases asked filter with
  | none => rfl
  | some text =>
    dsimp only [Option.bind_some]
    cases e.compileFilter text <;> rfl

theorem advance_sort (rows : List (Row ρ)) (orderBy : Option String) : e.advance rows (.sort orderBy) =
    match e.comparator? (.sort orderBy) with
    | none => rows
    | some c => (c.on Row.record).sort rows := by
  simp only [advance, perform, Engine.sort, comparator?]
  cases asked orderBy with
  | none => rfl
  | some text =>
    dsimp only [Option.bind_some]
    cases e.compileOrder text <;> rfl

theorem advance_validate (rows : List (Row ρ)) (filter orderBy : Option String) :
    e.advance rows (.validate filter orderBy) = rows := by
  simp only [advance, perform]
  cases e.validate filter orderBy <;> rfl

theorem transCmp_comparator? {s : Step} {c : Sorting.Comparator ρ} (h : e.comparator? s = some c) :
    Std.TransCmp c := by
  unfold comparator? at h
  split at h
  · obtain ⟨text, -, hc⟩ := Option.bind_eq_some_iff.mp h
    exact Sorting.transCmp_of_compile (eq_ok_of_toOption hc)
  · cases h

theorem length_advance_le (rows : List (Row ρ)) (s : Step) : (e.advance rows s).length ≤ rows.length := by
  cases s with
  | keep filter =>
    rw [advance_keep]
    split
    · exact Nat.le_refl _
    · exact List.length_filter_le _ _
  | sort orderBy =>
    rw [advance_sort]
    split
    · exact Nat.le_refl _
    · exact (Sorting.Comparator.perm_sort _ rows).length_eq.le
  | skip count => exact (List.drop_sublist _ rows).length_le
  | take count => exact (List.take_sublist _ rows).length_le
  | validate filter orderBy => rw [advance_validate]

/-- One step adds its test or its comparator, if it has one and does not fail, and a page may leave rows out. -/
theorem advance_selection {records : List ρ} {tests : List (Filter.Predicate ρ)}
    {comparators : List (Sorting.Comparator ρ)} {complete : Prop} {rows : List (Row ρ)}
    (h : Selection records tests comparators complete rows) (s : Step) :
    Selection records (tests ++ (e.test? s).toList) ((e.comparator? s).toList ++ comparators)
      (complete ∧ s.pages = false) (e.advance rows s) := by
  cases s with
  | keep filter =>
    rw [advance_keep]
    cases e.test? (.keep filter) with
    | none => simpa [comparator?] using h.weaken And.left
    | some test => exact (h.keep test).weaken And.left
  | sort orderBy =>
    rw [advance_sort]
    cases hc : e.comparator? (.sort orderBy) with
    | none => simpa [test?] using h.weaken And.left
    | some c =>
      have := e.transCmp_comparator? hc
      simpa [test?] using (h.sort c).weaken And.left
  | skip count =>
    have hpage : Selection records tests comparators False (e.advance rows (.skip count)) :=
      h.page (List.drop_sublist _ rows)
    simpa [test?, comparator?] using hpage.weaken fun hc => by cases hc.2
  | take count =>
    have hpage : Selection records tests comparators False (e.advance rows (.take count)) :=
      h.page (List.take_sublist _ rows)
    simpa [test?, comparator?] using hpage.weaken fun hc => by cases hc.2
  | validate filter orderBy =>
    rw [advance_validate]
    simpa [test?, comparator?] using h.weaken And.left

theorem after_append (records : List ρ) (steps more : List Step) :
    e.after records (steps ++ more) = more.foldl e.advance (e.after records steps) :=
  List.foldl_append

/-- By induction on the steps, from the last one back. -/
theorem after_selection (records : List ρ) (steps : List Step) :
    Selection records (steps.filterMap e.test?) (steps.filterMap e.comparator?).reverse
      (∀ s ∈ steps, s.pages = false) (e.after records steps) := by
  induction steps using List.reverseRecOn with
  | nil => exact (Selection.ofList records).weaken fun _ => trivial
  | append_singleton steps s ih =>
    have hpages (h : ∀ step ∈ steps ++ [s], step.pages = false) :
        (∀ step ∈ steps, step.pages = false) ∧ s.pages = false :=
      ⟨fun step hmem => h step (List.mem_append_left _ hmem), h s (by simp)⟩
    rw [after_append, filterMap_concat, reverse_filterMap_concat]
    exact (e.advance_selection ih s).weaken hpages

theorem length_after_le (records : List ρ) (steps more : List Step) :
    (e.after records (steps ++ more)).length ≤ (e.after records steps).length := by
  rw [after_append]
  generalize e.after records steps = rows
  induction more generalizing rows with
  | nil => exact Nat.le_refl _
  | cons s more ih => exact Nat.le_trans (ih _) (e.length_advance_le rows s)

/-- After any steps the selection is in one strict order: by the comparators of the sorts that were applied, the
last one first, and then by the place in the input. So it holds no record twice, and none that was not given. Its
records have passed all filters that were applied, it never grows, and as long as no page is taken it holds all
records that pass them. -/
theorem selection_after_steps (records : List ρ) (steps : List Step) :
    (e.after records steps).Pairwise (fun a b => lexOrder (steps.filterMap e.comparator?).reverse a b = .lt) ∧
      (e.after records steps).Pairwise (fun a b => a.position ≠ b.position) ∧
      (∀ row ∈ e.after records steps, records[row.position]? = some row.record) ∧
      (∀ row ∈ e.after records steps, ∀ test ∈ steps.filterMap e.test?, test row.record = true) ∧
      (∀ more, (e.after records (steps ++ more)).length ≤ (e.after records steps).length) ∧
      ((∀ s ∈ steps, s.pages = false) → ∀ position record, records[position]? = some record →
        (∀ test ∈ steps.filterMap e.test?, test record = true) → ⟨position, record⟩ ∈ e.after records steps) := by
  have h := e.after_selection records steps
  refine ⟨h.ordered, h.distinct, h.given, h.passed, e.length_after_le records steps, ?_⟩
  intro hpages position record hrecord hall
  exact h.full hpages ⟨position, record⟩ (Row.mem_ofList.mpr hrecord) hall

end Engine

end RecordQuery
