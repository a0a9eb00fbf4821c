import RecordQuery.Query.Engine

/-!
What the texts of a request ask for. A text that is missing or empty asks for the test that every record passes, or
for the order in which all records are equal; so each step of the engine first compiles what its text asks for, and
then applies it to the rows, which have no part in the first.
-/
namespace RecordQuery.Engine

variable {ρ : Type} (e : Engine ρ)

/-- The test that a filter asks for. -/
def testOf (filter : Option String) : Except QueryError (Filter.Predicate ρ) :=
  match asked filter with
  | none => .ok Filter.always
  | some text => e.compileFilter text

/-- The order that a sort text asks for. -/
def orderOf (orderBy : Option String) : Except QueryError (Sorting.Comparator ρ) :=
  match asked orderBy with
  | none => .ok fun _ _ => .eq
  | some text => e.compileOrder text

theorem asked_some {text : String} (h : text ≠ "") : asked (some text) = some text := by
  simp [asked, h]

theorem compileFilter_empty : e.compileFilter "" = .ok Filter.always := by
  rw [compileFilter, Filter.compile, Filter.compileAt, Filter.compileFrom_eq]
  rfl

/-- An empty filter asks for what it compiles to. -/
theorem testOf_some (text : String) : e.testOf (some text) = e.compileFilter text := by
  by_cases h : text = ""
  · subst h
    rw [compileFilter_empty]
    rfl
  · rw [testOf, asked_some h]

/-! ## Steps -/

theorem keep_eq (filter : Option String) (rows : List (Row ρ)) :
    e.keep filter rows = (e.testOf filter).map fun test => rows.filter fun row => test row.record := by
  unfold keep testOf
  cases asked filter with
  | none =>
    have hall : rows.filter (fun row => Filter.always row.record) = rows := List.filter_eq_self.mpr fun _ _ => rfl
    simp only [Except.map, hall]
  | some text => rfl

theorem keep_of_testOf {filter : Option String} {test : Filter.Predicate ρ} (h : e.testOf filter = .ok test)
    (rows : List (Row ρ)) : e.keep filter rows = .ok (rows.filter fun row => test row.record) := by
  rw [keep_eq, h]
  rfl

theorem keep_of_compileFilter {text : String} {test : Filter.Predicate ρ} (h : e.compileFilter text = .ok test)
    (rows : List (Row ρ)) : e.keep (some text) rows = .ok (rows.filter fun row => test row.record) :=
  e.keep_of_testOf ((e.testOf_some text).trans h) rows

theorem sort_eq (orderBy : Option String) (rows : List (Row ρ)) :
    e.sort orderBy rows = (e.orderOf orderBy).map fun comparator => (comparator.on Row.record).sort rows := by
  unfold sort orderOf
  cases asked orderBy with
  | none =>
    have hsorted : rows.Pairwise fun a b => (Sorting.Comparator.on (fun _ _ => .eq) Row.record a b).isLE = true :=
      List.pairwise_of_forall fun _ _ => rfl
    simp only [Except.map, Sorting.Comparator.sort, List.mergeSort_of_pairwise hsorted]
  | some text => rfl

theorem sort_of_orderOf {orderBy : Option String} {comparator : Sorting.Comparator ρ}
    (h : e.orderOf orderBy = .ok comparator) (rows : List (Row ρ)) :
    e.sort orderBy rows = .ok ((comparator.on Row.record).sort rows) := by
  rw [sort_eq, h]
  rfl

theorem validate_eq (filter orderBy : Option String) :
    e.validate filter orderBy = (e.testOf filter).bind fun _ => (e.orderOf orderBy).map fun _ => () := by
  have hdiscard : ∀ {α : Type} (r : Except QueryError α), discard r = r.map fun _ => () := by
    intro α r
    cases r <;> rfl
  unfold validate testOf orderOf
  simp only [hdiscard]
  cases asked filter with
  | none => cases asked orderBy <;> rfl
  | some text =>
    dsimp only
    cases e.compileFilter text with
    | error fault => rfl
    | ok test => cases asked orderBy <;> rfl

/-- A run compiles both texts, and applies what they ask for only then. -/
theorem run_eq (p : Parameters) (records : List ρ) :
    e.run p records = (e.testOf p.filter).bind fun test => (e.orderOf p.orderBy).map fun comparator =>
      e.take p.take (e.skip p.skip ((comparator.on Row.record).sort
        ((Row.ofList records).filter fun row => test row.record))) := by
  rw [run, keep_eq]
  cases e.testOf p.filter with
  | error fault => rfl
  | ok test =>
    simp only [Except.map, bind, Except.bind, sort_eq]
    cases e.orderOf p.orderBy <;> rfl

end RecordQuery.Engine
