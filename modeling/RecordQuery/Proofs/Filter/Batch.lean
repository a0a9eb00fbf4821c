import RecordQuery.Filter.Compile
import RecordQuery.Proofs.Filter.Token
import Mathlib.Data.List.Forall2

/-!
Compiling a text against compiling its segments. Terms are compiled while the text is read; what comes out is what
comes out of reading the text first and joining its terms from left to right. Of several faults the one that
stands first in the text is reported: in a segment the term comes before its connective, and a fault of the
scanner comes behind all segments that it left.
-/
namespace RecordQuery.Filter

variable {ρ : Type}

/-! ## The meaning of a row -/

/-- A window that can join its term to what stands before it. -/
def Window.Joins (w : Window) : Prop := w.first = some .and ∨ w.first = some .or

instance (w : Window) : Decidable w.Joins := inferInstanceAs (Decidable (_ ∨ _))

/-- The value of a term behind its window: `not` turns it around, wherever in the window it stands. -/
def Window.apply (w : Window) (value : Bool) : Bool :=
  if .not ∈ w.connectives then !value else value

/-- Joins the value of a term to what stands before it, by the first word of the window. -/
def joinValue (before : Bool) : Window × Bool → Bool
  | (w, value) => if w.first = some .or then before || w.apply value else before && w.apply value

/-- The value of a row of terms behind their windows, from left to right. Of the first window only `not` counts,
and a row without terms is true. -/
def leftFold : List (Window × Bool) → Bool
  | [] => true
  | (w, value) :: row => row.foldl joinValue (w.apply value)

/-- The values of the terms for a record, each behind its window. -/
def rowOf (ss : List Segment) (tests : List (Predicate ρ)) (record : ρ) : List (Window × Bool) :=
  List.zipWith (fun s test => (s.window, test record)) ss tests

/-! ## Faults in the order of the text -/

/-- The segments in front of the end of the text or of the scanner's fault, and the fault. -/
def yielded (cs : List Char) : List Segment × Option QueryError :=
  match _h : segment cs with
  | ⟨.ok none, _⟩ => ([], none)
  | ⟨.ok (some s), rest⟩ => (yielded rest).map (s :: ·) id
  | ⟨.error e, _⟩ => ([], some e)
termination_by cs.length
decreasing_by exact segment_length _h

section

variable (registry : Registry ρ) (nesting : Nesting)

/-- The tests of the terms, each of them compiled by itself. -/
def TermTests : List Segment → List (Predicate ρ) → Prop :=
  List.Forall₂ fun s test => compileTerm registry nesting s.term = .ok test

/-- What is wrong with the term of a segment. -/
def termFault? (s : Segment) : Option QueryError :=
  match compileTerm registry nesting s.term with
  | .ok _ => none
  | .error e => some e

/-- What is wrong between a segment and those before it. -/
def joinFault? (s : Segment) : Option QueryError :=
  if s.window.Joins then none else some (.invalidConnective s.window.first)

/-- The faults of segments that stand behind another one. -/
def faultsBehind (ss : List Segment) : List QueryError :=
  ss.flatMap fun s => (termFault? registry nesting s).toList ++ (joinFault? s).toList

def rowFaults : List Segment → List QueryError
  | [] => []
  | s :: ss => (termFault? registry nesting s).toList ++ faultsBehind registry nesting ss

/-- All faults of a text, in its order. -/
def faults (text : String) : List QueryError :=
  rowFaults registry nesting (yielded text.toList).1 ++ (yielded text.toList).2.toList

/-- Compiles a row of segments behind the terms joined so far. Behind the row comes `stop?`, or the end. -/
def compileRow (stop? : Option QueryError) (before? : Option (Predicate ρ)) :
    List Segment → Except QueryError (Predicate ρ)
  | [] =>
    match stop? with
    | none => .ok (before?.getD always)
    | some e => .error e
  | s :: ss => do
    let term ← compileTerm registry nesting s.term
    let before ← join before? (if s.window.negates then negate term else term) s.window.first
    compileRow stop? (some before) ss

end

variable {registry : Registry ρ} {nesting : Nesting}

/-! ## Texts and the queries in them -/

/-- What is shown of a text may be taken as shown of the query inside its first term, and of what stands behind it. -/
@[elab_as_elim] theorem segment_induction {motive : List Char → Prop}
    (fault : ∀ cs e rest, segment cs = ⟨.error e, rest⟩ → motive cs)
    (done : ∀ cs rest, segment cs = ⟨.ok none, rest⟩ → motive cs)
    (more : ∀ cs s rest, segment cs = ⟨.ok (some s), rest⟩ →
      (∀ query, s.term.inner? = some query → motive query.toList) → motive rest → motive cs)
    (cs : List Char) : motive cs := by
  induction hlen : cs.length using Nat.strongRecOn generalizing cs with
  | ind length ih =>
    subst hlen
    match hs : segment cs with
    | ⟨.error e, rest⟩ => exact fault cs e rest hs
    | ⟨.ok none, rest⟩ => exact done cs rest hs
    | ⟨.ok (some s), rest⟩ =>
      refine more cs s rest hs (fun query hi => ?_) (ih _ (segment_length hs) rest rfl)
      have hlt : query.toList.length < cs.length := by
        rw [String.length_toList]
        exact segment_inner_length hs hi
      exact ih _ hlt query.toList rfl

/-! ## Terms -/

theorem compileTerm_of_test {t : Term} {test : Predicate ρ} (h : t.resolve registry = .ok (.test test)) :
    compileTerm registry nesting t = .ok test := by
  rw [compileTerm, h]
  rfl

/-- A query inside a term is compiled one level deeper, against the registry of its own records. -/
theorem compileTerm_of_inner {t : Term} {registry' : Registry ρ} {query : String}
    {lift : Predicate ρ → Predicate ρ} (h : t.resolve registry = .ok (.inner registry' query lift)) :
    compileTerm registry nesting t =
      nesting.descend.bind fun deeper => (compileAt registry' deeper query).map lift := by
  rw [compileTerm, h]
  simp only [bind, Except.bind]
  cases nesting.descend with
  | error e => rfl
  | ok deeper =>
    dsimp only
    cases compileAt registry' deeper query <;> rfl

theorem compileTerm_group (inner : String) : compileTerm registry nesting (.group inner) =
    nesting.descend.bind fun deeper => compileAt registry deeper inner := by
  rw [compileTerm_of_inner (t := .group inner) rfl]
  congr 1
  funext deeper
  cases compileAt registry deeper inner <;> rfl

theorem compileTerm_quantified {c : Clause} {children : ρ → List ρ} {related : Registry ρ} {quantifier : Quantifier}
    {query : String} (hget : registry.get? c.field = some (.relation children related))
    (hop : c.operatorOn .relation = .ok (.quantify quantifier)) (hoperand : c.operand = .nested query) :
    compileTerm registry nesting (.clause c) =
      nesting.descend.bind fun deeper => (compileAt related deeper query).map
        fun test record => quantifier.holds (children record) test := by
  apply compileTerm_of_inner
  simp only [Term.resolve, Clause.resolve, hget, hop, hoperand, bind, Except.bind]

theorem compileTerm_of_get?_eq_none {c : Clause} (hget : registry.get? c.field = none) (nesting : Nesting) :
    compileTerm registry nesting (.clause c) = .error (.unknownField c.field) := by
  rw [compileTerm, Term.resolve, Clause.resolve, hget]
  rfl

/-- Of a registry a clause sees what stands under the name of its field. -/
theorem compileClause_congr {registry' : Registry ρ} {c : Clause} (h : registry.get? c.field = registry'.get? c.field)
    (nesting : Nesting) : compileClause registry nesting c = compileClause registry' nesting c := by
  simp only [compileClause, compileTerm, Term.resolve, Clause.resolve, h]

/-- A clause over a scalar field is a test of the field's value, at any depth. -/
theorem compileClause_scalar {c : Clause} {type : Scalar} {read : ρ → type.Cell}
    (h : registry.get? c.field = some (.scalar type read)) : compileClause registry nesting c =
      (c.test type).map fun test record => test (type.value? (read record)) := by
  simp only [compileClause, compileTerm, Term.resolve, Clause.resolve, h]
  cases c.test type <;> rfl

/-! ## Reading first -/

/-- One step over a text: its first segment, and then what the others yield. -/
theorem yielded_eq (cs : List Char) :
    yielded cs = match segment cs with
      | ⟨.ok none, _⟩ => ([], none)
      | ⟨.ok (some s), rest⟩ => (yielded rest).map (s :: ·) id
      | ⟨.error e, _⟩ => ([], some e) := by
  rw [yielded]
  split <;> rename_i h <;> simp [h]

theorem segments_eq_yielded (cs : List Char) :
    segments cs = match yielded cs with
      | (ss, none) => .ok ss
      | (_, some e) => .error e := by
  fun_induction yielded cs with
  | case1 cs rest h => rw [segments_eq, h]
  | case2 cs s rest h ih =>
    rw [segments_eq, h]
    dsimp only
    rw [ih]
    obtain ⟨ss, stop?⟩ := yielded rest
    cases stop? <;> rfl
  | case3 cs e rest h => rw [segments_eq, h]

theorem segments_eq_ok_iff {cs : List Char} {ss : List Segment} :
    segments cs = .ok ss ↔ yielded cs = (ss, none) := by
  rw [segments_eq_yielded]
  obtain ⟨ss', stop?⟩ := yielded cs
  cases stop? <;> simp

/-- Compiling while the text is read is compiling the row that the text yields. -/
theorem compileFrom_eq_compileRow (before? : Option (Predicate ρ)) (cs : List Char) :
    compileFrom registry nesting before? cs =
      compileRow registry nesting (yielded cs).2 before? (yielded cs).1 := by
  fun_induction yielded cs generalizing before? with
  | case1 cs rest h =>
    rw [compileFrom_eq, h]
    rfl
  | case2 cs s rest h ih =>
    rw [compileFrom_eq, h]
    simp only [Prod.map, id, compileRow, ih]
  | case3 cs e rest h =>
    rw [compileFrom_eq, h]
    rfl

theorem compileAt_eq_compileRow {text : String} {ss : List Segment} (h : scan text = .ok ss) :
    compileAt registry nesting text = compileRow registry nesting none none ss := by
  rw [compileAt, compileFrom_eq_compileRow, segments_eq_ok_iff.mp h]

/-! ## Joining -/

theorem Window.negates_iff (w : Window) : w.negates = true ↔ .not ∈ w.connectives := by
  simp [Window.negates, Window.connectives]

/-- A test that is turned around where the window says so. -/
theorem turned_eq (w : Window) (test : Predicate ρ) :
    (if w.negates then negate test else test) = fun record => w.apply (test record) := by
  unfold Window.apply
  by_cases h : Connective.not ∈ w.connectives
  · rw [if_pos (w.negates_iff.mpr h)]
    simp only [if_pos h]
    rfl
  · rw [if_neg fun hn => h (w.negates_iff.mp hn)]
    simp only [if_neg h]

theorem join_of_joins {w : Window} (h : w.Joins) (before test : Predicate ρ) :
    join (some before) (if w.negates then negate test else test) w.first =
      .ok fun record => joinValue (before record) (w, test record) := by
  rw [turned_eq]
  rcases h with h | h
  · simp only [h, join, joinValue]
    rfl
  · simp only [h, join, joinValue]
    rfl

theorem join_of_not_joins {w : Window} (h : ¬ w.Joins) (before term : Predicate ρ) :
    join (some before) term w.first = .error (.invalidConnective w.first) := by
  obtain ⟨first, second⟩ := w
  rcases first with _ | _ | _ | _
  · rfl
  · exact absurd (Or.inl rfl) h
  · exact absurd (Or.inr rfl) h
  · rfl

/-! ## Rows behind a term -/

theorem not_termTests {s : Segment} {ss : List Segment} {e : QueryError}
    (h : compileTerm registry nesting s.term = .error e) (tests : List (Predicate ρ)) :
    ¬ TermTests registry nesting (s :: ss) tests := by
  intro hs
  cases hs with
  | cons htest _ =>
    rw [h] at htest
    cases htest

theorem exists_termTests_cons {s : Segment} {ss : List Segment} {test : Predicate ρ}
    (h : compileTerm registry nesting s.term = .ok test) (P : List (Predicate ρ) → Prop) :
    (∃ tests, TermTests registry nesting (s :: ss) tests ∧ P tests) ↔
      ∃ tests, TermTests registry nesting ss tests ∧ P (test :: tests) := by
  constructor
  · intro hs
    obtain ⟨_, hs, hP⟩ := hs
    cases hs with
    | cons htest hss =>
      obtain rfl := Except.ok.inj (h.symm.trans htest)
      exact ⟨_, hss, hP⟩
  · intro hs
    obtain ⟨tests, hss, hP⟩ := hs
    exact ⟨test :: tests, .cons h hss, hP⟩

theorem compileRow_behind_eq_ok_iff {stop? : Option QueryError} {before p : Predicate ρ} {ss : List Segment} :
    compileRow registry nesting stop? (some before) ss = .ok p ↔
      stop? = none ∧ (∀ s ∈ ss, s.window.Joins) ∧ ∃ tests, TermTests registry nesting ss tests ∧
        p = fun record => (rowOf ss tests record).foldl joinValue (before record) := by
  induction ss generalizing before with
  | nil => cases stop? <;> simp [compileRow, rowOf, TermTests, eq_comm]
  | cons s ss ih =>
    cases ht : compileTerm registry nesting s.term with
    | error e => simp [compileRow, ht, bind, Except.bind, not_termTests ht]
    | ok test =>
      by_cases hj : s.window.Joins
      · simp only [compileRow, ht, join_of_joins hj, bind, Except.bind, ih, List.forall_mem_cons, hj, true_and,
          exists_termTests_cons ht, rowOf, List.zipWith_cons_cons, List.foldl_cons]
      · simp [compileRow, ht, join_of_not_joins hj, bind, Except.bind, hj]

theorem compileRow_behind_eq_error_iff {stop? : Option QueryError} {before : Predicate ρ} {e : QueryError}
    {ss : List Segment} :
    compileRow registry nesting stop? (some before) ss = .error e ↔
      (faultsBehind registry nesting ss ++ stop?.toList).head? = some e := by
  induction ss generalizing before with
  | nil => cases stop? <;> simp [compileRow, faultsBehind]
  | cons s ss ih =>
    cases ht : compileTerm registry nesting s.term with
    | error e' => simp [compileRow, faultsBehind, termFault?, ht, bind, Except.bind]
    | ok test =>
      by_cases hj : s.window.Joins
      · have hs : faultsBehind registry nesting (s :: ss) = faultsBehind registry nesting ss := by
          simp [faultsBehind, termFault?, joinFault?, ht, hj]
        simp only [compileRow, ht, join_of_joins hj, bind, Except.bind, ih, hs]
      · simp [compileRow, faultsBehind, termFault?, joinFault?, ht, hj, join_of_not_joins hj, bind, Except.bind]

/-! ## Whole rows -/

theorem compileRow_eq_ok_iff {stop? : Option QueryError} {p : Predicate ρ} {ss : List Segment} :
    compileRow registry nesting stop? none ss = .ok p ↔
      stop? = none ∧ (∀ s ∈ ss.tail, s.window.Joins) ∧ ∃ tests, TermTests registry nesting ss tests ∧
        p = fun record => leftFold (rowOf ss tests record) := by
  cases ss with
  | nil =>
    have hempty : (fun _ : ρ => leftFold []) = always := rfl
    cases stop? <;> simp [compileRow, rowOf, TermTests, hempty, eq_comm]
  | cons s ss =>
    cases ht : compileTerm registry nesting s.term with
    | error e => simp [compileRow, ht, bind, Except.bind, not_termTests ht]
    | ok test =>
      simp only [compileRow, ht, join, turned_eq, bind, Except.bind, compileRow_behind_eq_ok_iff, List.tail_cons,
        exists_termTests_cons ht, rowOf, List.zipWith_cons_cons, leftFold]

theorem compileRow_eq_error_iff {stop? : Option QueryError} {e : QueryError} {ss : List Segment} :
    compileRow registry nesting stop? none ss = .error e ↔
      (rowFaults registry nesting ss ++ stop?.toList).head? = some e := by
  cases ss with
  | nil => cases stop? <;> simp [compileRow, rowFaults]
  | cons s ss =>
    cases ht : compileTerm registry nesting s.term with
    | error e' => simp [compileRow, rowFaults, termFault?, ht, bind, Except.bind]
    | ok test =>
      simp only [compileRow, ht, join, bind, Except.bind, compileRow_behind_eq_error_iff]
      simp [rowFaults, termFault?, ht]

/-- Compiling a text while it is read gives what reading it first and folding its terms gives, and of the faults of
the text the first one. A group is compiled one level deeper. -/
theorem compileAt_iff_leftFold (registry : Registry ρ) (nesting : Nesting) (text : String) :
    (∀ inner, compileTerm registry nesting (.group inner) =
      nesting.descend.bind fun deeper => compileAt registry deeper inner) ∧
    (∀ p, compileAt registry nesting text = .ok p ↔
      ∃ ss tests, scan text = .ok ss ∧ (∀ s ∈ ss.tail, s.window.Joins) ∧
        TermTests registry nesting ss tests ∧ p = fun record => leftFold (rowOf ss tests record)) ∧
    ∀ e, compileAt registry nesting text = .error e ↔ (faults registry nesting text).head? = some e := by
  refine ⟨fun inner => ?_, fun p => ?_, fun e => ?_⟩
  · exact compileTerm_group inner
  · rw [compileAt, compileFrom_eq_compileRow, compileRow_eq_ok_iff]
    constructor
    · intro h
      obtain ⟨hstop, hj, tests, hf, rfl⟩ := h
      exact ⟨_, tests, segments_eq_ok_iff.mpr (Prod.ext rfl hstop), hj, hf, rfl⟩
    · intro h
      obtain ⟨ss, tests, hscan, hj, hf, rfl⟩ := h
      rw [segments_eq_ok_iff.mp hscan]
      exact ⟨rfl, hj, tests, hf, rfl⟩
  · rw [compileAt, compileFrom_eq_compileRow, compileRow_eq_error_iff, faults]

end RecordQuery.Filter
