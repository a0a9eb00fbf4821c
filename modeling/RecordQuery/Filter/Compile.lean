import RecordQuery.Filter.Clause
import RecordQuery.Filter.Scan
import RecordQuery.Query.Nesting

/-!
Compiling filter text. Segments are taken one at a time and joined from left to right, without precedence between
`and` and `or`: the term is compiled, turned around if its window negates it, and joined to what stands before
it. The first fault in the order of the text is the answer, and the form of a segment is only looked at when all
segments before it are in order.
-/
namespace RecordQuery.Filter

variable {ρ : Type}

/-- The test that every record passes: the meaning of an empty text. -/
def always : Predicate ρ := fun _ => true

def negate (p : Predicate ρ) : Predicate ρ := fun record => !p record

/-- Both tests, the second one only where the first is passed. -/
def both (p q : Predicate ρ) : Predicate ρ := fun record => p record && q record

/-- One of the tests, the second one only where the first is not passed. -/
def either (p q : Predicate ρ) : Predicate ρ := fun record => p record || q record

/-- Joins a term to the terms before it. The first term needs no connective, and one before it has no effect. -/
def join (before? : Option (Predicate ρ)) (term : Predicate ρ) (connective : Option Connective) :
    Except QueryError (Predicate ρ) :=
  match before?, connective with
  | none, _ => .ok term
  | some before, some .and => .ok (both before term)
  | some before, some .or => .ok (either before term)
  | some _, other => .error (.invalidConnective other)

theorem inner?_of_resolve {registry registry' : Registry ρ} {t : Term} {query : String}
    {lift : Predicate ρ → Predicate ρ} (h : t.resolve registry = .ok (.inner registry' query lift)) :
    t.inner? = some query := by
  cases t with
  | group inner =>
    simp only [Term.resolve, Except.ok.injEq, Resolved.inner.injEq] at h
    simp [Term.inner?, h.2.1]
  | clause c =>
    obtain ⟨field, operator, operand⟩ := c
    simp only [Term.resolve, Clause.resolve] at h
    split at h
    · simp at h
    · rename_i type _ _
      cases ht : Clause.test ⟨field, operator, operand⟩ type <;> rw [ht] at h <;> cases h
    · cases ho : Clause.operatorOn ⟨field, operator, operand⟩ .relation <;> rw [ho] at h
      · cases h
      · simp only [bind, Except.bind] at h
        split at h
        · rename_i hop
          cases h
          simp_all [Term.inner?]
        · cases h

/-- Compiles what is left of a text, behind the terms joined so far. -/
def compileFrom (registry : Registry ρ) (nesting : Nesting) (before? : Option (Predicate ρ))
    (cs : List Char) : Except QueryError (Predicate ρ) :=
  match _h : segment cs with
  | ⟨.error e, _⟩ => .error e
  | ⟨.ok none, _⟩ => .ok (before?.getD always)
  | ⟨.ok (some s), rest⟩ => do
    let term ← match _hr : s.term.resolve registry with
      | .error e => .error e
      | .ok (.test test) => .ok test
      | .ok (.inner registry query lift) => do
        let deeper ← nesting.descend
        let test ← compileFrom registry deeper none query.toList
        .ok (lift test)
    let before ← join before? (if s.window.negates then negate term else term) s.window.first
    compileFrom registry nesting (some before) rest
termination_by cs.length
decreasing_by
  · exact segment_length _h
  · rw [String.length_toList]
    exact segment_inner_length _h (inner?_of_resolve _hr)

/-- Compiles a filter text at some depth. -/
def compileAt (registry : Registry ρ) (nesting : Nesting) (text : String) :
    Except QueryError (Predicate ρ) :=
  compileFrom registry nesting none text.toList

/-- Compiles a filter text; the limit bounds its parentheses and nested queries. -/
def compile (registry : Registry ρ) (limit : Nat) (text : String) : Except QueryError (Predicate ρ) :=
  compileAt registry (.ofLimit limit) text

/-- Compiles one term. -/
def compileTerm (registry : Registry ρ) (nesting : Nesting) (t : Term) :
    Except QueryError (Predicate ρ) := do
  match ← t.resolve registry with
  | .test test => .ok test
  | .inner registry query lift => do
    let deeper ← nesting.descend
    let test ← compileAt registry deeper query
    .ok (lift test)

/-- One step of compilation: a segment's term, then its connective, then what follows. -/
theorem compileFrom_eq (registry : Registry ρ) (nesting : Nesting) (before? : Option (Predicate ρ))
    (cs : List Char) :
    compileFrom registry nesting before? cs =
      match segment cs with
      | ⟨.error e, _⟩ => .error e
      | ⟨.ok none, _⟩ => .ok (before?.getD always)
      | ⟨.ok (some s), rest⟩ => (do
        let term ← compileTerm registry nesting s.term
        let before ← join before? (if s.window.negates then negate term else term) s.window.first
        compileFrom registry nesting (some before) rest) := by
  rw [compileFrom]
  split
  · rename_i h
    simp [h]
  · rename_i h
    simp [h]
  · rename_i s rest h
    simp only [h, compileTerm, compileAt]
    split <;> rename_i hr <;> simp only [hr]
    · rfl
    · rfl
    · rename_i registry' query lift
      cases nesting.descend with
      | error => rfl
      | ok deeper =>
        simp only [bind, Except.bind]
        cases compileFrom registry' deeper none query.toList <;> rfl

/-- Compiles one clause, which need not come from a text. -/
def compileClause (registry : Registry ρ) (nesting : Nesting) (c : Clause) :
    Except QueryError (Predicate ρ) :=
  compileTerm registry nesting (.clause c)

end RecordQuery.Filter
