import RecordQuery.Proofs.Filter.Batch
import RecordQuery.Proofs.Result

/-!
What filter texts can say. Whatever its text, a test that is compiled is put together from tests of single values, which
`and`, `or` and `not` join and quantifiers lift from related records. So what is to be shown of every filter is shown by
induction on how its test is put together.
-/
namespace RecordQuery.Filter

variable {ρ : Type}

/-- The tests that can be put together over a registry. -/
inductive Definable : Registry ρ → Predicate ρ → Prop
  | always {registry : Registry ρ} : Definable registry always
  | negate {registry : Registry ρ} {p : Predicate ρ} : Definable registry p → Definable registry (negate p)
  | both {registry : Registry ρ} {p q : Predicate ρ} : Definable registry p → Definable registry q →
      Definable registry (both p q)
  | either {registry : Registry ρ} {p q : Predicate ρ} : Definable registry p → Definable registry q →
      Definable registry (either p q)
  | scalar {registry : Registry ρ} {name : String} {type : Scalar} {read : ρ → type.Cell} :
      registry.get? name = some (.scalar type read) → (test : Option type.Value → Bool) →
      Definable registry fun record => test (type.value? (read record))
  | relation {registry related : Registry ρ} {name : String} {children : ρ → List ρ} {p : Predicate ρ} :
      registry.get? name = some (.relation children related) → (quantifier : Quantifier) → Definable related p →
      Definable registry fun record => quantifier.holds (children record) p

/-! ## Compiled tests -/

variable {registry : Registry ρ} {nesting : Nesting}

/-- A term comes down to a test of the value of a field, or to the query of a group, or to a query about the records of
a relation. -/
theorem Term.resolve_cases {t : Term} {r : Resolved ρ} (h : t.resolve registry = .ok r) :
    (∃ (name : String) (type : Scalar) (read : ρ → type.Cell) (test : Option type.Value → Bool),
      registry.get? name = some (.scalar type read) ∧ r = .test fun record => test (type.value? (read record))) ∨
    (∃ query, r = .inner registry query id) ∨
    ∃ name children related query quantifier, registry.get? name = some (.relation children related) ∧
      r = .inner related query fun test record => Quantifier.holds quantifier (children record) test := by
  cases t with
  | group inner =>
    obtain rfl := Except.ok.inj h
    exact .inr (.inl ⟨inner, rfl⟩)
  | clause c =>
    replace h : c.resolve registry = .ok r := h
    unfold Clause.resolve at h
    split at h
    · cases h
    · rename_i type read hget
      obtain ⟨test, -, h⟩ := exists_of_bind_eq_ok h
      obtain rfl := Except.ok.inj h
      exact .inl ⟨c.field, type, read, test, hget, rfl⟩
    · rename_i children related hget
      obtain ⟨op, -, h⟩ := exists_of_bind_eq_ok h
      split at h
      · rename_i quantifier query _
        obtain rfl := Except.ok.inj h
        exact .inr (.inr ⟨c.field, children, related, query, quantifier, hget, rfl⟩)
      · cases h

/-- A term is definable if the query inside it is so over its own registry. -/
theorem compileTerm_definable {t : Term} {p : Predicate ρ} (h : compileTerm registry nesting t = .ok p)
    (hinner : ∀ (registry : Registry ρ) (query : String) (deeper : Nesting) (p : Predicate ρ),
      t.inner? = some query → compileAt registry deeper query = .ok p → Definable registry p) :
    Definable registry p := by
  obtain ⟨r, hr, h⟩ := exists_of_bind_eq_ok h
  rcases Term.resolve_cases hr with ⟨_, type, read, test, hget, rfl⟩ | ⟨query, rfl⟩ |
    ⟨_, children, related, query, quantifier, hget, rfl⟩
  · obtain rfl := Except.ok.inj h
    exact .scalar hget test
  · obtain ⟨deeper, -, h⟩ := exists_of_bind_eq_ok h
    obtain ⟨q, hq, h⟩ := exists_of_bind_eq_ok h
    obtain rfl := Except.ok.inj h
    exact hinner registry query deeper q (inner?_of_resolve hr) hq
  · obtain ⟨deeper, -, h⟩ := exists_of_bind_eq_ok h
    obtain ⟨q, hq, h⟩ := exists_of_bind_eq_ok h
    obtain rfl := Except.ok.inj h
    exact .relation hget quantifier (hinner related query deeper q (inner?_of_resolve hr) hq)

theorem join_definable {before? : Option (Predicate ρ)} {term p : Predicate ρ} {connective : Option Connective}
    (h : join before? term connective = .ok p) (hbefore : ∀ before ∈ before?, Definable registry before)
    (hterm : Definable registry term) : Definable registry p := by
  unfold join at h
  split at h
  · obtain rfl := Except.ok.inj h
    exact hterm
  · obtain rfl := Except.ok.inj h
    exact .both (hbefore _ rfl) hterm
  · obtain rfl := Except.ok.inj h
    exact .either (hbefore _ rfl) hterm
  · cases h

/-- Behind terms that are definable, what is left of a text gives a definable test. -/
theorem compileFrom_definable {before? : Option (Predicate ρ)} {cs : List Char} {p : Predicate ρ}
    (h : compileFrom registry nesting before? cs = .ok p) (hbefore : ∀ before ∈ before?, Definable registry before) :
    Definable registry p := by
  induction cs using segment_induction generalizing registry nesting before? p with
  | fault cs e rest hs =>
    rw [compileFrom_eq, hs] at h
    cases h
  | done cs rest hs =>
    rw [compileFrom_eq, hs] at h
    obtain rfl := Except.ok.inj h
    cases before? with
    | none => exact .always
    | some before => exact hbefore before rfl
  | more cs s rest hs hquery ih =>
    rw [compileFrom_eq, hs] at h
    obtain ⟨term, hterm, h⟩ := exists_of_bind_eq_ok h
    obtain ⟨before, hjoin, h⟩ := exists_of_bind_eq_ok h
    have hdefinable : Definable registry term :=
      compileTerm_definable hterm fun registry' query deeper q hi hq => hquery query hi hq (by simp)
    have hturned : Definable registry (if s.window.negates then negate term else term) := by
      split
      · exact .negate hdefinable
      · exact hdefinable
    have hjoined := join_definable hjoin hbefore hturned
    exact ih h (by simpa using hjoined)

/-- Every filter text that compiles gives a definable test. -/
theorem compile_definable {limit : Nat} {text : String} {p : Predicate ρ} (h : compile registry limit text = .ok p) :
    Definable registry p :=
  compileFrom_definable h (by simp)

end RecordQuery.Filter
