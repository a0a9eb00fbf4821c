import RecordQuery.Proofs.Filter.Batch

/-!
What the limit on nesting does. It cuts a compilation off and has no other effect: with more room a text compiles
to the same, or fails in the same way, unless the room was used up; and since only the room counts, the depth and
the limit can be shifted together.
-/
namespace RecordQuery

/-- The error as it reads under another limit. -/
def QueryError.withLimit (limit : Nat) : QueryError → QueryError
  | .nestingTooDeep _ => .nestingTooDeep limit
  | e => e

/-- Whether the error has nothing to do with the limit. -/
def QueryError.Shallow : QueryError → Prop
  | .nestingTooDeep _ => False
  | _ => True

/-- How many levels more the limit allows. -/
def Nesting.room (n : Nesting) : Nat :=
  n.limit - n.depth

namespace Filter

variable {ρ : Type} {α β : Type}

/-- The result is no failure for the depth of the nesting. -/
def Shallow : Except QueryError α → Prop
  | .ok _ => True
  | .error e => e.Shallow

theorem Shallow.ok (a : α) : Shallow (.ok a) := trivial

theorem Shallow.map {r : Except QueryError α} (h : Shallow r) (f : α → β) : Shallow (r.map f) := by
  cases r with
  | ok a => trivial
  | error e => exact h

theorem Shallow.bind {r : Except QueryError α} {f : α → Except QueryError β} (h : Shallow r)
    (hf : ∀ a, Shallow (f a)) : Shallow (r >>= f) := by
  cases r with
  | ok a => exact hf a
  | error e => exact h

theorem Shallow.mapM {f : α → Except QueryError β} (hf : ∀ a, Shallow (f a)) (as : List α) :
    Shallow (as.mapM f) := by
  induction as with
  | nil => trivial
  | cons a as ih =>
    rw [List.mapM_cons]
    exact (hf a).bind fun _ => ih.bind fun _ => trivial

theorem Shallow.mapError_withLimit {r : Except QueryError α} (h : Shallow r) (limit : Nat) :
    r.mapError (·.withLimit limit) = r := by
  cases r with
  | ok a => rfl
  | error e =>
    cases e with
    | nestingTooDeep l => exact h.elim
    | _ => rfl

/-! ## Faults of the scanner -/

theorem group_shallow (cs : List Char) : Shallow (group cs).result := by
  unfold group
  split
  · split <;> trivial
  · trivial

theorem childQuery_shallow (cs : List Char) : Shallow (childQuery cs).result := by
  have hg := group_shallow cs
  unfold childQuery
  split
  · trivial
  · trivial
  · rename_i h
    rw [h] at hg
    exact hg

theorem array_shallow (cs : List Char) : Shallow (array cs).result := by
  unfold array
  split
  · split <;> trivial
  · trivial

theorem literal_shallow (field operator : String) (cs : List Char) :
    Shallow (literal field operator cs).result := by
  unfold literal
  split
  · trivial
  · split <;> trivial
  · trivial

theorem operand_shallow (field operator : String) (cs : List Char) :
    Shallow (operand field operator cs).result := by
  unfold operand
  split
  · exact (childQuery_shallow cs).map _
  · exact (array_shallow cs).map _
  · exact (literal_shallow field operator cs).map _

theorem clause_shallow (cs : List Char) : Shallow (clause cs).result := by
  unfold clause
  dsimp only
  split
  · trivial
  · exact (operand_shallow _ _ _).map _

theorem term_shallow (cs : List Char) : Shallow (term cs).result := by
  have hg := group_shallow cs
  unfold term
  split
  · trivial
  · exact (clause_shallow _).map _
  · rename_i h
    rw [h] at hg
    exact hg

theorem segment_shallow (cs : List Char) : Shallow (segment cs).result := by
  unfold segment
  split
  · trivial
  · dsimp only
    split
    · trivial
    · trivial
    · exact (term_shallow _).map _

/-! ## Faults of clauses -/

theorem operatorOn_shallow (c : Clause) (type : FieldType) : Shallow (c.operatorOn type) := by
  unfold Clause.operatorOn
  split
  · split <;> trivial
  · trivial

theorem scalar_literal_shallow (type : Scalar) (field text : String) : Shallow (type.literal field text) := by
  unfold Scalar.literal
  split
  · trivial
  · split <;> trivial

theorem test_shallow (c : Clause) (type : Scalar) : Shallow (c.test type) := by
  refine (operatorOn_shallow c (.scalar type)).bind fun op => ?_
  split
  · exact (scalar_literal_shallow _ _ _).bind fun _ => trivial
  · exact (Shallow.mapM (scalar_literal_shallow _ _) _).bind fun _ => trivial
  · trivial
  · trivial

theorem resolve_shallow (registry : Registry ρ) (t : Term) : Shallow (t.resolve registry) := by
  cases t with
  | group inner => trivial
  | clause c =>
    show Shallow (c.resolve registry)
    unfold Clause.resolve
    split
    · trivial
    · exact (test_shallow _ _).bind fun _ => trivial
    · refine (operatorOn_shallow c .relation).bind fun op => ?_
      split <;> trivial

theorem join_shallow (before? : Option (Predicate ρ)) (term : Predicate ρ) (connective : Option Connective) :
    Shallow (join before? term connective) := by
  unfold join
  split <;> trivial

/-! ## More room -/

/-- What a result can become with more room: it stays, unless it was the failure for this limit. -/
def Extends (limit : Nat) (r r' : Except QueryError α) : Prop :=
  r = .error (.nestingTooDeep limit) ∨ r' = r ∧ Shallow r

theorem Extends.refl {r : Except QueryError α} (h : Shallow r) (limit : Nat) : Extends limit r r :=
  Or.inr ⟨rfl, h⟩

theorem Extends.bind {limit : Nat} {r r' : Except QueryError α} {f f' : α → Except QueryError β}
    (h : Extends limit r r') (hf : ∀ a, Extends limit (f a) (f' a)) : Extends limit (r >>= f) (r' >>= f') := by
  rcases h with rfl | ⟨rfl, hr⟩
  · exact Or.inl rfl
  · cases r' with
    | ok a => exact hf a
    | error e => exact Or.inr ⟨rfl, hr⟩

theorem Extends.map {limit : Nat} {r r' : Except QueryError α} (h : Extends limit r r') (f : α → β) :
    Extends limit (r.map f) (r'.map f) := by
  rcases h with rfl | ⟨rfl, hr⟩
  · exact Or.inl rfl
  · exact .refl (hr.map f) limit

variable {n n' : Nesting}

/-- A query inside a term takes one level of the room, from either side. -/
theorem compileTerm_extends (hroom : n.room ≤ n'.room) {t : Term} (registry : Registry ρ)
    (hinner : ∀ (registry : Registry ρ) (query : String) (m m' : Nesting), t.inner? = some query →
      m.room ≤ m'.room → Extends m.limit (compileAt registry m query) (compileAt registry m' query)) :
    Extends n.limit (compileTerm registry n t) (compileTerm registry n' t) := by
  have hshallow := resolve_shallow registry t
  cases hr : t.resolve registry with
  | error e =>
    rw [hr] at hshallow
    rw [compileTerm, compileTerm, hr]
    exact Or.inr ⟨rfl, hshallow⟩
  | ok r =>
    cases r with
    | test test =>
      rw [compileTerm_of_test hr, compileTerm_of_test hr]
      exact .refl (.ok test) n.limit
    | inner registry' query lift =>
      rw [compileTerm_of_inner hr, compileTerm_of_inner hr]
      by_cases hlt : n.depth < n.limit
      · have hlt' : n'.depth < n'.limit := by
          unfold Nesting.room at hroom
          omega
        have hroom' : (Nesting.mk (n.depth + 1) n.limit).room ≤ (Nesting.mk (n'.depth + 1) n'.limit).room := by
          unfold Nesting.room at hroom ⊢
          dsimp only
          omega
        rw [Nesting.descend, Nesting.descend, if_pos hlt, if_pos hlt']
        exact (hinner registry' query _ _ (inner?_of_resolve hr) hroom').map lift
      · rw [Nesting.descend, if_neg hlt]
        exact Or.inl rfl

/-- More room is passed on to the queries inside the terms, and to what stands behind them. -/
theorem compileFrom_extends (hroom : n.room ≤ n'.room) (registry : Registry ρ) (before? : Option (Predicate ρ))
    (cs : List Char) :
    Extends n.limit (compileFrom registry n before? cs) (compileFrom registry n' before? cs) := by
  induction cs using segment_induction generalizing n n' registry before? with
  | fault cs e rest hs =>
    have hshallow := segment_shallow cs
    rw [hs] at hshallow
    rw [compileFrom_eq, compileFrom_eq, hs]
    exact Or.inr ⟨rfl, hshallow⟩
  | done cs rest hs =>
    rw [compileFrom_eq, compileFrom_eq, hs]
    exact .refl (.ok _) n.limit
  | more cs s rest hs hquery ih =>
    have hterm : Extends n.limit (compileTerm registry n s.term) (compileTerm registry n' s.term) :=
      compileTerm_extends hroom registry fun registry' query m m' hi hm => hquery query hi hm registry' none
    rw [compileFrom_eq, compileFrom_eq, hs]
    refine hterm.bind fun term => ?_
    refine (Extends.refl (join_shallow _ _ _) n.limit).bind fun before => ?_
    exact ih hroom registry (some before)

/-- With more room a text that compiles means the same. -/
theorem compileAt_of_room_le (hroom : n.room ≤ n'.room) {registry : Registry ρ} {text : String} {p : Predicate ρ}
    (h : compileAt registry n text = .ok p) : compileAt registry n' text = .ok p := by
  rcases compileFrom_extends hroom registry none text.toList with hdeep | ⟨heq, -⟩
  · rw [compileAt, hdeep] at h
    cases h
  · exact heq.trans h

/-- Only the room counts; of the limit itself nothing is seen but in the error. -/
theorem compileAt_of_room_eq (hroom : n.room = n'.room) (registry : Registry ρ) (text : String) :
    compileAt registry n' text = (compileAt registry n text).mapError (·.withLimit n'.limit) := by
  unfold compileAt
  rcases compileFrom_extends hroom.le registry none text.toList with hdeep | ⟨heq, hshallow⟩
  · rcases compileFrom_extends hroom.ge registry none text.toList with hdeep' | ⟨heq', hshallow'⟩
    · rw [hdeep, hdeep']
      rfl
    · rw [← heq', hdeep] at hshallow'
      exact hshallow'.elim
  · rw [heq, hshallow.mapError_withLimit]

end Filter

end RecordQuery
