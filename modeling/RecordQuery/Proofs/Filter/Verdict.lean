import RecordQuery.Proofs.Filter.Comparison

/-!
What a clause comes to, whether it was read from a text or put together by hand. There are eight verdicts, and their
conditions leave exactly one for each clause: the field is looked at first, then the operator and the kind of the
operand, then the query about related records or the literals one after another. So of several faults the same one is
always reported, and a clause that has none is accepted.
-/
namespace RecordQuery

/-- Whether a text can be read for a field of the type: as a value or as the absence of one. -/
def Scalar.Reads (type : Scalar) (text : String) : Prop :=
  (type.ofText? text).isSome = true ∨ text = "null" ∧ type ≠ .string ∧ type ≠ .dateTime

theorem Scalar.exists_literal_of_reads {type : Scalar} {text : String} (h : type.Reads text) (field : String) :
    ∃ literal, type.literal field text = .ok literal := by
  rw [Reads, ← hasNull_iff] at h
  rw [literal]
  split
  · exact ⟨none, rfl⟩
  · rename_i hnot
    rcases h with hsome | ⟨rfl, hnull⟩
    · obtain ⟨value, hvalue⟩ := Option.isSome_iff_exists.mp hsome
      exact ⟨some value, by rw [hvalue]⟩
    · exact absurd (by simp [hnull, null]) hnot

theorem Scalar.literal_of_not_reads {type : Scalar} {text : String} (h : ¬ type.Reads text) (field : String) :
    type.literal field text = .error (.invalidLiteral field text type) := by
  rw [Reads, not_or, ← hasNull_iff] at h
  obtain ⟨hnone, hnull⟩ := h
  rw [Option.not_isSome_iff_eq_none] at hnone
  rw [literal, hnone, if_neg]
  intro hand
  rw [Bool.and_eq_true, decide_eq_true_iff] at hand
  exact hnull hand.symm

theorem Scalar.reads_string (text : String) : Scalar.Reads .string text := .inl rfl

namespace Filter

variable {ρ : Type}

namespace Operator

theorem ofWord?_eq_member_iff {word : String} : ofWord? word = some .member ↔ word = "in" := by
  constructor
  · intro h
    obtain ⟨entry, hentry, hmember⟩ := Option.map_eq_some_iff.mp h
    have hword : entry.2 = word := by simpa using List.find?_some hentry
    have hnames : ∀ entry ∈ names ++ aliases, entry.1 = .member → entry.2 = "in" := by decide
    rw [← hword]
    exact hnames entry (List.mem_of_find?_eq_some hentry) hmember
  · rintro rfl
    rfl

end Operator

namespace Clause

/-- Whether the operator of the clause is a word for one that the type has. -/
def HasOperator (c : Clause) (type : FieldType) : Prop :=
  ∃ op, Operator.ofWord? c.operator = some op ∧ type.supports op = true

/-- Whether the operand is of the kind that the operator takes on a scalar field: items behind `in`, and otherwise a
literal. -/
def HasOperand (c : Clause) : Prop :=
  match c.operand with
  | .array _ => c.operator = "in"
  | .literal _ => c.operator ≠ "in"
  | .nested _ => False

/-- The texts that a clause over a scalar field reads, in their order. -/
def texts (c : Clause) : List String :=
  match c.operand with
  | .array items => items
  | .literal text => [text]
  | .nested _ => []

/-- The verdicts on a clause. -/
inductive Verdict (registry : Registry ρ) (nesting : Nesting) (c : Clause) : Except QueryError Unit → Prop
  | unknownField (hget : registry.get? c.field = none) :
      Verdict registry nesting c (.error (.unknownField c.field))
  | unsupportedOperator {field : Field ρ} (hget : registry.get? c.field = some field)
      (hoperator : ¬ c.HasOperator field.type) :
      Verdict registry nesting c (.error (.unsupportedOperator c.field c.operator field.type))
  | unsupportedOperand {type : Scalar} {read : ρ → type.Cell} (hget : registry.get? c.field = some (.scalar type read))
      (hoperator : c.HasOperator (.scalar type)) (hoperand : ¬ c.HasOperand) :
      Verdict registry nesting c (.error (.unsupportedOperator c.field c.operator (.scalar type)))
  | expectedChildQuery {children : ρ → List ρ} {related : Registry ρ}
      (hget : registry.get? c.field = some (.relation children related)) (hoperator : c.HasOperator .relation)
      (hoperand : ∀ query, c.operand ≠ .nested query) :
      Verdict registry nesting c (.error (.expectedChildQuery c.field))
  | nestingTooDeep {children : ρ → List ρ} {related : Registry ρ} {query : String}
      (hget : registry.get? c.field = some (.relation children related)) (hoperator : c.HasOperator .relation)
      (hoperand : c.operand = .nested query) (hdepth : nesting.limit ≤ nesting.depth) :
      Verdict registry nesting c (.error (.nestingTooDeep nesting.limit))
  | childQuery {children : ρ → List ρ} {related : Registry ρ} {query : String}
      (hget : registry.get? c.field = some (.relation children related)) (hoperator : c.HasOperator .relation)
      (hoperand : c.operand = .nested query) (hdepth : nesting.depth < nesting.limit) :
      Verdict registry nesting c (outcome (compileAt related ⟨nesting.depth + 1, nesting.limit⟩ query))
  | invalidLiteral {type : Scalar} {read : ρ → type.Cell} {before behind : List String} {text : String}
      (hget : registry.get? c.field = some (.scalar type read)) (hoperator : c.HasOperator (.scalar type))
      (hoperand : c.HasOperand) (htype : type ≠ .string) (htexts : c.texts = before ++ text :: behind)
      (hbefore : ∀ t ∈ before, type.Reads t) (htext : ¬ type.Reads text) :
      Verdict registry nesting c (.error (.invalidLiteral c.field text type))
  | accepted {type : Scalar} {read : ρ → type.Cell} (hget : registry.get? c.field = some (.scalar type read))
      (hoperator : c.HasOperator (.scalar type)) (hoperand : c.HasOperand)
      (htexts : ∀ t ∈ c.texts, type.Reads t) :
      Verdict registry nesting c (.ok ())

variable {registry : Registry ρ} {nesting : Nesting} {c : Clause}

/-! ## Operators and operands -/

theorem operatorOn_of_not_hasOperator {type : FieldType} (h : ¬ c.HasOperator type) :
    c.operatorOn type = .error (c.unsupported type) := by
  unfold operatorOn
  split
  · rename_i op hword
    exact if_neg fun hsupports => h ⟨op, hword, hsupports⟩
  · rfl

/-- On a relation the operators are the quantifiers. -/
theorem HasOperator.exists_quantifier (h : c.HasOperator .relation) :
    ∃ quantifier, c.operatorOn .relation = .ok (.quantify quantifier) := by
  obtain ⟨op, hword, hsupports⟩ := h
  cases op with
  | quantify quantifier => exact ⟨quantifier, operatorOn_eq_ok hword hsupports⟩
  | compare _ | member | text _ => cases hsupports

/-- An operator that the type has refuses an operand of a kind that it does not take. -/
theorem test_of_not_hasOperand {type : Scalar} (hoperator : c.HasOperator (.scalar type)) (h : ¬ c.HasOperand) :
    c.test type = .error (c.unsupported (.scalar type)) := by
  obtain ⟨op, hword, hsupports⟩ := hoperator
  have hmember : op = .member ↔ c.operator = "in" := by
    rw [← Operator.ofWord?_eq_member_iff, hword, Option.some_inj]
  rw [test, operatorOn_eq_ok hword hsupports]
  obtain ⟨field, operator, operand⟩ := c
  cases operand with
  | literal text =>
    obtain rfl := hmember.mpr (not_not.mp h)
    rfl
  | array items =>
    have hne : op ≠ .member := fun heq => h (hmember.mp heq)
    cases op with
    | member => exact absurd rfl hne
    | compare _ | text _ | quantify _ => rfl
  | nested query => cases op <;> rfl

/-- An operator that takes its operand fails exactly as the reading of the operand's texts does. -/
theorem outcome_test {type : Scalar} (hoperator : c.HasOperator (.scalar type)) (h : c.HasOperand) :
    outcome (c.test type) = outcome (c.texts.mapM (type.literal c.field)) := by
  obtain ⟨op, hword, hsupports⟩ := hoperator
  have hmember : op = .member ↔ c.operator = "in" := by
    rw [← Operator.ofWord?_eq_member_iff, hword, Option.some_inj]
  rw [test, operatorOn_eq_ok hword hsupports]
  obtain ⟨field, operator, operand⟩ := c
  cases operand with
  | nested query => cases h
  | array items =>
    obtain rfl := hmember.mpr h
    show outcome ((items.mapM (type.literal field)).bind fun literals => .ok (isOneOf type literals)) =
      outcome (items.mapM (type.literal field))
    cases items.mapM (type.literal field) <;> rfl
  | literal text =>
    have hne : op ≠ .member := fun heq => h (hmember.mp heq)
    show _ = outcome ([text].mapM (type.literal field))
    rw [List.mapM_cons]
    cases op with
    | member => exact absurd rfl hne
    | compare comparison =>
      show outcome ((type.literal field text).bind fun literal => .ok _) = _
      cases type.literal field text <;> rfl
    | text test =>
      -- tests on text are for the type whose literals can all be read
      cases type with
      | string => rfl
      | _ => cases hsupports
    | quantify quantifier => cases type <;> cases hsupports

/-! ## Verdicts -/

theorem outcome_of_scalar {type : Scalar} {read : ρ → type.Cell}
    (hget : registry.get? c.field = some (.scalar type read)) :
    outcome (compileClause registry nesting c) = outcome (c.test type) := by
  rw [compileClause_scalar hget]
  cases c.test type <;> rfl

theorem compileClause_of_not_hasOperator {field : Field ρ} (hget : registry.get? c.field = some field)
    (h : ¬ c.HasOperator field.type) : compileClause registry nesting c = .error (c.unsupported field.type) := by
  have hop := operatorOn_of_not_hasOperator h
  cases field with
  | scalar type read =>
    rw [compileClause_scalar hget, test, show c.operatorOn (.scalar type) = _ from hop]
    rfl
  | relation children related =>
    rw [compileClause, compileTerm, Term.resolve, resolve, hget]
    simp only [show c.operatorOn .relation = _ from hop]
    rfl

theorem compileClause_of_ne_nested {children : ρ → List ρ} {related : Registry ρ} {quantifier : Quantifier}
    (hget : registry.get? c.field = some (.relation children related))
    (hop : c.operatorOn .relation = .ok (.quantify quantifier)) (hoperand : ∀ query, c.operand ≠ .nested query) :
    compileClause registry nesting c = .error (.expectedChildQuery c.field) := by
  rw [compileClause, compileTerm, Term.resolve, resolve, hget]
  obtain ⟨field, operator, operand⟩ := c
  simp only [hop]
  cases operand with
  | nested query => exact absurd rfl (hoperand query)
  | literal _ | array _ => rfl

theorem Verdict.outcome_eq {r : Except QueryError Unit} (h : Verdict registry nesting c r) :
    outcome (compileClause registry nesting c) = r := by
  cases h with
  | unknownField hget =>
    rw [compileClause, compileTerm_of_get?_eq_none hget]
    rfl
  | unsupportedOperator hget hoperator =>
    rw [compileClause_of_not_hasOperator hget hoperator]
    rfl
  | unsupportedOperand hget hoperator hoperand =>
    rw [outcome_of_scalar hget, test_of_not_hasOperand hoperator hoperand]
    rfl
  | expectedChildQuery hget hoperator hoperand =>
    obtain ⟨quantifier, hquantifier⟩ := hoperator.exists_quantifier
    rw [compileClause_of_ne_nested hget hquantifier hoperand]
    rfl
  | nestingTooDeep hget hoperator hoperand hdepth =>
    obtain ⟨quantifier, hquantifier⟩ := hoperator.exists_quantifier
    rw [compileClause, compileTerm_quantified hget hquantifier hoperand, Nesting.descend, if_neg (Nat.not_lt.mpr hdepth)]
    rfl
  | @childQuery children related query hget hoperator hoperand hdepth =>
    obtain ⟨quantifier, hquantifier⟩ := hoperator.exists_quantifier
    rw [compileClause, compileTerm_quantified hget hquantifier hoperand, Nesting.descend, if_pos hdepth]
    show outcome ((compileAt related _ query).map _) = _
    cases compileAt related ⟨nesting.depth + 1, nesting.limit⟩ query <;> rfl
  | @invalidLiteral type read before behind text hget hoperator hoperand htype htexts hbefore htext =>
    have hfault : c.texts.mapM (type.literal c.field) = .error (.invalidLiteral c.field text type) :=
      mapM_eq_error_iff.mpr ⟨before, text, behind, htexts, Scalar.literal_of_not_reads htext c.field,
        fun t ht => Scalar.exists_literal_of_reads (hbefore t ht) c.field⟩
    rw [outcome_of_scalar hget, outcome_test hoperator hoperand, hfault]
    rfl
  | @accepted type read hget hoperator hoperand htexts =>
    obtain ⟨literals, hliterals⟩ : ∃ literals, c.texts.mapM (type.literal c.field) = .ok literals :=
      exists_mapM_iff.mpr fun t ht => Scalar.exists_literal_of_reads (htexts t ht) c.field
    rw [outcome_of_scalar hget, outcome_test hoperator hoperand, hliterals]
    rfl

/-- Of the texts of a list either all can be read, or there is a first one that cannot. -/
theorem exists_first_unread (type : Scalar) (texts : List String) : (∀ t ∈ texts, type.Reads t) ∨
    ∃ before text behind, texts = before ++ text :: behind ∧ (∀ t ∈ before, type.Reads t) ∧ ¬ type.Reads text := by
  induction texts with
  | nil => exact .inl (by simp)
  | cons first texts ih =>
    by_cases hfirst : type.Reads first
    · rcases ih with hall | ⟨before, text, behind, rfl, hbefore, htext⟩
      · exact .inl (List.forall_mem_cons.mpr ⟨hfirst, hall⟩)
      · exact .inr ⟨first :: before, text, behind, rfl, List.forall_mem_cons.mpr ⟨hfirst, hbefore⟩, htext⟩
    · exact .inr ⟨[], first, texts, rfl, by simp, hfirst⟩

theorem exists_verdict (registry : Registry ρ) (nesting : Nesting) (c : Clause) :
    ∃ r, Verdict registry nesting c r := by
  cases hget : registry.get? c.field with
  | none => exact ⟨_, .unknownField hget⟩
  | some field =>
    by_cases hoperator : c.HasOperator field.type
    · cases field with
      | scalar type read =>
        by_cases hoperand : c.HasOperand
        · rcases exists_first_unread type c.texts with htexts | ⟨before, text, behind, htexts, hbefore, htext⟩
          · exact ⟨_, .accepted hget hoperator hoperand htexts⟩
          · have htype : type ≠ .string := by
              rintro rfl
              exact htext (Scalar.reads_string text)
            exact ⟨_, .invalidLiteral hget hoperator hoperand htype htexts hbefore htext⟩
        · exact ⟨_, .unsupportedOperand hget hoperator hoperand⟩
      | relation children related =>
        by_cases hoperand : ∃ query, c.operand = .nested query
        · obtain ⟨query, hquery⟩ := hoperand
          rcases Nat.lt_or_ge nesting.depth nesting.limit with hdepth | hdepth
          · exact ⟨_, .childQuery hget hoperator hquery hdepth⟩
          · exact ⟨_, .nestingTooDeep hget hoperator hquery hdepth⟩
        · exact ⟨_, .expectedChildQuery hget hoperator (not_exists.mp hoperand)⟩
    · exact ⟨_, .unsupportedOperator hget hoperator⟩

end Clause

/-- A clause has exactly one verdict, and it is what the clause comes to: the first fault in the order of the verdicts,
or acceptance. The query about related records decides for itself when its turn has come, and its test is then lifted by
the quantifier. -/
theorem compileClause_verdict (registry : Registry ρ) (nesting : Nesting) (c : Clause) :
    (∀ r, outcome (compileClause registry nesting c) = r ↔ c.Verdict registry nesting r) ∧
      ∀ children related query quantifier, registry.get? c.field = some (.relation children related) →
        Operator.ofWord? c.operator = some (.quantify quantifier) → c.operand = .nested query →
        nesting.depth < nesting.limit → compileClause registry nesting c =
          (compileAt related ⟨nesting.depth + 1, nesting.limit⟩ query).map
            fun test record => quantifier.holds (children record) test := by
  constructor
  · intro r
    constructor
    · rintro rfl
      obtain ⟨r, hr⟩ := c.exists_verdict registry nesting
      rw [hr.outcome_eq]
      exact hr
    · exact fun h => h.outcome_eq
  · intro children related query quantifier hget hword hoperand hdepth
    have hoperator : c.operatorOn .relation = .ok (.quantify quantifier) := Clause.operatorOn_eq_ok hword rfl
    rw [compileClause, compileTerm_quantified hget hoperator hoperand, Nesting.descend, if_pos hdepth]
    rfl

/-- A query about tags that names a field which is none of theirs is not looked at where no level is left for it. A
clause about a count reports the first of its items that is no number. -/
theorem compileClause_verdict_tags :
    let tags : Registry Unit := ⟨[("Label", .scalar .string fun _ => "")]⟩
    let registry : Registry Unit := ⟨[("Count", .scalar .int fun _ => 0), ("Tags", .relation (fun _ => []) tags)]⟩
    let query : Clause := ⟨"Tags", "all", .nested "Count equals 1"⟩
    outcome (compileClause registry ⟨1, 1⟩ query) = .error (.nestingTooDeep 1) ∧
      outcome (compileClause registry ⟨0, 1⟩ query) = outcome (compileAt tags ⟨1, 1⟩ "Count equals 1") ∧
      compileClause registry ⟨0, 1⟩ query = (compileAt tags ⟨1, 1⟩ "Count equals 1").map
        (fun test _ => Quantifier.all.holds [] test) ∧
      outcome (compileClause registry ⟨0, 0⟩ ⟨"Count", "in", .array ["1", "null", "one", "two"]⟩) =
        .error (.invalidLiteral "Count" "one" .int) := by
  intro tags registry query
  have hget : registry.get? "Tags" = some (.relation (fun _ => []) tags) := rfl
  have hall : query.HasOperator .relation := ⟨.quantify .all, rfl, rfl⟩
  have hread : ∀ t ∈ ["1", "null"], Scalar.Reads .int t := by
    rw [List.forall_mem_cons, List.forall_mem_singleton]
    exact ⟨.inl (by decide +kernel), .inr (by decide)⟩
  have hone : ¬ Scalar.Reads .int "one" := by
    rintro (hsome | ⟨hnull, -⟩)
    · revert hsome
      decide +kernel
    · revert hnull
      decide
  refine ⟨?_, ?_, ?_, ?_⟩
  · exact ((compileClause_verdict registry ⟨1, 1⟩ query).1 _).mpr (.nestingTooDeep hget hall rfl (Nat.le_refl 1))
  · exact ((compileClause_verdict registry ⟨0, 1⟩ query).1 _).mpr (.childQuery hget hall rfl Nat.zero_lt_one)
  · exact (compileClause_verdict registry ⟨0, 1⟩ query).2 _ _ _ .all hget rfl rfl Nat.zero_lt_one
  · have htexts : ["1", "null", "one", "two"] = ["1", "null"] ++ "one" :: ["two"] := rfl
    exact ((compileClause_verdict registry ⟨0, 0⟩ _).1 _).mpr
      (.invalidLiteral rfl ⟨.member, rfl, rfl⟩ rfl (by decide) htexts hread hone)

end Filter

end RecordQuery
