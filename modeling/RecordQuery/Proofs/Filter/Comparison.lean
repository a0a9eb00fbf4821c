import RecordQuery.Proofs.Filter.Composition

/-!
Comparing what may be absent. Where a record has a value and the literal is one too, the value stands before, at or
behind it, and the other two comparisons are what is left when one of these is ruled out. Where one of the two is
missing no comparison is true, so that a record without a value is found neither by a comparison nor by its opposite;
where both are missing they are equal and nothing else. So `not` in front of a comparison is the opposite comparison
only for the records that have a value, which on a type that is not optional are all of them.
-/
namespace RecordQuery

/-! ## Values and literals -/

namespace Scalar

/-- A cell of a type that is not optional holds a value. -/
theorem isSome_value? {type : Scalar} (h : type ∈ [string, int, decimal, dateTime]) (cell : type.Cell) :
    (type.value? cell).isSome = true := by
  cases type with
  | string | int | decimal | dateTime => rfl
  | optionalInt | optionalDecimal | optionalBool | optionalDateTime => simp at h

theorem hasNull_iff (type : Scalar) : type.hasNull = true ↔ type ≠ .string ∧ type ≠ .dateTime := by
  cases type <;> simp [hasNull]

theorem literal_eq_ok_none_iff {type : Scalar} {field text : String} :
    type.literal field text = .ok none ↔ text = null ∧ type ≠ .string ∧ type ≠ .dateTime := by
  rw [← hasNull_iff, literal]
  split
  · rename_i h
    simpa [and_comm] using h
  · rename_i h
    have hnot : ¬ (text = null ∧ type.hasNull = true) := by simpa [and_comm] using h
    split <;> simp [hnot]

theorem literal_dateTime_null (field : String) :
    Scalar.literal .dateTime field null = .error (.invalidLiteral field null .dateTime) := by
  have hnone : Scalar.ofText? .dateTime null = none := by decide +kernel
  rw [literal, hnone]
  rfl

end Scalar

namespace Filter

namespace Comparison

/-- The comparison that tells which order two things are in. -/
def ofOrder : Ordering → Comparison
  | .lt => lessThan
  | .eq => equals
  | .gt => greaterThan

theorem admits_iff_ofOrder (c : Comparison) (o : Ordering) :
    c ∈ [lessThan, equals, greaterThan] ∧ c.admits o = true ↔ c = ofOrder o := by
  cases o <;> cases c <;> decide

theorem lessThanOrEquals_admits (o : Ordering) : lessThanOrEquals.admits o = !greaterThan.admits o := by
  cases o <;> rfl

theorem greaterThanOrEquals_admits (o : Ordering) : greaterThanOrEquals.admits o = !lessThan.admits o := by
  cases o <;> rfl

end Comparison

open Comparison

/-- What the comparisons of a value with a literal can be, by which of the two are there. -/
structure ThreeValued (value literal : Bool) (holds : Comparison → Bool) : Prop where
  trichotomy : value = true → literal = true → ∃! c, c ∈ [lessThan, equals, greaterThan] ∧ holds c = true
  lessThanOrEquals_iff : value = true → literal = true →
    (holds lessThanOrEquals = true ↔ ¬ holds greaterThan = true)
  greaterThanOrEquals_iff : value = true → literal = true →
    (holds greaterThanOrEquals = true ↔ ¬ holds lessThan = true)
  one_absent : value ≠ literal → ∀ c, ¬ holds c = true
  both_absent : value = false → literal = false → ∀ c, holds c = true ↔ c = equals

variable {ρ : Type} {type : Scalar}

namespace Clause

theorem compareScalar_threeValued (type : Scalar) (value literal : Option type.Value) :
    ThreeValued value.isSome literal.isSome fun c => compareScalar type c value literal := by
  cases value with
  | none =>
    cases literal with
    | none => constructor <;> simp [compareScalar, holds]
    | some w => constructor <;> simp [compareScalar, holds]
  | some v =>
    cases literal with
    | none => constructor <;> simp [compareScalar, holds]
    | some w =>
      have hadmits : ∀ c, compareScalar type c (some v) (some w) = c.admits (type.order v w) := fun c => rfl
      simp only [hadmits]
      constructor
      · intro _ _
        exact ⟨ofOrder (type.order v w), (admits_iff_ofOrder _ _).mpr rfl, fun c => (admits_iff_ofOrder c _).mp⟩
      · simp [lessThanOrEquals_admits]
      · simp [greaterThanOrEquals_admits]
      · simp
      · simp

theorem operatorOn_eq_ok {c : Clause} {type : FieldType} {op : Operator} (hword : Operator.ofWord? c.operator = some op)
    (h : type.supports op = true) : c.operatorOn type = .ok op := by
  simp [operatorOn, hword, h]

/-- A comparison reads its literal once, and then compares each value with it. -/
theorem test_compare {word : String} {c : Comparison} (hword : Operator.ofWord? word = some (.compare c))
    (h : (FieldType.scalar type).supports (.compare c) = true) (field text : String) :
    test ⟨field, word, .literal text⟩ type =
      (type.literal field text).map fun literal value => compareScalar type c value literal := by
  have hop : operatorOn ⟨field, word, .literal text⟩ (.scalar type) = .ok (.compare c) := operatorOn_eq_ok hword h
  rw [test, hop]
  simp only [bind, Except.bind]
  cases type.literal field text <;> rfl

end Clause

/-! ## Clauses -/

variable {registry : Registry ρ} {name : String} {read : ρ → type.Cell}

theorem compileClause_comparison (hget : registry.get? name = some (.scalar type read)) {word : String}
    {c : Comparison} (hword : Operator.ofWord? word = some (.compare c))
    (h : (FieldType.scalar type).supports (.compare c) = true) (text : String) (nesting : Nesting) :
    compileClause registry nesting ⟨name, word, .literal text⟩ = (type.literal name text).map fun literal record =>
      Clause.compareScalar type c (type.value? (read record)) literal := by
  rw [compileClause_scalar hget, Clause.test_compare hword h]
  cases type.literal name text <;> rfl

/-- A text that is a single clause means what the clause means. -/
theorem compileAt_of_scan_clause {nesting : Nesting} {text : String} {c : Clause}
    (h : scan text = .ok [⟨⟨none, none⟩, .clause c⟩]) :
    compileAt registry nesting text = compileClause registry nesting c := by
  rw [compileAt_eq_compileRow h, compileRow, compileClause]
  cases compileTerm registry nesting (.clause c) <;> rfl

/-- Three-valued logic in full: for any type that has the comparisons, any literal that can be read and any record, the
comparisons are those of two things of which either may be absent. The literal `null` is the absent one, but among text
it is text, and a type `dateTime` does not take it. A type that is not optional has a value in every record; so the
text `not` in front of `greaterThanOrEquals` differs from `lessThan` for the records that lack a value, and no others. -/
theorem compileClause_threeValued (hget : registry.get? name = some (.scalar type read))
    (htype : ∀ c, (FieldType.scalar type).supports (.compare c) = true) {text : String} {literal : Option type.Value}
    (hliteral : type.literal name text = .ok literal) :
    let present := fun record => (type.value? (read record)).isSome
    ∃ test : Comparison → Predicate ρ,
      (∀ c word, Operator.ofWord? word = some (.compare c) → ∀ nesting,
        compileClause registry nesting ⟨name, word, .literal text⟩ = .ok (test c)) ∧
      (∀ record, ThreeValued (present record) literal.isSome fun c => test c record) ∧
      (literal = none ↔ text = "null" ∧ type ≠ .string ∧ type ≠ .dateTime) ∧
      Scalar.literal .dateTime name "null" = .error (.invalidLiteral name "null" .dateTime) ∧
      (type ∈ [.string, .int, .decimal, .dateTime] → ∀ record, present record = true) ∧
      ∀ atLeast less, Operator.ofWord? atLeast = some (.compare .greaterThanOrEquals) →
        Operator.ofWord? less = some (.compare .lessThan) → ∀ t t' limit,
        scan t = .ok [⟨⟨none, none⟩, .clause ⟨name, atLeast, .literal text⟩⟩] →
        scan t' = .ok [⟨⟨none, none⟩, .clause ⟨name, less, .literal text⟩⟩] →
        ∃ p q, compile registry limit ("not " ++ t) = .ok p ∧ compile registry limit t' = .ok q ∧
          (literal ≠ none → ∀ record, p record ≠ q record ↔ present record = false) := by
  intro present
  let test : Comparison → Predicate ρ := fun c record =>
    Clause.compareScalar type c (type.value? (read record)) literal
  have hcompile : ∀ c word, Operator.ofWord? word = some (.compare c) → ∀ nesting,
      compileClause registry nesting ⟨name, word, .literal text⟩ = .ok (test c) := by
    intro c word hword nesting
    rw [compileClause_comparison hget hword (htype c), hliteral]
    rfl
  have hlaw : ∀ record, ThreeValued (present record) literal.isSome fun c => test c record :=
    fun record => Clause.compareScalar_threeValued type _ literal
  refine ⟨test, hcompile, hlaw, ?_, Scalar.literal_dateTime_null name, ?_, ?_⟩
  · have hnone : literal = none ↔ type.literal name text = .ok none := by simp [hliteral]
    exact hnone.trans Scalar.literal_eq_ok_none_iff
  · intro h record
    exact Scalar.isSome_value? h (read record)
  · intro atLeast less hatLeast hless t t' limit hscan hscan'
    refine ⟨negate (test .greaterThanOrEquals), test .lessThan, ?_, ?_, ?_⟩
    · rw [compile, compileAt_not hscan, compileAt_of_scan_clause hscan, hcompile _ _ hatLeast]
      rfl
    · rw [compile, compileAt_of_scan_clause hscan', hcompile _ _ hless]
    · intro hne record
      have hsome : literal.isSome = true := Option.isSome_iff_ne_none.mpr hne
      cases hpresent : present record with
      | true =>
        have hnot : test .greaterThanOrEquals record = !test .lessThan record := by
          rw [Bool.eq_iff_iff, (hlaw record).greaterThanOrEquals_iff hpresent hsome]
          simp
        simp [negate, hnot]
      | false =>
        have habsent := (hlaw record).one_absent (by simp [hpresent, hsome])
        simp [negate, habsent]

/-- Of three records one lacks an age. It is neither below thirty nor at least thirty, so that only the text `not` finds
it. An absent literal equals its age, and no comparison with one finds the others. -/
theorem compileClause_threeValued_ages :
    let registry : Registry (Option Int) := ⟨[("Age", .scalar .optionalInt id)]⟩
    let clause := fun word text => compileClause registry (.ofLimit 0) ⟨"Age", word, .literal text⟩
    (∃ below notAtLeast, compile registry 0 "Age lessThan 30" = .ok below ∧
      compile registry 0 "not Age greaterThanOrEqual '30'" = .ok notAtLeast ∧
      notAtLeast none ≠ below none ∧ notAtLeast (some 20) = below (some 20) ∧
      notAtLeast (some 30) = below (some 30)) ∧
    ∃ equal atMost, clause "equals" "null" = .ok equal ∧ clause "lessThanOrEquals" "null" = .ok atMost ∧
      equal none = true ∧ ¬ atMost none = true ∧ ¬ equal (some 20) = true := by
  intro registry clause
  have hget : registry.get? "Age" = some (.scalar .optionalInt id) := rfl
  have htype : ∀ c, (FieldType.scalar .optionalInt).supports (.compare c) = true := fun c => rfl
  have hthirty : Scalar.literal .optionalInt "Age" "30" = .ok (some 30) := by decide +kernel
  have hnull : Scalar.literal .optionalInt "Age" "null" = .ok none := rfl
  have hscan : scan "Age greaterThanOrEqual '30'" =
      .ok [⟨⟨none, none⟩, .clause ⟨"Age", "greaterThanOrEqual", .literal "30"⟩⟩] := by decide +kernel
  have hscan' : scan "Age lessThan 30" = .ok [⟨⟨none, none⟩, .clause ⟨"Age", "lessThan", .literal "30"⟩⟩] := by
    decide +kernel
  constructor
  · obtain ⟨-, -, -, -, -, -, hnot⟩ := compileClause_threeValued hget htype hthirty
    obtain ⟨p, q, hp, hq, hdiffer⟩ := hnot _ _ rfl rfl _ _ 0 hscan hscan'
    have hdiffer := hdiffer (by simp)
    have hsame : ∀ age : Int, p (some age) = q (some age) := by
      intro age
      by_contra hne
      cases (hdiffer (some age)).mp hne
    exact ⟨q, p, hq, hp, (hdiffer none).mpr rfl, hsame 20, hsame 30⟩
  · obtain ⟨test, hcompile, hlaw, -⟩ := compileClause_threeValued hget htype hnull
    refine ⟨test .equals, test .lessThanOrEquals, hcompile _ _ rfl _, hcompile _ _ rfl _, ?_, ?_, ?_⟩
    · exact ((hlaw none).both_absent rfl rfl .equals).mpr rfl
    · simpa using ((hlaw none).both_absent rfl rfl .lessThanOrEquals).not
    · exact (hlaw (some 20)).one_absent (by decide) .equals

end Filter

end RecordQuery
