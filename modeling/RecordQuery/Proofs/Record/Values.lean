import RecordQuery.Proofs.Filter.Membership
import RecordQuery.Proofs.Filter.Verdict
import RecordQuery.Proofs.Record.Normal
import RecordQuery.Proofs.Sorting.Agreement

/-!
Literals that are values, and records that hold them. A literal that is read as a value is compared with what a record
holds; the clauses that ask for equality, with it alone or with one item of an array, find the records that hold it.
-/
namespace RecordQuery

namespace Scalar

variable {type : Scalar} {v : type.Value}

theorem ne_optionalBool_of_member (h : (FieldType.scalar type).supports .member = true) : type ≠ optionalBool := by
  rintro rfl
  cases h

/-- What a record holds in a field, if it stands there in the form of the type. -/
theorem value?_read {name : String} {record json : Json} (hrecord : record.get? name = some json)
    (hjson : type.ofJson? json = some v) : type.value? (type.read name record) = some v := by
  rw [read, hrecord, Option.bind_some, hjson, value?_cell]

/-- What is read as a value is not the literal `null`, unless for text. -/
theorem literal_of_ofText? {field text : String} (h : type.ofText? text = some v) :
    type.literal field text = .ok (some v) := by
  have hnull : ¬ (type.hasNull && text = null) = true := by
    intro hnull
    obtain ⟨hhas, rfl⟩ : type.hasNull = true ∧ text = null := by simpa using hnull
    have hnone : type.hasNull = true → type.ofText? null = none := by
      cases type <;> decide +kernel
    rw [hnone hhas] at h
    cases h
  rw [literal, if_neg hnull, h]

end Scalar

namespace Filter

variable {ρ : Type} {registry : Registry ρ} {name text : String} {type : Scalar} {read : ρ → type.Cell} {v : type.Value}

/-- Two literals that are read as one value can stand for each other, whatever the operator. The tests on text are for
text alone, which only one literal is read as. -/
theorem Clause.test_literal_congr {text' : String} (htext : type.ofText? text = some v)
    (htext' : type.ofText? text' = some v) (field word : String) :
    test ⟨field, word, .literal text⟩ type = test ⟨field, word, .literal text'⟩ type := by
  have hliteral : type.literal field text = type.literal field text' := by
    rw [Scalar.literal_of_ofText? htext, Scalar.literal_of_ofText? htext']
  have hpart : ∀ (textTest : TextTest) (value : Option type.Value),
      (value.bind type.text?).any (fun t => textTest.holds t text) =
        (value.bind type.text?).any fun t => textTest.holds t text' := by
    intro textTest value
    cases type with
    | string =>
      obtain rfl := Option.some.inj (htext.trans htext'.symm)
      rfl
    | _ => cases value <;> rfl
  have hop : operatorOn ⟨field, word, .literal text⟩ (.scalar type) =
      operatorOn ⟨field, word, .literal text'⟩ (.scalar type) := rfl
  rw [test, test, hop]
  cases operatorOn ⟨field, word, .literal text'⟩ (.scalar type) with
  | error fault => rfl
  | ok op =>
    cases op with
    | compare comparison =>
      exact congrArg (· >>= fun literal => .ok fun value => compareScalar type comparison value literal) hliteral
    | text textTest => exact congrArg Except.ok (funext (hpart textTest))
    | member | quantify quantifier => rfl

theorem compileClause_literal_congr {text' : String} (hget : registry.get? name = some (.scalar type read))
    (htext : type.ofText? text = some v) (htext' : type.ofText? text' = some v) (word : String) (nesting : Nesting) :
    compileClause registry nesting ⟨name, word, .literal text⟩ =
      compileClause registry nesting ⟨name, word, .literal text'⟩ := by
  rw [compileClause_scalar hget, compileClause_scalar hget, Clause.test_literal_congr htext htext']

/-- A comparison with a literal that is a value puts the values of records in order to it. -/
theorem compileClause_compare_value (hget : registry.get? name = some (.scalar type read))
    (htype : type ≠ .optionalBool) {word : String} {c : Comparison}
    (hword : Operator.ofWord? word = some (.compare c)) (htext : type.ofText? text = some v) (nesting : Nesting) :
    ∃ test, compileClause registry nesting ⟨name, word, .literal text⟩ = .ok test ∧
      ∀ record w, type.value? (read record) = some w → test record = c.admits (type.order w v) := by
  refine ⟨_, Sorting.compileClause_compare hget htype hword (Scalar.literal_of_ofText? htext) nesting, ?_⟩
  intro record w hrecord
  rw [hrecord, Option.any_some]

/-- A clause `equals` is true of the records that hold the value of its literal. -/
theorem compileClause_equals_value (hget : registry.get? name = some (.scalar type read))
    (htype : type ≠ .optionalBool) (htext : type.ofText? text = some v) (nesting : Nesting) :
    ∃ equal, compileClause registry nesting ⟨name, "equals", .literal text⟩ = .ok equal ∧
      ∀ record, type.value? (read record) = some v → equal record = true := by
  have hword : Operator.ofWord? "equals" = some (.compare .equals) := rfl
  obtain ⟨equal, hequal, hholds⟩ := compileClause_compare_value hget htype hword htext nesting
  refine ⟨equal, hequal, fun record hrecord => ?_⟩
  rw [hholds record v hrecord, (type.order_eq_eq_iff v v).mpr (by cases type <;> rfl)]
  rfl

/-- An array is true of the records that hold the value of one of its items. -/
theorem compileClause_in_value (hget : registry.get? name = some (.scalar type read))
    (htype : (FieldType.scalar type).supports .member = true) (htext : type.ofText? text = some v) {items : List String}
    (hitem : text ∈ items) (hitems : ∀ item ∈ items, type.Reads item) (nesting : Nesting) :
    ∃ member, compileClause registry nesting ⟨name, "in", .array items⟩ = .ok member ∧
      ∀ record, type.value? (read record) = some v → member record = true := by
  have hbool := Scalar.ne_optionalBool_of_member htype
  obtain ⟨equal, hequal, hholds⟩ := compileClause_equals_value hget hbool htext nesting
  have hall : ∀ item ∈ items, ∃ p, compileClause registry nesting ⟨name, "equals", .literal item⟩ = .ok p := by
    intro item hitem
    obtain ⟨literal, hliteral⟩ := Scalar.exists_literal_of_reads (hitems item hitem) name
    exact ⟨_, by rw [compileClause_comparison hget rfl (supports_equals htype), hliteral]; rfl⟩
  obtain ⟨tests, htests⟩ := exists_mapM_iff.mpr hall
  refine ⟨fun record => tests.any fun test => test record, ?_, fun record hrecord => ?_⟩
  · rw [compileClause_in_eq hget htype, htests]
    rfl
  · simp only [any_of_mapM htests, List.any_eq_true]
    refine ⟨text, hitem, ?_⟩
    rw [hequal]
    exact hholds record hrecord

end Filter

end RecordQuery
