import RecordQuery.Proofs.Filter.Comparison
import RecordQuery.Proofs.Sorting.Order

/-!
Membership is made of equalities. A value is in an array by the equality of values, while the clause `equals` asks for
the order of the value and its literal, with rules of its own for what is absent. The two come to the same: values are
equal just when the order finds them so, and what is absent equals what is absent and nothing else. So an array is read
as the row of its items, and a value is in it if one of the clauses about the items is true.
-/
namespace RecordQuery

theorem Scalar.equal_eq (type : Scalar) (a b : type.Value) : type.equal a b = (type.order a b).isEq := by
  have hiff : ∀ {α : Type} [Ord α] [Std.LawfulEqOrd α] [DecidableEq α] (a b : α),
      decide (a = b) = (compare a b).isEq := by
    intro α _ _ _ a b
    rw [Bool.eq_iff_iff, decide_eq_true_iff, Ordering.isEq_iff_eq_eq]
    exact Std.LawfulEqOrd.compare_eq_iff_eq.symm
  cases type with
  | decimal | optionalDecimal => rfl
  | _ => exact hiff a b

namespace Filter

variable {ρ : Type} {type : Scalar}

namespace Clause

/-- Equality with one of the items is the comparison `equals` with one of them. -/
theorem isOneOf_eq (type : Scalar) (others : List (Option type.Value)) (value : Option type.Value) :
    isOneOf type others value = others.any (compareScalar type .equals value) := by
  unfold isOneOf
  congr 1
  funext other
  cases value with
  | none => cases other <;> rfl
  | some value =>
    cases other with
    | none => rfl
    | some other => exact type.equal_eq value other

theorem test_equals (h : (FieldType.scalar type).supports (.compare .equals) = true) (field text : String) :
    test ⟨field, "equals", .literal text⟩ type =
      (type.literal field text).map fun literal value => compareScalar type .equals value literal :=
  test_compare rfl h field text

theorem test_in (h : (FieldType.scalar type).supports .member = true) (field : String) (items : List String) :
    test ⟨field, "in", .array items⟩ type = (items.mapM (type.literal field)).map (isOneOf type) := by
  have hop : operatorOn ⟨field, "in", .array items⟩ (.scalar type) = .ok .member := operatorOn_eq_ok rfl h
  rw [test, hop]
  simp only [bind, Except.bind]
  cases items.mapM (type.literal field) <;> rfl

end Clause

/-- The types that have membership have equality. -/
theorem supports_equals (h : (FieldType.scalar type).supports .member = true) :
    (FieldType.scalar type).supports (.compare .equals) = true := by
  cases type <;> rfl

variable {registry : Registry ρ} {name : String} {read : ρ → type.Cell}

/-- An array stands for the clauses about its items, which are compiled one after another. -/
theorem compileClause_in_eq (hget : registry.get? name = some (.scalar type read))
    (h : (FieldType.scalar type).supports .member = true) (items : List String) (nesting : Nesting) :
    compileClause registry nesting ⟨name, "in", .array items⟩ =
      (items.mapM fun item => compileClause registry nesting ⟨name, "equals", .literal item⟩).map
        fun tests record => tests.any fun test => test record := by
  have hequals : ∀ item, compileClause registry nesting ⟨name, "equals", .literal item⟩ =
      (type.literal name item).map fun literal record =>
        Clause.compareScalar type .equals (type.value? (read record)) literal :=
    fun item => compileClause_comparison hget rfl (supports_equals h) item nesting
  rw [compileClause_scalar hget, Clause.test_in h]
  simp only [hequals, mapM_map]
  cases items.mapM (type.literal name) with
  | error fault => rfl
  | ok literals => simp only [Except.map, Clause.isOneOf_eq, List.any_map, Function.comp_def]

/-- Membership is the disjunction of equalities. The clause about an array compiles just when the clauses `equals` about
all of its items do, whatever stands in it: nothing, an item twice, or `null`. It is then true of the records of which
one of those is true, and otherwise it has the fault of the first of them that fails. -/
theorem compileClause_in (hget : registry.get? name = some (.scalar type read))
    (htype : type ∈ [.string, .int, .optionalInt, .decimal, .optionalDecimal]) (items : List String)
    (nesting : Nesting) :
    let equals := fun item => compileClause registry nesting ⟨name, "equals", .literal item⟩
    let member := compileClause registry nesting ⟨name, "in", .array items⟩
    ((∃ p, member = .ok p) ↔ ∀ item ∈ items, ∃ q, equals item = .ok q) ∧
      (∀ p, member = .ok p → ∀ record, p record = true ↔ ∃ item ∈ items, ∃ q, equals item = .ok q ∧ q record = true) ∧
      ∀ fault, member = .error fault ↔ ∃ before item behind, items = before ++ item :: behind ∧
        equals item = .error fault ∧ ∀ item ∈ before, ∃ q, equals item = .ok q := by
  intro equals member
  have hmember : ∀ type ∈ [Scalar.string, .int, .optionalInt, .decimal, .optionalDecimal],
      (FieldType.scalar type).supports .member = true := by decide
  have heq : member = (items.mapM equals).map fun tests record => tests.any fun test => test record :=
    compileClause_in_eq hget (hmember type htype) items nesting
  refine ⟨?_, ?_, ?_⟩
  · rw [← exists_mapM_iff, heq]
    cases items.mapM equals <;> simp [Except.map]
  · intro p hp record
    obtain ⟨tests, htests, rfl⟩ := exists_of_map_eq_ok (heq.symm.trans hp)
    simp only [any_of_mapM htests, List.any_eq_true]
    refine exists_congr fun item => and_congr_right fun _ => ?_
    cases equals item <;> simp [Except.toOption]
  · intro fault
    rw [← mapM_eq_error_iff, heq]
    cases items.mapM equals <;> simp [Except.map]

/-- The price `2.5` is in an array where it stands with another scale. The item `null` is no price, and no fault
either; of two items that are faults the first one is reported. -/
theorem compileClause_in_prices :
    let registry : Registry Decimal := ⟨[("Price", .scalar .decimal id)]⟩
    let member := fun items => compileClause registry (.ofLimit 0) ⟨"Price", "in", .array items⟩
    (∃ p, member ["null", "2.50"] = .ok p ∧ p ⟨false, 25, 1⟩ = true ∧ ¬ p ⟨false, 0, 0⟩ = true) ∧
      member ["2.50", "cheap", "dear"] = .error (.invalidLiteral "Price" "cheap" .decimal) := by
  intro registry member
  have hget : registry.get? "Price" = some (.scalar .decimal id) := rfl
  have htype : Scalar.decimal ∈ [Scalar.string, .int, .optionalInt, .decimal, .optionalDecimal] := by decide
  have hequals : ∀ item, compileClause registry (.ofLimit 0) ⟨"Price", "equals", .literal item⟩ =
      (Scalar.literal .decimal "Price" item).map fun literal price =>
        Clause.compareScalar .decimal .equals (some price) literal := by
    intro item
    rw [compileClause_scalar hget, Clause.test_equals rfl]
    cases Scalar.literal .decimal "Price" item <;> rfl
  have hliteral : Scalar.literal .decimal "Price" "2.50" = .ok (some ⟨false, 250, 2⟩) := by decide +kernel
  have hfault : Scalar.literal .decimal "Price" "cheap" = .error (.invalidLiteral "Price" "cheap" .decimal) := by
    decide +kernel
  have hnull := hequals "null"
  have hprice := hequals "2.50"
  have hcheap := hequals "cheap"
  rw [hliteral] at hprice
  rw [hfault] at hcheap
  obtain ⟨haccepts, hmeans, -⟩ := compileClause_in hget htype ["null", "2.50"] (.ofLimit 0)
  obtain ⟨-, -, hfails⟩ := compileClause_in hget htype ["2.50", "cheap", "dear"] (.ofLimit 0)
  constructor
  · obtain ⟨p, hp⟩ := haccepts.mpr (List.forall_mem_cons.mpr ⟨⟨_, hnull⟩, List.forall_mem_singleton.mpr ⟨_, hprice⟩⟩)
    refine ⟨p, hp, (hmeans p hp _).mpr ⟨"2.50", by simp, _, hprice, by decide +kernel⟩, ?_⟩
    rw [hmeans p hp]
    rintro ⟨item, hitem, q, hq, htrue⟩
    rcases List.mem_pair.mp hitem with rfl | rfl
    · obtain rfl := Except.ok.inj (hnull.symm.trans hq)
      cases htrue
    · obtain rfl := Except.ok.inj (hprice.symm.trans hq)
      revert htrue
      decide +kernel
  · exact (hfails _).mpr ⟨["2.50"], "cheap", ["dear"], rfl, hcheap, List.forall_mem_singleton.mpr ⟨_, hprice⟩⟩

end Filter

end RecordQuery
