import RecordQuery.Proofs.Filter.Membership
import RecordQuery.Proofs.Record.Normal
import RecordQuery.Proofs.Record.Refinement

/-!
Optional types. A type of numbers or of moments has an optional type beside it, with the same values, literals and
operators. So a schema may make a field optional: every query that could be asked can still be asked, and the records
that have a value there cannot tell the difference.
-/
namespace RecordQuery

/-! ## Types -/

namespace Scalar

/-- The type with the same values that lets a record have none. A type beside which there is no such type stands for
itself. -/
def optional : Scalar → Scalar
  | int => optionalInt
  | decimal => optionalDecimal
  | dateTime => optionalDateTime
  | type => type

/-- A value as one of the optional type. -/
def present : (type : Scalar) → type.Value → type.optional.Value
  | string, v | int, v | optionalInt, v | decimal, v | optionalDecimal, v | optionalBool, v | dateTime, v
  | optionalDateTime, v => v

variable {type : Scalar}

theorem supports_optional (type : Scalar) (op : Filter.Operator) :
    (FieldType.scalar type.optional).supports op = (FieldType.scalar type).supports op := by
  cases type <;> cases op <;> rfl

theorem order_present (a b : type.Value) : type.optional.order (type.present a) (type.present b) = type.order a b := by
  cases type <;> rfl

theorem text?_present (v : type.Value) : type.optional.text? (type.present v) = type.text? v := by
  cases type <;> rfl

theorem ofText?_optional (type : Scalar) (text : String) :
    type.optional.ofText? text = (type.ofText? text).map type.present := by
  cases type <;> exact Option.map_id'.symm

theorem ofJson?_optional (type : Scalar) (json : Json) :
    type.optional.ofJson? json = (type.ofJson? json).map type.present := by
  cases type with
  | int | decimal | dateTime =>
    cases json with
    | number n => cases n <;> exact Option.map_id'.symm
    | _ => exact Option.map_id'.symm
  | _ => exact Option.map_id'.symm

/-- A literal that is read for a type is read for the optional one. It is the other way round that `null` makes a
difference, which is no moment. -/
theorem literal_optional {field text : String} {v : Option type.Value} (h : type.literal field text = .ok v) :
    type.optional.literal field text = .ok (v.map type.present) := by
  by_cases hnull : text = null
  · subst hnull
    cases type with
    | dateTime =>
      have hnone : dateTime.ofText? null = none := by decide +kernel
      simp [literal, hasNull, hnone] at h
    | _ =>
      obtain rfl := Except.ok.inj h
      rfl
  · simp only [literal, hnull, decide_false, Bool.and_false, Bool.false_eq_true, if_false] at h ⊢
    rw [ofText?_optional]
    cases hread : type.ofText? text with
    | none => simp [hread] at h
    | some value =>
      rw [hread] at h
      obtain rfl := Except.ok.inj h
      rfl

/-- The record has a value of the type under the name. -/
def Readable (type : Scalar) (name : String) (record : Json) : Prop :=
  ∃ v, (record.get? name).bind type.ofJson? = some v

/-- A record that has a value holds it for both types. -/
theorem Readable.value? {name : String} {record : Json} (h : type.Readable name record) :
    ∃ v, type.value? (type.read name record) = some v ∧
      type.optional.value? (type.optional.read name record) = some (type.present v) := by
  obtain ⟨v, hv⟩ := h
  have hoptional : (record.get? name).bind type.optional.ofJson? = some (type.present v) := by
    cases hget : record.get? name with
    | none => simp [hget] at hv
    | some json =>
      rw [hget, Option.bind_some] at hv
      rw [Option.bind_some, ofJson?_optional, hv]
      rfl
  refine ⟨v, ?_, ?_⟩
  · rw [read, hv, value?_cell]
  · rw [read, hoptional, value?_cell]

end Scalar

/-! ## Clauses -/

namespace Filter

variable {type : Scalar} {c : Clause}

theorem Clause.operatorOn_optional {op : Operator} (h : c.operatorOn (.scalar type) = .ok op) :
    c.operatorOn (.scalar type.optional) = .ok op := by
  unfold operatorOn at h ⊢
  cases hop : Operator.ofWord? c.operator with
  | none =>
    rw [hop] at h
    cases h
  | some op' =>
    simp only [hop, type.supports_optional] at h ⊢
    split at h
    · rename_i hsupports
      obtain rfl := Except.ok.inj h
      rw [if_pos hsupports]
    · cases h

theorem Clause.compareScalar_present (comparison : Comparison) (v : type.Value) (literal : Option type.Value) :
    compareScalar type.optional comparison (some (type.present v)) (literal.map type.present) =
      compareScalar type comparison (some v) literal := by
  cases literal with
  | none => rfl
  | some literal => simp only [compareScalar, Comparison.holds, Option.map_some, Scalar.order_present]

theorem Clause.literals_optional {field : String} {items : List String} {literals : List (Option type.Value)}
    (h : items.mapM (type.literal field) = .ok literals) :
    items.mapM (type.optional.literal field) = .ok (literals.map (·.map type.present)) := by
  obtain ⟨literals', hliterals, hall⟩ := exists_mapM_of_mapM (g := type.optional.literal field)
    (R := fun literal literal' => literal.map type.present = literal')
    (fun _ _ hliteral => ⟨_, Scalar.literal_optional hliteral, rfl⟩) h
  rw [← List.forall₂_map_left_iff, List.forall₂_eq_eq_eq] at hall
  rw [hliterals, hall]

/-- A test of values of a type is one of the optional type, which says the same of each value. -/
theorem Clause.test_optional {test : Option type.Value → Bool} (h : c.test type = .ok test) :
    ∃ test', c.test type.optional = .ok test' ∧ ∀ v, test' (some (type.present v)) = test (some v) := by
  obtain ⟨op, hop, h⟩ := exists_of_bind_eq_ok h
  unfold Clause.test
  rw [operatorOn_optional hop]
  simp only [bind, Except.bind]
  split at h
  · obtain ⟨literal, hliteral, h⟩ := exists_of_bind_eq_ok h
    obtain rfl := Except.ok.inj h
    simp only [Scalar.literal_optional hliteral]
    exact ⟨_, rfl, fun v => compareScalar_present _ v literal⟩
  · obtain ⟨literals, hliterals, h⟩ := exists_of_bind_eq_ok h
    obtain rfl := Except.ok.inj h
    simp only [literals_optional hliterals]
    refine ⟨_, rfl, fun v => ?_⟩
    simp only [isOneOf_eq, List.any_map, Function.comp_def, compareScalar_present]
  · obtain rfl := Except.ok.inj h
    refine ⟨_, rfl, fun v => ?_⟩
    simp only [Option.bind_some, Scalar.text?_present]
  · cases h

end Filter

/-! ## Schemas -/

namespace Schema

variable {schema : Schema} {name : String} {type : Scalar}

theorem get?_registry_insert (schema : Schema) (name other : String) (type : Scalar) :
    (registry (schema.insert name (.scalar type))).get? other =
      if other = name then some (.scalar type (type.read name)) else (registry schema).get? other := by
  rw [get?_registry, Table.get?_insert, get?_registry]
  split
  · rename_i heq
    subst heq
    rfl
  · rfl

/-- Making a field optional leaves the meaning of all clauses and keys, for the records that have a value there. -/
theorem refines_optional (h : schema.get? name = some (.scalar type)) :
    Refines (type.Readable name) (registry schema) (registry (schema.insert name (.scalar type.optional))) where
  clause := by
    intro c nesting p hp
    have hget' := get?_registry_insert schema name c.field type.optional
    by_cases hfield : c.field = name
    · have hget : (registry schema).get? c.field = some (.scalar type (type.read name)) := by
        rw [hfield]
        exact get?_registry_scalar h
      rw [if_pos hfield] at hget'
      rw [Filter.compileClause_scalar hget] at hp
      rw [Filter.compileClause_scalar hget']
      obtain ⟨test, htest, rfl⟩ := exists_of_map_eq_ok hp
      obtain ⟨test', htest', hsame⟩ := Filter.Clause.test_optional htest
      rw [htest']
      refine ⟨_, rfl, fun record hrecord => ?_⟩
      obtain ⟨v, hv, hv'⟩ := hrecord.value?
      simp only [hv, hv', hsame]
    · rw [if_neg hfield] at hget'
      refine ⟨p, ?_, fun _ _ => rfl⟩
      rw [← hp]
      exact Filter.compileClause_congr hget' nesting
  key := by
    intro key c hc
    have hget' := get?_registry_insert schema name key.field type.optional
    unfold Sorting.Key.comparator at hc ⊢
    by_cases hfield : key.field = name
    · rw [hfield, get?_registry_scalar h] at hc
      rw [hget', if_pos hfield]
      obtain rfl := Except.ok.inj hc
      refine ⟨_, rfl, fun record record' hrecord hrecord' => ?_⟩
      obtain ⟨v, hv, hv'⟩ := hrecord.value?
      obtain ⟨w, hw, hw'⟩ := hrecord'.value?
      simp only [hv, hv', hw, hw', Sorting.compareAbsent, Scalar.order_present]
    · rw [hget', if_neg hfield]
      exact ⟨c, hc, fun _ _ _ _ => rfl⟩

/-- If a field of numbers or of moments is made optional, no query over the schema is lost, and none changes its meaning
for the records that can be read there: a filter passes the same ones, and a comparator puts them in the same order. -/
theorem query_optional (h : schema.get? name = some (.scalar type)) :
    let schema' : Schema := schema.insert name (.scalar type.optional)
    (∀ limit text p, Filter.compile (registry schema) limit text = .ok p →
      ∃ p', Filter.compile (registry schema') limit text = .ok p' ∧
        ∀ record, type.Readable name record → p' record = p record) ∧
    ∀ text c, Sorting.compile (registry schema) text = .ok c →
      ∃ c', Sorting.compile (registry schema') text = .ok c' ∧
        ∀ record record', type.Readable name record → type.Readable name record' →
          c' record record' = c record record' := by
  intro schema'
  have hrefines := refines_optional h
  exact ⟨fun _ _ _ hp => Filter.compile_refines hrefines hp, fun _ _ hc => Sorting.compile_refines hrefines hc⟩

/-- The array holds `null`, which is no number of years, and the order of the two records is that of the numbers. -/
theorem query_optional_age :
    let schema : Schema := ⟨[("Age", .scalar .int), ("Name", .scalar .string)]⟩
    let schema' : Schema := ⟨[("Age", .scalar .optionalInt), ("Name", .scalar .string)]⟩
    let text := "not (Age in ['3', null] or Name equals 'x')"
    let record : Json := .object [("Age", .number (.int 4))]
    let other : Json := .object [("Age", .number (.int 3)), ("Name", .string "y")]
    schema.get? "Age" = some (.scalar .int) ∧ Scalar.int.Readable "Age" record ∧ Scalar.int.Readable "Age" other ∧
      (∃ p p', Filter.compile (registry schema) 1 text = .ok p ∧ Filter.compile (registry schema') 1 text = .ok p' ∧
        p' record = p record ∧ p' other = p other) ∧
      ∃ c c', Sorting.compile (registry schema) "Age desc" = .ok c ∧
        Sorting.compile (registry schema') "Age desc" = .ok c' ∧ c' record other = c record other := by
  intro schema schema' text record other
  have hget : schema.get? "Age" = some (.scalar .int) := rfl
  have hrecord : Scalar.int.Readable "Age" record := ⟨4, rfl⟩
  have hother : Scalar.int.Readable "Age" other := ⟨3, rfl⟩
  obtain ⟨p, hp⟩ : ∃ p, Filter.compile (registry schema) 1 text = .ok p :=
    exists_ok_iff_outcome.mpr (by decide +kernel)
  obtain ⟨c, hc⟩ : ∃ c, Sorting.compile (registry schema) "Age desc" = .ok c :=
    exists_ok_iff_outcome.mpr (by decide +kernel)
  obtain ⟨hfilter, hsort⟩ := query_optional hget
  obtain ⟨p', hp', htest⟩ := hfilter 1 text p hp
  obtain ⟨c', hc', horder⟩ := hsort "Age desc" c hc
  exact ⟨hget, hrecord, hother, ⟨p, p', hp, hp', htest record hrecord, htest other hother⟩, c, c', hc, hc',
    horder record other hrecord hother⟩

end Schema

end RecordQuery
