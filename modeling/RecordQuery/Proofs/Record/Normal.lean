import RecordQuery.Record.Schema
import RecordQuery.Proofs.Record.Bisimulation
import RecordQuery.Proofs.Table

/-!
Normal forms of records. A schema sees of a JSON value only the members that it names, and of these only what has the
form of its type. In the normal form of a record only that is kept, and what is missing or has another form gives way to
the default of its type. No query tells a record from its normal form.
-/
namespace RecordQuery

/-! ## Normal forms -/

namespace Scalar

/-- Whether a value has the form of a type. A number has the form of a decimal if its text has. -/
def hasForm : Scalar → Json → Bool
  | string, .string _ => true
  | int, .number (.int n) | optionalInt, .number (.int n) => Number.isInt64 n
  | decimal, .number (.int n) | optionalDecimal, .number (.int n) =>
    Number.isInt64 n || (Decimal.ofText? (toString n).toList).isSome
  | decimal, .number (.float x) | optionalDecimal, .number (.float x) => (Decimal.ofText? x.toText.toList).isSome
  | decimal, .string text | optionalDecimal, .string text => (Decimal.ofText? text.toList).isSome
  | optionalBool, .bool _ => true
  | dateTime, .string text | optionalDateTime, .string text => (Calendar.Moment.ofText? text.toList).isSome
  | _, _ => false

/-- The value that a missing one counts as. -/
def default : Scalar → Json
  | string => .string ""
  | int | decimal => .number (.int 0)
  | dateTime => .string "1970-01-01"
  | optionalInt | optionalDecimal | optionalBool | optionalDateTime => .null

def normal (type : Scalar) (value : Option Json) : Json :=
  (value.filter type.hasForm).getD type.default

end Scalar

mutual

/-- The normal form of what stands under the name of a field. -/
def Spec.normal : Spec → Option Json → Json
  | .scalar type, value => type.normal value
  | .relation fields, some (.array items) => .array (items.map (Schema.normal fields))
  | .relation _, _ => .array []

/-- The normal form of a record: the names of the schema and no others, each with its value in normal form. -/
def Schema.normal : Schema → Json → Json
  | ⟨entries⟩, record => .object (Schema.normalMembers entries record)

def Schema.normalMembers : List (String × Spec) → Json → List (String × Json)
  | [], _ => []
  | (name, spec) :: entries, record => (name, spec.normal (record.get? name)) :: Schema.normalMembers entries record

end

mutual

/-- No schema inside the specification names a field twice. -/
def Spec.Distinct : Spec → Prop
  | .scalar _ => True
  | .relation fields => Schema.Distinct fields

/-- The schema names no field twice, and so do the schemas inside it. -/
def Schema.Distinct : Schema → Prop
  | ⟨entries⟩ => (entries.map (·.1)).Nodup ∧ Schema.EntriesDistinct entries

def Schema.EntriesDistinct : List (String × Spec) → Prop
  | [] => True
  | (_, spec) :: entries => spec.Distinct ∧ Schema.EntriesDistinct entries

end

/-! ## Values -/

namespace Scalar

/-- A value has the form of a type exactly if it can be read as one. -/
theorem hasForm_eq (type : Scalar) (value : Json) : type.hasForm value = (type.ofJson? value).isSome := by
  cases value with
  | null | bool value | string text | array items | object members => cases type <;> rfl
  | number n =>
    cases n with
    | float x => cases type <;> rfl
    | int n => cases type <;> by_cases h : Number.isInt64 n = true <;> simp [hasForm, ofJson?, h]

theorem value?_cell (type : Scalar) (v : type.Value) : type.value? (type.cell (some v)) = some v := by
  cases type <;> rfl

theorem cell_default (type : Scalar) : type.cell (type.ofJson? type.default) = type.cell none := by
  cases type with
  | dateTime =>
    have hepoch : Calendar.Moment.ofText? "1970-01-01".toList = some .epoch := by decide +kernel
    show cell .dateTime (Calendar.Moment.ofText? "1970-01-01".toList) = .epoch
    rw [hepoch]
    rfl
  | _ => rfl

/-- The value in normal form is read like the value itself. -/
theorem cell_normal (type : Scalar) (value : Option Json) :
    type.cell (type.ofJson? (type.normal value)) = type.cell (value.bind type.ofJson?) := by
  cases value with
  | none => exact type.cell_default
  | some value =>
    have hform := type.hasForm_eq value
    cases hread : type.ofJson? value with
    | none =>
      rw [hread] at hform
      simpa [normal, Option.filter_some, hform, hread] using type.cell_default
    | some v =>
      rw [hread] at hform
      simp [normal, Option.filter_some, hform, hread]

end Scalar

/-! ## Members -/

namespace Schema

theorem fieldEntries_eq_map (entries : List (String × Spec)) :
    fieldEntries entries = entries.map fun entry => (entry.1, entry.2.field entry.1) := by
  induction entries with
  | nil => rfl
  | cons entry entries ih => rw [fieldEntries, ih, List.map_cons]

theorem get?_registry (schema : Schema) (name : String) :
    (registry schema).get? name = (schema.get? name).map (Spec.field name) := by
  obtain ⟨entries⟩ := schema
  show (fieldEntries entries).lookup name = _
  rw [fieldEntries_eq_map]
  exact Table.lookup_map Spec.field entries name

theorem get?_registry_scalar {schema : Schema} {name : String} {type : Scalar}
    (h : schema.get? name = some (.scalar type)) :
    (registry schema).get? name = some (.scalar type (type.read name)) := by
  rw [get?_registry, h]
  rfl

theorem normalMembers_eq_map (entries : List (String × Spec)) (record : Json) :
    normalMembers entries record = entries.map fun entry => (entry.1, entry.2.normal (record.get? entry.1)) := by
  induction entries with
  | nil => rfl
  | cons entry entries ih => rw [normalMembers, ih, List.map_cons]

/-- Under a name of the schema the normal form holds the normal form of what the record holds there. -/
theorem get?_normal {schema : Schema} (h : schema.Distinct) (record : Json) (name : String) :
    (schema.normal record).get? name = (schema.get? name).map fun spec => spec.normal (record.get? name) := by
  obtain ⟨entries⟩ := schema
  show (normalMembers entries record).reverse.lookup name = _
  rw [normalMembers_eq_map, Table.lookup_reverse (by simpa [Function.comp_def] using h.1)]
  exact Table.lookup_map (fun name spec => spec.normal (record.get? name)) entries name

/-- Records that hold the same in normal form under each name of the schema have one normal form. -/
theorem normal_congr {schema : Schema} (h : schema.Distinct) {record record' : Json}
    (hfields : ∀ name spec, schema.get? name = some spec →
      spec.normal (record.get? name) = spec.normal (record'.get? name)) :
    schema.normal record = schema.normal record' := by
  obtain ⟨entries⟩ := schema
  rw [normal, normal, normalMembers_eq_map, normalMembers_eq_map]
  refine congrArg Json.object (List.map_congr_left fun entry hentry => ?_)
  rw [hfields entry.1 entry.2 (Table.lookup_eq_some_of_mem h.1 hentry)]

theorem entriesDistinct_iff {entries : List (String × Spec)} :
    EntriesDistinct entries ↔ ∀ entry ∈ entries, entry.2.Distinct := by
  induction entries with
  | nil => simp [EntriesDistinct]
  | cons entry entries ih =>
    obtain ⟨name, spec⟩ := entry
    rw [EntriesDistinct, ih, List.forall_mem_cons]

theorem distinct_of_get? {schema fields : Schema} {name : String} (h : schema.Distinct)
    (hget : schema.get? name = some (.relation fields)) : fields.Distinct := by
  obtain ⟨entries⟩ := schema
  have hmem := Table.mem_of_lookup_eq_some hget
  exact entriesDistinct_iff.mp h.2 _ hmem

theorem items_normal {schema fields : Schema} {name : String} (h : schema.Distinct)
    (hget : schema.get? name = some (.relation fields)) (record : Json) :
    Json.items name (schema.normal record) = (Json.items name record).map fields.normal := by
  rw [Json.items, Json.items, get?_normal h, hget]
  cases record.get? name with
  | none => rfl
  | some value => cases value <;> rfl

/-! ## Schemas that are read -/

theorem distinct_ofList {specs : List (String × Spec)} (h : ∀ entry ∈ specs, entry.2.Distinct) :
    Distinct (Table.ofList specs) := by
  have hordered := Table.ordered_ofList specs
  have hmem : ∀ entry ∈ (Table.ofList specs).entries, entry ∈ specs := fun _ => Table.mem_ofList
  generalize Table.ofList specs = schema at hordered hmem
  obtain ⟨entries⟩ := schema
  exact ⟨hordered.nodup, entriesDistinct_iff.mpr fun entry hentry => h entry (hmem entry hentry)⟩

end Schema

mutual

theorem Spec.distinct_of_ofJson? : ∀ {json : Json} {spec : Spec}, Spec.ofJson? json = some spec → spec.Distinct
  | .string name, spec, h => by
    rw [Spec.ofJson?] at h
    obtain ⟨type, -, rfl⟩ := Option.map_eq_some_iff.mp h
    trivial
  | .object members, spec, h => by
    rw [Spec.ofJson?] at h
    split at h
    · obtain rfl := Option.some.inj h
      trivial
    · obtain ⟨specs, hspecs, rfl⟩ := Option.map_eq_some_iff.mp h
      exact Schema.distinct_ofList (Spec.distinct_of_ofMembers? hspecs)
  | .null, _, h | .bool _, _, h | .number _, _, h | .array _, _, h => by simp [Spec.ofJson?] at h

theorem Spec.distinct_of_ofMembers? : ∀ {members : List (String × Json)} {specs : List (String × Spec)},
    Spec.ofMembers? members = some specs → ∀ entry ∈ specs, entry.2.Distinct
  | [], specs, h => by
    rw [Spec.ofMembers?] at h
    obtain rfl := Option.some.inj h
    simp
  | (name, json) :: members, specs, h => by
    rw [Spec.ofMembers?] at h
    split at h
    · rename_i spec specs' hspec hspecs
      obtain rfl := Option.some.inj h
      rw [List.forall_mem_cons]
      exact ⟨Spec.distinct_of_ofJson? hspec, Spec.distinct_of_ofMembers? hspecs⟩
    · cases h

end

/-- A schema that is read names no field twice, whatever its document does. -/
theorem Schema.distinct_of_ofJson? {json : Json} {schema : Schema} (h : Schema.ofJson? json = some schema) :
    schema.Distinct := by
  cases json with
  | object members =>
    obtain ⟨specs, hspecs, rfl⟩ := Option.map_eq_some_iff.mp h
    exact Schema.distinct_ofList (Spec.distinct_of_ofMembers? hspecs)
  | _ => cases h

/-! ## Queries -/

/-- The registry is that of a schema, and the second record is the normal form of the first one. -/
def Normalizes (registry : Registry Json) (record record' : Json) : Prop :=
  ∃ schema : Schema, schema.Distinct ∧ registry = Schema.registry schema ∧ record' = schema.normal record

theorem bisimulation_normalizes : Bisimulation Normalizes where
  scalar := by
    rintro _ record _ name type read ⟨schema, hdistinct, rfl, rfl⟩ hget
    rw [Schema.get?_registry] at hget
    obtain ⟨spec, hspec, hfield⟩ := Option.map_eq_some_iff.mp hget
    cases spec with
    | relation fields => cases hfield
    | scalar type' =>
      cases hfield
      rw [Scalar.read, Scalar.read, Schema.get?_normal hdistinct, hspec]
      exact congrArg type.value? (type.cell_normal (record.get? name)).symm
  relation := by
    rintro _ related record _ name children ⟨schema, hdistinct, rfl, rfl⟩ hget
    rw [Schema.get?_registry] at hget
    obtain ⟨spec, hspec, hfield⟩ := Option.map_eq_some_iff.mp hget
    cases spec with
    | scalar type => cases hfield
    | relation fields =>
      cases hfield
      -- the items in normal form stand in the same places, each below the same child schema
      rw [Schema.items_normal hdistinct hspec, List.forall₂_map_right_iff, List.forall₂_same]
      intro item _
      exact ⟨fields, Schema.distinct_of_get? hdistinct hspec, rfl, rfl⟩

/-- No query over a schema tells a record from its normal form: every filter that compiles passes both or neither, and
every comparator puts two records in the order of their normal forms. The normal form is fixed by what it keeps of the
members that the schema names, be the record an object or not. A schema that is read from a document names no field
twice (`Schema.distinct_of_ofJson?`). -/
theorem Schema.query_normal {schema : Schema} (h : schema.Distinct) :
    (∀ limit text p, Filter.compile (Schema.registry schema) limit text = .ok p →
      ∀ record, p record = p (schema.normal record)) ∧
    (∀ text c, Sorting.compile (Schema.registry schema) text = .ok c →
      ∀ record record', c record record' = c (schema.normal record) (schema.normal record')) ∧
    ∀ record record', (∀ name spec, schema.get? name = some spec →
      spec.normal (record.get? name) = spec.normal (record'.get? name)) →
      schema.normal record = schema.normal record' := by
  have hnormal : ∀ record, Normalizes (Schema.registry schema) record (schema.normal record) :=
    fun record => ⟨schema, h, rfl, rfl⟩
  refine ⟨fun limit text p hp record => ?_, fun text c hc record record' => ?_, fun record record' => ?_⟩
  · exact (Filter.compile_definable hp).congr bisimulation_normalizes (hnormal record)
  · exact (Sorting.compile_definable hc).congr bisimulation_normalizes (hnormal record) (hnormal record')
  · exact Schema.normal_congr h

/-- A number is no text, a text no count and `null` no object, so that in their places stand the defaults; the member
`Other` is left out. -/
theorem Schema.query_normal_tags :
    let tags : Schema := ⟨[("Count", .scalar .int)]⟩
    let schema : Schema := ⟨[("Name", .scalar .string), ("Tags", .relation tags)]⟩
    let record : Json := .object [("Name", .number (.int 3)), ("Other", .bool true),
      ("Tags", .array [.object [("Count", .string "x")], .null])]
    let tag : Json := .object [("Count", .number (.int 0))]
    let normal : Json := .object [("Name", .string ""), ("Tags", .array [tag, tag])]
    schema.Distinct ∧ schema.normal record = normal ∧
      (∃ p, Filter.compile (Schema.registry schema) 1 "Name equals '' and Tags all (Count lessThan 1)" = .ok p ∧
        p record = p normal) ∧
      ∃ c, Sorting.compile (Schema.registry schema) "Name desc" = .ok c ∧
        ∀ other, c record other = c normal (schema.normal other) := by
  intro tags schema record tag normal
  have hdistinct : schema.Distinct := by
    simp [Schema.Distinct, Schema.EntriesDistinct, Spec.Distinct, schema, tags]
  have hnormal : schema.normal record = normal := rfl
  have hfilter : ∃ p, Filter.compile (Schema.registry schema) 1
      "Name equals '' and Tags all (Count lessThan 1)" = .ok p :=
    exists_ok_iff_outcome.mpr (by decide +kernel)
  have hsort : ∃ c, Sorting.compile (Schema.registry schema) "Name desc" = .ok c :=
    exists_ok_iff_outcome.mpr (by decide +kernel)
  obtain ⟨p, hp⟩ := hfilter
  obtain ⟨c, hc⟩ := hsort
  obtain ⟨hrecord, horder, -⟩ := Schema.query_normal hdistinct
  refine ⟨hdistinct, hnormal, ⟨p, hp, ?_⟩, c, hc, fun other => ?_⟩
  · rw [← hnormal]
    exact hrecord 1 _ p hp record
  · rw [← hnormal]
    exact horder _ c hc record other

end RecordQuery
