import RecordQuery.Proofs.Json.RoundTrip
import RecordQuery.Proofs.Record.Normal

/-!
Documents of schemas. A schema is a tree of names, written with the name of a type for each scalar and an object for
each relation. Besides its name a type has an object form, one member of that name with the value `null`. The two kinds
of objects cannot be taken for each other: `null` describes no field, so that an object with such a member is no schema,
whatever its fields are called. The registry of a schema has its names and types at every level.
-/
namespace RecordQuery

/-! ## Trees and their documents -/

/-- A specification in which tables stand at most so deep in one another, each with its names in their order. -/
inductive Spec.IsTree : Nat → Spec → Prop
  | scalar {depth : Nat} (type : Scalar) : IsTree depth (.scalar type)
  | relation {depth : Nat} {fields : Table Spec} (hnames : Table.Ordered fields.entries)
      (hfields : ∀ entry ∈ fields.entries, IsTree depth entry.2) : IsTree (depth + 1) (.relation fields)

def Schema.IsTree (depth : Nat) (schema : Schema) : Prop := Spec.IsTree depth (.relation schema)

mutual

def Spec.toJson : Spec → Json
  | .scalar type => .string type.name
  | .relation fields => Schema.toJson fields

/-- The document of a schema. -/
def Schema.toJson : Schema → Json
  | ⟨entries⟩ => .object (Schema.toMembers entries)

def Schema.toMembers : List (String × Spec) → List (String × Json)
  | [] => []
  | (name, spec) :: entries => (name, spec.toJson) :: Schema.toMembers entries

end

mutual

/-- What a value in a document says of a field. -/
inductive Spec.Describes : Json → Spec → Prop
  | name (type : Scalar) : Spec.Describes (.string type.name) (.scalar type)
  | form (type : Scalar) : Spec.Describes (.object [(type.name, .null)]) (.scalar type)
  | relation {members : List (String × Json)} {specs : List (String × Spec)} (h : Spec.DescribeAll members specs) :
      Spec.Describes (.object members) (.relation (Table.ofList specs))

inductive Spec.DescribeAll : List (String × Json) → List (String × Spec) → Prop
  | nil : Spec.DescribeAll [] []
  | cons {json : Json} {spec : Spec} {members : List (String × Json)} {specs : List (String × Spec)} (name : String)
      (hfirst : Spec.Describes json spec) (hothers : Spec.DescribeAll members specs) :
      Spec.DescribeAll ((name, json) :: members) ((name, spec) :: specs)

end

def Spec.type : Spec → FieldType
  | scalar type => .scalar type
  | relation _ => .relation

/-- The fields of a schema with their types, by name. -/
def Schema.types (schema : Schema) : List (String × FieldType) :=
  schema.entries.map fun entry => (entry.1, entry.2.type)

/-! ## Reading -/

theorem Scalar.ofName?_eq_some_iff {name : String} {type : Scalar} : ofName? name = some type ↔ name = type.name := by
  constructor
  · intro h
    have hname : type.name = name := by simpa using List.find?_some h
    exact hname.symm
  · rintro rfl
    cases type <;> rfl

namespace Spec

theorem scalarMember?_eq_some_iff {members : List (String × Json)} {type : Scalar} :
    scalarMember? members = some type ↔ members = [(type.name, .null)] := by
  constructor
  · intro h
    unfold scalarMember? at h
    split at h
    · rw [Scalar.ofName?_eq_some_iff.mp h]
    · cases h
  · rintro rfl
    exact Scalar.ofName?_eq_some_iff.mpr rfl

theorem DescribeAll.scalarMember?_eq_none {members : List (String × Json)} {specs : List (String × Spec)}
    (h : DescribeAll members specs) : scalarMember? members = none := by
  rw [Option.eq_none_iff_forall_ne_some]
  intro type htype
  rw [scalarMember?_eq_some_iff] at htype
  subst htype
  cases h with
  | cons _ hnull _ => cases hnull

mutual

theorem Describes.ofJson?_eq : ∀ {json : Json} {spec : Spec}, Describes json spec → ofJson? json = some spec
  | _, _, .name type => by
    rw [ofJson?, Scalar.ofName?_eq_some_iff.mpr rfl]
    rfl
  | _, _, .form type => by rw [ofJson?, scalarMember?_eq_some_iff.mpr rfl]
  | _, _, .relation h => by
    rw [ofJson?, h.scalarMember?_eq_none, DescribeAll.ofMembers?_eq h]
    rfl

theorem DescribeAll.ofMembers?_eq : ∀ {members : List (String × Json)} {specs : List (String × Spec)},
    DescribeAll members specs → ofMembers? members = some specs
  | _, _, .nil => rfl
  | _, _, .cons _ hfirst hothers => by rw [ofMembers?, Describes.ofJson?_eq hfirst, DescribeAll.ofMembers?_eq hothers]

end

mutual

theorem describes_of_ofJson? : ∀ {json : Json} {spec : Spec}, ofJson? json = some spec → Describes json spec
  | .string name, spec, h => by
    rw [ofJson?] at h
    obtain ⟨type, htype, rfl⟩ := Option.map_eq_some_iff.mp h
    rw [Scalar.ofName?_eq_some_iff.mp htype]
    exact .name type
  | .object members, spec, h => by
    rw [ofJson?] at h
    split at h
    · rename_i type htype
      obtain rfl := Option.some.inj h
      rw [scalarMember?_eq_some_iff.mp htype]
      exact .form type
    · obtain ⟨specs, hspecs, rfl⟩ := Option.map_eq_some_iff.mp h
      exact .relation (describeAll_of_ofMembers? hspecs)
  | .null, _, h | .bool _, _, h | .number _, _, h | .array _, _, h => by simp [ofJson?] at h

theorem describeAll_of_ofMembers? : ∀ {members : List (String × Json)} {specs : List (String × Spec)},
    ofMembers? members = some specs → DescribeAll members specs
  | [], specs, h => by
    rw [ofMembers?] at h
    obtain rfl := Option.some.inj h
    exact .nil
  | (name, json) :: members, specs, h => by
    rw [ofMembers?] at h
    split at h
    · rename_i spec specs' hspec hspecs
      obtain rfl := Option.some.inj h
      exact .cons name (describes_of_ofJson? hspec) (describeAll_of_ofMembers? hspecs)
    · cases h

end

theorem ofMembers?_eq_some_iff {members : List (String × Json)} {specs : List (String × Spec)} :
    ofMembers? members = some specs ↔ DescribeAll members specs :=
  ⟨describeAll_of_ofMembers?, DescribeAll.ofMembers?_eq⟩

theorem exists_describeAll_iff {members : List (String × Json)} :
    (∃ specs, DescribeAll members specs) ↔ ∀ member ∈ members, ∃ spec, Describes member.2 spec := by
  induction members with
  | nil => exact iff_of_true ⟨[], .nil⟩ (by simp)
  | cons member members ih =>
    rw [List.forall_mem_cons, ← ih]
    constructor
    · rintro ⟨_, h⟩
      cases h with
      | cons _ hfirst hothers => exact ⟨⟨_, hfirst⟩, _, hothers⟩
    · rintro ⟨⟨spec, hfirst⟩, specs, hothers⟩
      exact ⟨_, .cons member.1 hfirst hothers⟩

/-! ## Trees -/

theorem IsTree.mono {depth depth' : Nat} {spec : Spec} (h : IsTree depth spec) (hle : depth ≤ depth') :
    IsTree depth' spec := by
  induction h generalizing depth' with
  | scalar type => exact .scalar type
  | @relation depth fields hnames _ ih =>
    obtain ⟨deeper, rfl⟩ : ∃ deeper, depth' = deeper + 1 := ⟨depth' - 1, by omega⟩
    exact .relation hnames fun entry hentry => ih entry hentry (by omega)

mutual

/-- Whatever its document looks like, a specification that is read is a tree. -/
theorem Describes.exists_isTree : ∀ {json : Json} {spec : Spec}, Describes json spec → ∃ depth, IsTree depth spec
  | _, _, .name type | _, _, .form type => ⟨0, .scalar type⟩
  | _, _, .relation h => by
    obtain ⟨depth, hall⟩ := DescribeAll.exists_isTree h
    exact ⟨depth + 1, .relation (Table.ordered_ofList _) fun entry hentry => hall entry (Table.mem_ofList hentry)⟩

theorem DescribeAll.exists_isTree : ∀ {members : List (String × Json)} {specs : List (String × Spec)},
    DescribeAll members specs → ∃ depth, ∀ entry ∈ specs, IsTree depth entry.2
  | _, _, .nil => ⟨0, by simp⟩
  | _, _, .cons _ hfirst hothers => by
    obtain ⟨depth, hspec⟩ := Describes.exists_isTree hfirst
    obtain ⟨depth', hspecs⟩ := DescribeAll.exists_isTree hothers
    refine ⟨max depth depth', List.forall_mem_cons.mpr ⟨hspec.mono (Nat.le_max_left _ _), fun entry hentry => ?_⟩⟩
    exact (hspecs entry hentry).mono (Nat.le_max_right _ _)

end

end Spec

namespace Schema

theorem toMembers_eq_map (entries : List (String × Spec)) :
    toMembers entries = entries.map fun entry => (entry.1, entry.2.toJson) := by
  induction entries with
  | nil => rfl
  | cons entry entries ih => rw [toMembers, ih, List.map_cons]

end Schema

namespace Spec

theorem toJson_relation (fields : Table Spec) : toJson (.relation fields) =
    .object (fields.entries.map fun entry => (entry.1, entry.2.toJson)) := by
  obtain ⟨entries⟩ := fields
  rw [toJson, Schema.toJson, Schema.toMembers_eq_map]

theorem IsTree.plainWithin {depth : Nat} {spec : Spec} (h : IsTree depth spec) : spec.toJson.PlainWithin depth := by
  induction h with
  | scalar type => exact .string type.name
  | @relation depth fields _ _ ih =>
    rw [toJson_relation]
    exact .object (List.forall_mem_map.mpr ih)

theorem describeAll_map {entries : List (String × Spec)} (h : ∀ entry ∈ entries, Describes entry.2.toJson entry.2) :
    DescribeAll (entries.map fun entry => (entry.1, entry.2.toJson)) entries := by
  induction entries with
  | nil => exact .nil
  | cons entry entries ih =>
    obtain ⟨hfirst, hothers⟩ := List.forall_mem_cons.mp h
    exact .cons entry.1 hfirst (ih hothers)

/-- The document of a tree describes the tree. -/
theorem IsTree.describes {depth : Nat} {spec : Spec} (h : IsTree depth spec) : Describes spec.toJson spec := by
  induction h with
  | scalar type => exact .name type
  | @relation depth fields hnames _ ih =>
    have hdescribes := Describes.relation (describeAll_map ih)
    rw [toJson_relation]
    rwa [hnames.ofList_eq] at hdescribes

end Spec

namespace Schema

theorem ofJson?_eq_some_iff {json : Json} {schema : Schema} : ofJson? json = some schema ↔
    ∃ members specs, json = .object members ∧ Spec.DescribeAll members specs ∧ schema = Table.ofList specs := by
  constructor
  · intro h
    cases json with
    | object members =>
      obtain ⟨specs, hspecs, rfl⟩ := Option.map_eq_some_iff.mp h
      exact ⟨members, specs, rfl, Spec.ofMembers?_eq_some_iff.mp hspecs, rfl⟩
    | _ => cases h
  · rintro ⟨members, specs, rfl, hspecs, rfl⟩
    rw [ofJson?, Spec.ofMembers?_eq_some_iff.mpr hspecs]
    rfl

theorem IsTree.ofJson?_toJson {depth : Nat} {schema : Schema} (h : schema.IsTree depth) :
    ofJson? schema.toJson = some schema := by
  obtain ⟨entries⟩ := schema
  cases h with
  | relation hnames hfields =>
    have hall := Spec.describeAll_map fun entry hentry => (hfields entry hentry).describes
    refine ofJson?_eq_some_iff.mpr ⟨_, entries, ?_, hall, hnames.ofList_eq.symm⟩
    rw [toJson, toMembers_eq_map]

/-! ## Registries -/

theorem isSome_get?_registry_iff (schema : Schema) (name : String) :
    ((registry schema).get? name).isSome = true ↔ name ∈ schema.names := by
  rw [get?_registry, Option.isSome_map, Table.isSome_get?_iff]

theorem fields_registry (schema : Schema) : Registry.fields (registry schema) = schema.types := by
  obtain ⟨entries⟩ := schema
  show (fieldEntries entries).map _ = entries.map _
  rw [fieldEntries_eq_map, List.map_map]
  refine List.map_congr_left fun entry _ => ?_
  obtain ⟨name, spec⟩ := entry
  cases spec <;> rfl

theorem IsTree.ordered_types {depth : Nat} {schema : Schema} (h : schema.IsTree depth) :
    Table.Ordered schema.types := by
  cases h with
  | relation hnames _ => exact List.Pairwise.map _ (fun _ _ hlt => hlt) hnames

theorem IsTree.of_get? {depth : Nat} {schema nested : Schema} {name : String} (h : schema.IsTree (depth + 1))
    (hget : schema.get? name = some (.relation nested)) : nested.IsTree depth := by
  cases h with
  | relation _ hfields => exact hfields _ (Table.mem_of_lookup_eq_some hget)

/-- Schemas and their documents. A tree that is not nested too deep can be written as a document, and any text of that
document reads as the tree. What is read is an object whose values are names of types, types in their object form, or
such objects again; it makes a tree, in which the last of several members of one name counts. The registry of a tree
finds its names and no others, lists them once each in their order with their types, and has in each relation the
registry of the tree below. -/
theorem read_documents :
    (∀ schema : Schema, schema.IsTree Json.maxDepth → Json.ofText? schema.toJson.toText = some schema.toJson ∧
      ∀ text, Json.ofText? text = some schema.toJson → ofText? text = some schema) ∧
    (∀ text, (∃ schema, ofText? text = some schema) ↔ ∃ members, Json.ofText? text = some (.object members) ∧
      ∀ member ∈ members, ∃ spec, Spec.Describes member.2 spec) ∧
    (∀ text schema, ofText? text = some schema ↔ ∃ members specs, Json.ofText? text = some (.object members) ∧
      Spec.DescribeAll members specs ∧ schema = Table.ofList specs) ∧
    (∀ text schema, ofText? text = some schema → ∃ depth, schema.IsTree depth) ∧
    ∀ depth (schema : Schema), schema.IsTree (depth + 1) →
      (∀ name, ((registry schema).get? name).isSome = true ↔ name ∈ schema.names) ∧
      Registry.fields (registry schema) = schema.types ∧ Table.Ordered schema.types ∧
      ∀ name (nested : Schema), schema.get? name = some (.relation nested) → nested.IsTree depth ∧
        ∃ field, (registry schema).get? name = some field ∧ field = .relation (Json.items name) (registry nested) ∧
          field.childFields? = some nested.types := by
  have hread : ∀ text schema, ofText? text = some schema ↔ ∃ members specs,
      Json.ofText? text = some (.object members) ∧ Spec.DescribeAll members specs ∧ schema = Table.ofList specs := by
    intro text schema
    simp only [ofText?, Option.bind_eq_some_iff, ofJson?_eq_some_iff]
    constructor
    · rintro ⟨_, hjson, members, specs, rfl, hspecs⟩
      exact ⟨members, specs, hjson, hspecs⟩
    · rintro ⟨members, specs, hjson, hspecs⟩
      exact ⟨_, hjson, members, specs, rfl, hspecs⟩
  refine ⟨?_, ?_, hread, ?_, ?_⟩
  · intro schema h
    have hplain : schema.toJson.PlainWithin Json.maxDepth := Spec.IsTree.plainWithin h
    refine ⟨Json.ofText?_toText hplain, fun text htext => ?_⟩
    rw [ofText?, htext]
    exact h.ofJson?_toJson
  · intro text
    simp only [hread, ← Spec.exists_describeAll_iff]
    constructor
    · rintro ⟨_, members, specs, hjson, hspecs, rfl⟩
      exact ⟨members, hjson, specs, hspecs⟩
    · rintro ⟨members, hjson, specs, hspecs⟩
      exact ⟨_, members, specs, hjson, hspecs, rfl⟩
  · intro text schema h
    obtain ⟨members, specs, -, hspecs, rfl⟩ := (hread text schema).mp h
    exact (Spec.Describes.relation hspecs).exists_isTree
  · intro depth schema h
    refine ⟨isSome_get?_registry_iff schema, fields_registry schema, h.ordered_types, ?_⟩
    intro name nested hget
    refine ⟨h.of_get? hget, _, ?_, rfl, ?_⟩
    · rw [get?_registry, hget]
      rfl
    · exact congrArg some (fields_registry nested)

/-- A relation may have a field of the name `decimal`, and a field the name `int`, with its type in the object form.
That form is no schema by itself. -/
theorem read_documents_types :
    let prices : Schema := ⟨[("decimal", .scalar .string)]⟩
    let schema : Schema := ⟨[("Prices", .relation prices), ("int", .scalar .optionalInt)]⟩
    let form : Json := .object [("int", .null)]
    ofText? schema.toJson.toText = some schema ∧
      (∃ read, ofText? (Json.object [("int", form), ("Tags", .object [])]).toText = some read) ∧
      (¬ ∃ read, ofText? form.toText = some read) ∧
      Registry.fields (registry schema) = [("Prices", .relation), ("int", .scalar .optionalInt)] ∧
      ∃ field, (registry schema).get? "Prices" = some field ∧
        field.childFields? = some [("decimal", .scalar .string)] := by
  intro prices schema form
  obtain ⟨hwritten, haccepted, -, -, hregistry⟩ := read_documents
  have hordered : Table.Ordered schema.entries := List.pairwise_pair.mpr (by decide +kernel)
  have hprices : Spec.IsTree 1 (.relation prices) := .relation (List.pairwise_singleton _ _) (by
    rw [List.forall_mem_singleton]
    exact .scalar _)
  have htree : schema.IsTree 2 := .relation hordered (by
    rw [List.forall_mem_cons, List.forall_mem_singleton]
    exact ⟨hprices, .scalar _⟩)
  have hform : ∀ depth, form.PlainWithin (depth + 1) := fun depth => .object (by
    rw [List.forall_mem_singleton]
    exact .null)
  have hdocument : Json.PlainWithin Json.maxDepth (.object [("int", form), ("Tags", .object [])]) := .object (by
    rw [List.forall_mem_cons, List.forall_mem_singleton]
    exact ⟨hform 125, .object (by simp)⟩)
  obtain ⟨-, hfields, -, hnested⟩ := hregistry 1 schema htree
  obtain ⟨htext, hread⟩ := hwritten schema (Spec.IsTree.mono htree (by decide))
  refine ⟨hread _ htext, ?_, ?_, hfields, ?_⟩
  · refine (haccepted _).mpr ⟨_, Json.ofText?_toText hdocument, ?_⟩
    rw [List.forall_mem_cons, List.forall_mem_singleton]
    exact ⟨⟨_, .form .int⟩, _, .relation .nil⟩
  · rw [haccepted]
    rintro ⟨members, hread, hmembers⟩
    rw [Json.ofText?_toText (hform 126)] at hread
    obtain rfl := Json.object.inj (Option.some.inj hread)
    obtain ⟨spec, hspec⟩ := hmembers ("int", .null) List.mem_cons_self
    cases hspec
  · obtain ⟨-, field, hget, -, hchildren⟩ := hnested "Prices" prices rfl
    exact ⟨field, hget, hchildren⟩

end Schema

end RecordQuery
