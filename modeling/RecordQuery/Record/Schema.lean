import RecordQuery.Json.Reader
import RecordQuery.Record.Field
import RecordQuery.Record.Literal

/-!
Schemas: which fields the records of a JSON document have. A schema document is an object that gives each field
the name of a scalar type or, for a relation, the schema of the records that stand in an array under that name.

A value that is missing, or has not the form of its type, reads as the type's zero, or as absent where the type
is optional.
-/
namespace RecordQuery

/-- What a schema says of a field. -/
inductive Spec where
  | scalar (type : Scalar)
  | relation (fields : Table Spec)

abbrev Schema := Table Spec

namespace Spec

/-- The scalar type that the object form `{"int": null}` names. -/
def scalarMember? : List (String × Json) → Option Scalar
  | [(name, .null)] => Scalar.ofName? name
  | _ => none

mutual

/-- Reads the specification of a field. An object is a scalar's if it has the object form of a type, and otherwise
a schema. -/
def ofJson? : Json → Option Spec
  | .string name => (Scalar.ofName? name).map scalar
  | .object members =>
    match scalarMember? members with
    | some type => some (scalar type)
    | none => (ofMembers? members).map fun specs => relation (Table.ofList specs)
  | _ => none

/-- Reads the specifications of all members. -/
def ofMembers? : List (String × Json) → Option (List (String × Spec))
  | [] => some []
  | (name, json) :: members =>
    match ofJson? json, ofMembers? members with
    | some spec, some specs => some ((name, spec) :: specs)
    | _, _ => none

end

end Spec

/-! ## Reading records -/

namespace Scalar

/-- Reads a JSON value as one of the type. A decimal may be a number or stand in a string. -/
def ofJson? : (type : Scalar) → Json → Option type.Value
  | string, .string text => some text
  | int, .number (.int n) | optionalInt, .number (.int n) => if Number.isInt64 n then some n else none
  | decimal, .number n | optionalDecimal, .number n =>
    match n with
    | .int n => if Number.isInt64 n then some (.ofInt n) else Decimal.ofText? (toString n).toList
    | .float x => Decimal.ofText? x.toText.toList
  | decimal, .string text | optionalDecimal, .string text => Decimal.ofText? text.toList
  | optionalBool, .bool value => some value
  | dateTime, .string text | optionalDateTime, .string text => Calendar.Moment.ofText? text.toList
  | _, _ => none

/-- Reads the field of a record. -/
def read (type : Scalar) (name : String) (record : Json) : type.Cell :=
  type.cell ((record.get? name).bind type.ofJson?)

end Scalar

/-- The records that stand in an array under a name. -/
def Json.items (name : String) (record : Json) : List Json :=
  match record.get? name with
  | some (.array items) => items
  | _ => []

/-! ## Registries -/

mutual

/-- The field that a specification describes. -/
def Spec.field (name : String) : Spec → Field Json
  | .scalar type => .scalar type (type.read name)
  | .relation fields => .relation (Json.items name) (Schema.registry fields)

/-- The registry that a schema describes. -/
def Schema.registry : Table Spec → Table (Field Json)
  | ⟨entries⟩ => ⟨Schema.fieldEntries entries⟩

def Schema.fieldEntries : List (String × Spec) → List (String × Field Json)
  | [] => []
  | (name, spec) :: entries => (name, spec.field name) :: Schema.fieldEntries entries

end

namespace Schema

/-- Reads a schema document; of a field that stands there twice the last one counts, and each has to be right. -/
def ofJson? : Json → Option Schema
  | .object members => (Spec.ofMembers? members).map Table.ofList
  | _ => none

/-- Reads the text of a schema document. -/
def ofText? (text : String) : Option Schema :=
  (Json.ofText? text).bind ofJson?

end Schema

end RecordQuery
