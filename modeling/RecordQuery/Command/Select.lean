import RecordQuery.Command.Failure
import RecordQuery.Query.Engine
import RecordQuery.Record.Schema

/-!
The commands over JSON documents: selecting records, and checking a query without any.
-/
namespace RecordQuery.Command

/-- A result of the query library as one of a command. -/
def ofQuery {α : Type} (result : Except QueryError α) : Except Failure α :=
  result.mapError .query

/-- The engine for the records that a schema document describes. -/
def engine (schema : String) (config : Config) (wording : Wording) : Except Failure (Engine Json) :=
  match Schema.ofText? schema with
  | some schema => .ok ⟨Schema.registry schema, config⟩
  | none => .error (Document.schema.refused wording schema)

/-- Reads the input: a JSON array of records. -/
def records (input : Option String) (wording : Wording) : Except Failure (List Json) :=
  match input with
  | none => .error .noInput
  | some text =>
    match (Json.ofText? text).map Json.canonical with
    | some (.array records) => .ok records
    | some _ => .error .notAnArray
    | none => .error (Document.input.refused wording text)

/-- The records that a query selects from the input, as a JSON array. -/
def select (schema : String) (input : Option String) (parameters : Parameters) (config : Config)
    (wording : Wording := .plain) : Except Failure Json := do
  let engine ← engine schema config wording
  let records ← records input wording
  let rows ← ofQuery (engine.run parameters records)
  .ok (.array (rows.map (·.record)))

/-- Checks the texts of a query against a schema and lists the schema's fields. -/
def check (schema : String) (filter orderBy : Option String) (config : Config) (wording : Wording := .plain) :
    Except Failure (List (String × FieldType)) := do
  let engine ← engine schema config wording
  ofQuery (engine.validate filter orderBy)
  .ok engine.registry.fields

end RecordQuery.Command
