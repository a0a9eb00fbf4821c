import RecordQuery.Record.FieldType
import RecordQuery.Table

/-!
Fields and registries. A registry names the fields of a kind of record; a field is read from a record as the cell
of a scalar type, or leads to further records that have a registry of their own.
-/
namespace RecordQuery

/-- A field of records of the type `ρ`. Related records are of this type too. For records of several kinds `ρ` is the
type of all of them together, and each kind has its own registry, which reads the fields of that kind only: a record is
seen through the registry that led to it and through nothing else, so the other kinds make no difference to it. The
records that a schema describes are JSON values at every depth. -/
inductive Field (ρ : Type) where
  | scalar (type : Scalar) (read : ρ → type.Cell)
  | relation (children : ρ → List ρ) (registry : Table (Field ρ))

abbrev Registry (ρ : Type) := Table (Field ρ)

variable {ρ : Type}

def Field.type : Field ρ → FieldType
  | scalar type _ => .scalar type
  | relation _ _ => .relation

/-- The fields with their types, by name. -/
def Registry.fields (registry : Registry ρ) : List (String × FieldType) :=
  registry.entries.map fun entry => (entry.1, entry.2.type)

/-- The fields of a relation's records. -/
def Field.childFields? : Field ρ → Option (List (String × FieldType))
  | scalar _ _ => none
  | relation _ registry => some (Registry.fields registry)

end RecordQuery
