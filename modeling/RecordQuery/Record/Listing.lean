import RecordQuery.Record.Field
import RecordQuery.Text.Escaped

/-!
Short texts that say what a registry, a field or a predicate is, for logs and messages.
-/
namespace RecordQuery

variable {ρ : Type}

/-- Names the fields of a registry. -/
def Registry.describe (registry : Registry ρ) : String :=
  "Registry \x7b fields: [" ++ ", ".intercalate (registry.names.map Text.escaped) ++ "] \x7d"

/-- Names the type of a field. -/
def Field.describe (field : Field ρ) : String :=
  "Field(" ++ field.type.name ++ ")"

/-- A predicate has no parts that can be named. -/
def describePredicate (_ : ρ → Bool) : String :=
  "Predicate(..)"

end RecordQuery
