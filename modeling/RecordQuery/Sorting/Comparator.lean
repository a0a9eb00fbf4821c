import RecordQuery.Record.Field
import RecordQuery.Sorting.Key

/-!
Comparators of records, compiled from keys over a registry. The first key decides, and each later one only where
all before it find two records equal. Records equal under every key keep their order, since the sort is stable.
-/
namespace RecordQuery.Sorting

abbrev Comparator (ρ : Type) := ρ → ρ → Ordering

variable {ρ : Type}

namespace Comparator

/-- Breaks the ties of one comparator with another. -/
def thenBy (c d : Comparator ρ) : Comparator ρ :=
  compareLex c d

/-- Compares things by a record that each of them has. -/
def on {α : Type} (c : Comparator ρ) (record : α → ρ) : Comparator α :=
  fun a b => c (record a) (record b)

def sort (c : Comparator ρ) (records : List ρ) : List ρ :=
  records.mergeSort fun a b => (c a b).isLE

end Comparator

/-- Puts the absence of a value before every value. -/
def compareAbsent {α : Type} (order : α → α → Ordering) : Option α → Option α → Ordering
  | none, none => .eq
  | none, some _ => .lt
  | some _, none => .gt
  | some a, some b => order a b

/-- The comparator of one key, whose field has to be a scalar one. -/
def Key.comparator (registry : Registry ρ) (key : Key) : Except QueryError (Comparator ρ) :=
  match registry.get? key.field with
  | some (.scalar type read) =>
    .ok fun a b => key.direction.apply
      (compareAbsent type.order (type.value? (read a)) (type.value? (read b)))
  | _ => .error (.notOrderable key.field)

/-- The comparator of some keys, of which there has to be at least one. -/
def compileKeys (registry : Registry ρ) (keys : List Key) : Except QueryError (Comparator ρ) := do
  match ← keys.mapM (·.comparator registry) with
  | [] => .error (.invalidOrderKey .noField)
  | first :: later => .ok (later.foldl Comparator.thenBy first)

/-- Compiles a sort text. -/
def compile (registry : Registry ρ) (text : String) : Except QueryError (Comparator ρ) := do
  compileKeys registry (← keys text)

end RecordQuery.Sorting
