import RecordQuery.Record.Field
import RecordQuery.Record.Literal

/-!
The meaning of a clause over a registry. A clause over a scalar field is a test of records, with its literals read
once; a clause over a relation asks for a test of the related records, which its nested query has to give.
-/
namespace RecordQuery.Filter

abbrev Predicate (ρ : Type) := ρ → Bool

variable {ρ : Type}

namespace Clause

def unsupported (c : Clause) (type : FieldType) : QueryError :=
  .unsupportedOperator c.field c.operator type

/-- The operator of the clause, if the type has it. -/
def operatorOn (c : Clause) (type : FieldType) : Except QueryError Operator :=
  match Operator.ofWord? c.operator with
  | some op => if type.supports op then .ok op else .error (c.unsupported type)
  | none => .error (c.unsupported type)

/-- Compares two values of a scalar type, either of which may be absent. -/
def compareScalar (type : Scalar) (comparison : Comparison) (value literal : Option type.Value) : Bool :=
  comparison.holds (fun a b => some (type.order a b)) value literal

/-- Whether a value equals one of some others, any of which may be absent; absent ones equal each other. -/
def isOneOf (type : Scalar) (others : List (Option type.Value)) (value : Option type.Value) : Bool :=
  others.any fun other =>
    match value, other with
    | some value, some other => type.equal value other
    | none, none => true
    | _, _ => false

/-- The test of a clause on the value of a scalar field. Comparisons ask for the order of the value and the literal,
and membership for equality with one of the items. -/
def test (c : Clause) (type : Scalar) : Except QueryError (Option type.Value → Bool) := do
  let op ← c.operatorOn (.scalar type)
  match op, c.operand with
  | .compare comparison, .literal text => do
    let literal ← type.literal c.field text
    .ok fun value => compareScalar type comparison value literal
  | .member, .array items => do
    let literals ← items.mapM (type.literal c.field)
    .ok (isOneOf type literals)
  | .text textTest, .literal part =>
    .ok fun value => (value.bind type.text?).any fun text => textTest.holds text part
  | _, _ => .error (c.unsupported (.scalar type))

end Clause

/-- What a term comes down to: a test of records, or a query inside it with its own registry, whose test is lifted
to the records. -/
inductive Resolved (ρ : Type) where
  | test (test : Predicate ρ)
  | inner (registry : Registry ρ) (query : String) (lift : Predicate ρ → Predicate ρ)

/-- Resolves a clause against a registry. -/
def Clause.resolve (c : Clause) (registry : Registry ρ) : Except QueryError (Resolved ρ) :=
  match registry.get? c.field with
  | none => .error (.unknownField c.field)
  | some (.scalar type read) => do
    let test ← c.test type
    .ok (.test fun record => test (type.value? (read record)))
  | some (.relation children related) => do
    let op ← c.operatorOn .relation
    match op, c.operand with
    | .quantify quantifier, .nested query =>
      .ok (.inner related query fun test record => quantifier.holds (children record) test)
    | _, _ => .error (.expectedChildQuery c.field)

/-- Resolves a term; a group stands for the query inside it. -/
def Term.resolve (registry : Registry ρ) : Term → Except QueryError (Resolved ρ)
  | .group inner => .ok (.inner registry inner id)
  | .clause c => c.resolve registry

end RecordQuery.Filter
