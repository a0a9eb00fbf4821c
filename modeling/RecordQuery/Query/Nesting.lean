import RecordQuery.Query.Error

/-!
How deep parentheses and nested queries may stand in one another.
-/
namespace RecordQuery

structure Nesting where
  depth : Nat
  limit : Nat
deriving DecidableEq, Repr

namespace Nesting

def defaultLimit : Nat := 32

def ofLimit (limit : Nat) : Nesting :=
  ⟨0, limit⟩

/-- One level deeper, if the limit allows it. -/
def descend (n : Nesting) : Except QueryError Nesting :=
  if n.depth < n.limit then .ok ⟨n.depth + 1, n.limit⟩ else .error (.nestingTooDeep n.limit)

end Nesting

end RecordQuery
