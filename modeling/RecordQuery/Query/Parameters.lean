import RecordQuery.Number.Digits
import RecordQuery.Query.Error
import RecordQuery.Query.Page

/-!
The parameters of a request: `where` filters, `orderBy` sorts, `skip` and `take` page. Other keys mean nothing.
-/
namespace RecordQuery

/-- Reads the value of `skip` or `take`. -/
def readCount (key value : String) : Except QueryError Nat :=
  match Number.count? value.toList with
  | some n => .ok n
  | none => .error (.invalidParameter key value)

structure Parameters where
  filter : Option String
  orderBy : Option String
  skip : Option Nat
  take : Option Nat
deriving DecidableEq, Repr

namespace Parameters

/-- A count that may be missing. -/
def count? (key : String) : Option String → Except QueryError (Option Nat)
  | none => .ok none
  | some value => (readCount key value).map some

/-- Reads the parameters of a request, `skip` before `take`. -/
def ofRequest (value? : String → Option String) : Except QueryError Parameters := do
  let skip ← count? "skip" (value? "skip")
  let take ← count? "take" (value? "take")
  .ok ⟨value? "where", value? "orderBy", skip, take⟩

def page (p : Parameters) : Page :=
  ⟨p.skip, p.take⟩

end Parameters

end RecordQuery
