import RecordQuery.Calendar.Reader
import RecordQuery.Query.Error

/-!
Literals: the text of a value, as a query writes it. The literal `null` stands for the absence of a value; among
text it is text like any other, and a type `dateTime` does not take it.
-/
namespace RecordQuery

/-- Reads `true` or `false` in any letter case. -/
def readBool? (text : String) : Option Bool :=
  let lower := String.ofList (text.toList.map Char.toLower)
  if lower = "true" then some true else if lower = "false" then some false else none

namespace Scalar

/-- Reads the text of a value. -/
def ofText? : (type : Scalar) → String → Option type.Value
  | string, text => some text
  | int, text | optionalInt, text => Number.int64? text.toList
  | decimal, text | optionalDecimal, text => Decimal.ofText? text.toList
  | optionalBool, text => readBool? text
  | dateTime, text | optionalDateTime, text => Calendar.Moment.ofText? text.toList

/-- The literal of an absent value. -/
def null : String := "null"

def hasNull : Scalar → Bool
  | string | dateTime => false
  | _ => true

/-- Reads a literal for a field: a value, or the absence of one. -/
def literal (type : Scalar) (field text : String) : Except QueryError (Option type.Value) :=
  if type.hasNull && text = null then .ok none
  else match type.ofText? text with
    | some value => .ok (some value)
    | none => .error (.invalidLiteral field text type)

end Scalar

end RecordQuery
