import RecordQuery.Calendar.Moment
import RecordQuery.Filter.Operator
import RecordQuery.Number.Decimal

/-!
The types of fields. A scalar type fixes the values of a field, whether a record may lack one, and the order of
the values; a relation leads to further records.
-/
namespace RecordQuery

open Calendar (Moment)

inductive Scalar where
  | string
  | int
  | optionalInt
  | decimal
  | optionalDecimal
  | optionalBool
  | dateTime
  | optionalDateTime
deriving DecidableEq, Repr

namespace Scalar

def all : List Scalar :=
  [string, int, optionalInt, decimal, optionalDecimal, optionalBool, dateTime, optionalDateTime]

def name : Scalar → String
  | string => "string"
  | int => "int"
  | optionalInt => "optionalInt"
  | decimal => "decimal"
  | optionalDecimal => "optionalDecimal"
  | optionalBool => "optionalBool"
  | dateTime => "dateTime"
  | optionalDateTime => "optionalDateTime"

def ofName? (name : String) : Option Scalar :=
  all.find? fun scalar => scalar.name = name

/-- The values of a type. -/
abbrev Value : Scalar → Type
  | string => String
  | int | optionalInt => Int
  | decimal | optionalDecimal => Decimal
  | optionalBool => Bool
  | dateTime | optionalDateTime => Moment

/-- What a field of a type holds: a value, or for an optional type perhaps none. -/
abbrev Cell : Scalar → Type
  | string => String
  | int => Int
  | optionalInt => Option Int
  | decimal => Decimal
  | optionalDecimal => Option Decimal
  | optionalBool => Option Bool
  | dateTime => Moment
  | optionalDateTime => Option Moment

/-- The value in a cell, if there is one. -/
def value? : (type : Scalar) → type.Cell → Option type.Value
  | string, text => some text
  | int, n => some n
  | decimal, d => some d
  | dateTime, moment => some moment
  | optionalInt, cell | optionalDecimal, cell | optionalBool, cell | optionalDateTime, cell => cell

/-- The cell that holds a value; where there is none, a type that is not optional holds its zero. -/
def cell : (type : Scalar) → Option type.Value → type.Cell
  | string, value => value.getD ""
  | int, value => value.getD 0
  | decimal, value => value.getD (.ofInt 0)
  | dateTime, value => value.getD .epoch
  | optionalInt, value | optionalDecimal, value | optionalBool, value | optionalDateTime, value => value

/-- The order of the values: text by code points, numbers by value, `false` before `true`, moments by time. -/
def order : (type : Scalar) → type.Value → type.Value → Ordering
  | string | int | optionalInt | decimal | optionalDecimal | optionalBool | dateTime
  | optionalDateTime => compare

/-- Whether two values are equal. Decimals are so by value, at whatever scales. -/
def equal : (type : Scalar) → type.Value → type.Value → Bool
  | decimal, a, b | optionalDecimal, a, b => (compare a b).isEq
  | string, a, b | int, a, b | optionalInt, a, b | optionalBool, a, b | dateTime, a, b
  | optionalDateTime, a, b => a = b

/-- The text of a value, if its type is that of text. -/
def text? : (type : Scalar) → type.Value → Option String
  | string, text => some text
  | _, _ => none

end Scalar

inductive FieldType where
  | scalar (type : Scalar)
  | relation
deriving DecidableEq, Repr

namespace FieldType

def all : List FieldType :=
  Scalar.all.map scalar ++ [relation]

def name : FieldType → String
  | scalar type => type.name
  | relation => "relation"

def ofName? (name : String) : Option FieldType :=
  all.find? fun type => type.name = name

open RecordQuery.Filter in
/-- Which operators a type has. All scalar types have comparisons, `optionalBool` only equality; membership is
for text and numbers, text tests are for text, and quantifiers for relations. -/
def supports : FieldType → Operator → Bool
  | scalar .optionalBool, .compare c => c = .equals
  | scalar _, .compare _ => true
  | scalar .string, .member | scalar .int, .member | scalar .optionalInt, .member
  | scalar .decimal, .member | scalar .optionalDecimal, .member => true
  | scalar .string, .text _ => true
  | relation, .quantify _ => true
  | _, _ => false

/-- A relation has no value to sort by. -/
def isOrderable : FieldType → Bool
  | scalar _ => true
  | relation => false

end FieldType

end RecordQuery
