import RecordQuery.Filter.Segment
import RecordQuery.Record.FieldType

/-!
What can be wrong with a query. A faulty text is refused as a whole. An error about the form of a filter text
carries the text from the offending place on.
-/
namespace RecordQuery

/-- What is wrong with a key of a sort text. -/
inductive KeyFault where
  | noField
  | extraWord (word : String)
deriving DecidableEq, Repr

inductive QueryError where
  /-- A parenthesis that never closes, or was never opened. -/
  | unbalancedParenthesis (rest : String)
  | unclosedQuote (rest : String)
  /-- `in` without a bracket behind it. -/
  | expectedArray (rest : String)
  | unclosedArray (rest : String)
  /-- A quantifier without a parenthesis behind it, or a relation without a nested query. -/
  | expectedChildQuery (place : String)
  | missingOperator (field : String)
  | missingOperand (field operator : String)
  /-- Connectives with no term behind them. -/
  | expectedClause (window : Filter.Window)
  /-- Two terms that neither `and` nor `or` joins. -/
  | invalidConnective (found : Option Filter.Connective)
  | unknownField (field : String)
  | unsupportedOperator (field operator : String) (type : FieldType)
  | invalidLiteral (field literal : String) (type : Scalar)
  | notOrderable (field : String)
  | invalidOrderKey (fault : KeyFault)
  | invalidDirection (word : String)
  | invalidParameter (key value : String)
  | nestingTooDeep (limit : Nat)
deriving DecidableEq, Repr

/-- How a literal of a type is called. -/
def Scalar.literalKind : Scalar → String
  | .string => "a string"
  | .int | .optionalInt => "an integer"
  | .decimal | .optionalDecimal => "a decimal"
  | .optionalBool => "a boolean"
  | .dateTime | .optionalDateTime => "a date/time"

def KeyFault.message : KeyFault → String
  | noField => "expected property after thenBy"
  | extraWord word => "expected thenBy at " ++ word

namespace QueryError

/-- The cause of an error, in words. -/
def cause : QueryError → String
  | unbalancedParenthesis rest => "unbalanced parenthesis: " ++ rest
  | unclosedQuote rest => "unclosed quote: " ++ rest
  | expectedArray rest => "expected array value starting here: " ++ rest
  | unclosedArray rest => "this array did not close: " ++ rest
  | expectedChildQuery place => "expected parenthesis here: " ++ place
  | missingOperator field => "expected operator after '" ++ field ++ "'"
  | missingOperand field operator => "expected value after '" ++ field ++ " " ++ operator ++ "'"
  | expectedClause window => "expected expression after '" ++ window.toText ++ "'"
  | invalidConnective found =>
    "expected 'and' or 'or' between expressions, but got '" ++ (found.map (·.word)).getD "" ++ "'"
  | unknownField field => field ++ " is not filterable"
  | unsupportedOperator field operator type =>
    "operation " ++ operator ++ " is not supported for " ++ field ++ " (" ++ type.name ++ ")"
  | invalidLiteral field literal type =>
    "could not parse '" ++ literal ++ "' as " ++ type.literalKind ++ " for " ++ field
  | notOrderable field => "property " ++ field ++ " is not valid for orderBy"
  | invalidOrderKey fault => "orderBy " ++ fault.message
  | invalidDirection word => "orderBy expected asc, desc, or thenBy at " ++ word
  | invalidParameter key value =>
    "argument for " ++ key ++ " could not be parsed to a non-negative integer. Value: " ++ value
  | nestingTooDeep limit => "query nesting exceeds the limit of " ++ toString limit

def message (e : QueryError) : String :=
  "invalid query argument: " ++ e.cause

end QueryError

end RecordQuery
