/-!
The parts of a filter text. A text is a row of segments; a segment is a term behind up to two connectives; a term
is a clause (a field, an operator and an operand) or a group in parentheses, whose inner text is kept as it is.
-/
namespace RecordQuery.Filter

inductive Connective where
  | and
  | or
  | not
deriving DecidableEq, Repr

namespace Connective

def all : List Connective := [and, or, not]

def word : Connective → String
  | and => "and"
  | or => "or"
  | not => "not"

def ofWord? (word : String) : Option Connective :=
  all.find? fun connective => connective.word = word

end Connective

/-- The connectives in front of a term. -/
structure Window where
  first : Option Connective
  second : Option Connective
deriving DecidableEq, Repr

namespace Window

/-- A `not` anywhere in the window negates the term, and two of them negate it once. -/
def negates (w : Window) : Bool :=
  w.first = some .not || w.second = some .not

def isEmpty (w : Window) : Bool :=
  w.first.isNone && w.second.isNone

def connectives (w : Window) : List Connective :=
  w.first.toList ++ w.second.toList

def toText (w : Window) : String :=
  " ".intercalate (w.connectives.map (·.word))

end Window

/-- What a clause compares its field with. -/
inductive Operand where
  | literal (text : String)
  | array (items : List String)
  | nested (query : String)
deriving DecidableEq, Repr

/-- The operator is kept as it was written. -/
structure Clause where
  field : String
  operator : String
  operand : Operand
deriving DecidableEq, Repr

inductive Term where
  | group (inner : String)
  | clause (clause : Clause)
deriving DecidableEq, Repr

structure Segment where
  window : Window
  term : Term
deriving DecidableEq, Repr

end RecordQuery.Filter
