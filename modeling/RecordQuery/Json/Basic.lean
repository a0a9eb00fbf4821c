import RecordQuery.Number.Binary64
import RecordQuery.Table

/-!
JSON values. An object keeps its members as they were written, so that a name may stand there twice; the last
one counts. The canonical form of a value has every name once, in the order of names.
-/
namespace RecordQuery

/-- A number is an integer if it was written as one and has 64 bits, with or without a sign. -/
inductive Numeral where
  | int (value : Int)
  | float (value : Binary64)
deriving DecidableEq, Repr

inductive Json where
  | null
  | bool (value : Bool)
  | number (value : Numeral)
  | string (value : String)
  | array (items : List Json)
  | object (members : List (String × Json))
deriving Inhabited

namespace Json

/-- The last member of an object under a name. -/
def get? (name : String) : Json → Option Json
  | object members => members.reverse.lookup name
  | _ => none

mutual

/-- The same value with every object's members in the order of their names, each name once. -/
def canonical : Json → Json
  | array items => array (canonicalItems items)
  | object members => object (Table.ofList (canonicalMembers members)).entries
  | json => json

def canonicalItems : List Json → List Json
  | [] => []
  | item :: items => item.canonical :: canonicalItems items

def canonicalMembers : List (String × Json) → List (String × Json)
  | [] => []
  | (name, value) :: members => (name, value.canonical) :: canonicalMembers members

end

end Json

end RecordQuery
