import RecordQuery.Json.Numeral
import RecordQuery.Json.Quoted

/-!
Writing JSON text, on one line without spaces or over several lines. Members are written in the order in which
they stand.
-/
namespace RecordQuery.Json

/-! ## On one line -/

mutual

/-- The text of a value on one line. -/
def compact : Json → List Char
  | null => ['n', 'u', 'l', 'l']
  | bool true => ['t', 'r', 'u', 'e']
  | bool false => ['f', 'a', 'l', 's', 'e']
  | number n => (numeralText n).toList
  | string text => quoted text
  | array items => '[' :: List.intercalate [','] (compactItems items) ++ [']']
  | object members => '{' :: List.intercalate [','] (compactMembers members) ++ ['}']

def compactItems : List Json → List (List Char)
  | [] => []
  | item :: items => compact item :: compactItems items

def compactMembers : List (String × Json) → List (List Char)
  | [] => []
  | (name, value) :: members => (quoted name ++ ':' :: compact value) :: compactMembers members

end

/-! ## Over several lines -/

/-- A line break with two spaces for each level. -/
def lineBreak (level : Nat) : List Char :=
  '\n' :: List.replicate (2 * level) ' '

/-- Puts each part on a line of its own, one level deeper than the marks around them; no parts take no lines. -/
def block (level : Nat) (opening closing : Char) (parts : List (List Char)) : List Char :=
  if parts.isEmpty then [opening, closing]
  else
    opening :: lineBreak (level + 1) ++ List.intercalate (',' :: lineBreak (level + 1)) parts ++
      lineBreak level ++ [closing]

mutual

/-- The text of a value that stands at some level, over several lines. -/
def indented (level : Nat) : Json → List Char
  | array items => block level '[' ']' (indentedItems (level + 1) items)
  | object members => block level '{' '}' (indentedMembers (level + 1) members)
  | json => compact json

def indentedItems (level : Nat) : List Json → List (List Char)
  | [] => []
  | item :: items => indented level item :: indentedItems level items

def indentedMembers (level : Nat) : List (String × Json) → List (List Char)
  | [] => []
  | (name, value) :: members =>
    (quoted name ++ ':' :: ' ' :: indented level value) :: indentedMembers level members

end

def toText (json : Json) : String :=
  String.ofList json.compact

def toIndentedText (json : Json) : String :=
  String.ofList (json.indented 0)

end RecordQuery.Json
