import RecordQuery.Query.Error
import RecordQuery.Text.Blank

/-!
The keys of a sort text: `Age desc thenBy Name` has two. Each is a field with or without a direction.
-/
namespace RecordQuery.Sorting

open Text (words)

inductive Direction where
  | asc
  | desc
deriving DecidableEq, Repr

namespace Direction

/-- The direction of a key that names none. -/
def default : Direction := asc

def word : Direction → String
  | asc => "asc"
  | desc => "desc"

def ofWord? (word : String) : Option Direction :=
  [asc, desc].find? fun direction => direction.word = word

/-- Turns an order around for `desc`. -/
def apply : Direction → Ordering → Ordering
  | asc, o => o
  | desc, o => o.swap

end Direction

structure Key where
  field : String
  direction : Direction
deriving DecidableEq, Repr

/-- The word between two keys. -/
def thenBy : String := "thenBy"

/-- Reads the words of one key. -/
def Key.ofWords : List String → Except QueryError Key
  | [] => .error (.invalidOrderKey .noField)
  | [field] => .ok ⟨field, .default⟩
  | [field, word] =>
    match Direction.ofWord? word with
    | some direction => .ok ⟨field, direction⟩
    | none => .error (.invalidDirection word)
  | _ :: _ :: extra :: _ => .error (.invalidOrderKey (.extraWord extra))

/-- Reads the keys of a sort text, the first fault in the order of the text being the answer. -/
def keys (text : String) : Except QueryError (List Key) :=
  (((words text.toList).map String.ofList).splitOn thenBy).mapM Key.ofWords

end RecordQuery.Sorting
