import RecordQuery.Command.Program
import RecordQuery.Number.Digits

/-!
The arguments of the program: a command and its options, as the words of a command line. What they amount to is a
plan, which says what has to be read before the command can run.
-/
namespace RecordQuery.Command

/-- An option, under its long name and perhaps a letter; a switch has no value. -/
structure Flag where
  name : String
  letter : Option Char
  isSwitch : Bool

/-- What to read, and the command to run on it. -/
structure Plan where
  schemaFile : Option String
  readsInput : Bool
  invocation : (schema : Option String) → Invocation

def sharedFlags : List Flag :=
  [⟨"schema", some 's', false⟩, ⟨"where", some 'f', false⟩, ⟨"order-by", some 'o', false⟩,
    ⟨"max-nesting", none, false⟩]

def queryFlags : List Flag :=
  sharedFlags ++ [⟨"input", some 'i', false⟩, ⟨"skip", none, false⟩, ⟨"take", none, false⟩,
    ⟨"default-take", none, false⟩, ⟨"pretty", some 'p', true⟩]

/-- The option that a word names, with the value that is attached to it. -/
def flagOf? (flags : List Flag) (word : String) : Option (Flag × Option String) :=
  match word.toList with
  | '-' :: '-' :: cs =>
    let name := String.ofList (cs.takeWhile (· ≠ '='))
    let value := match cs.dropWhile (· ≠ '=') with
      | _ :: value => some (String.ofList value)
      | [] => none
    (flags.find? fun flag => flag.name = name).map fun flag => (flag, value)
  | '-' :: letter :: cs =>
    let value := match cs with
      | [] => none
      | '=' :: value => some (String.ofList value)
      | value => some (String.ofList value)
    (flags.find? fun flag => flag.letter = some letter).map fun flag => (flag, value)
  | _ => none

/-- Reads options, each with its value in the same word or in the next one. -/
def options (flags : List Flag) : List String → Except String (Table String)
  | [] => .ok .empty
  | word :: words =>
    match flagOf? flags word with
    | none => .error ("unexpected argument '" ++ word ++ "' found")
    | some (flag, value) =>
      match flag.isSwitch, value, words with
      | true, _, words => (options flags words).map fun table => table.insert flag.name ""
      | false, some value, words => (options flags words).map fun table => table.insert flag.name value
      | false, none, value :: words =>
        (options flags words).map fun table => table.insert flag.name value
      | false, none, [] =>
        .error ("a value is required for '--" ++ flag.name ++ "' but none was supplied")

def countOption (table : Table String) (name : String) (default : Nat) : Except String Nat :=
  match table.get? name with
  | none => .ok default
  | some value =>
    match Number.count? value.toList with
    | some n => .ok n
    | none => .error ("invalid value '" ++ value ++ "' for '--" ++ name ++ "'")

def required (table : Table String) (name : String) : Except String String :=
  match table.get? name with
  | some value => .ok value
  | none => .error ("the argument '--" ++ name ++ "' was not provided")

/-- Reads a command line. -/
def Plan.ofArguments : List String → Except String Plan
  | "query" :: words => do
    let table ← options queryFlags words
    let file ← required table "schema"
    let defaultTake ← countOption table "default-take" Config.default.defaultTake
    let maxNesting ← countOption table "max-nesting" Config.default.maxNesting
    let arguments (schema : Option String) : QueryArguments :=
      { schema, input := table.get? "input", filter := table.get? "where",
        orderBy := table.get? "order-by", skip := table.get? "skip", take := table.get? "take",
        config := ⟨defaultTake, maxNesting⟩, pretty := (table.get? "pretty").isSome }
    .ok ⟨some file, (table.get? "input").isNone, fun schema => .query (arguments schema)⟩
  | "check" :: words => do
    let table ← options sharedFlags words
    let file ← required table "schema"
    let maxNesting ← countOption table "max-nesting" Config.default.maxNesting
    let arguments (schema : Option String) : CheckArguments :=
      { schema, filter := table.get? "where", orderBy := table.get? "order-by", maxNesting }
    .ok ⟨some file, false, fun schema => .check (arguments schema)⟩
  | ["docs"] => .ok ⟨none, false, fun _ => .topics⟩
  | ["doc", name] => .ok ⟨none, false, fun _ => .topic name⟩
  | _ => .error "expected one of the commands query, check, docs and doc"

end RecordQuery.Command
