import RecordQuery.Command.Manual
import RecordQuery.Command.Select
import RecordQuery.Json.Printer

/-!
The program: what a command, with the texts of the files that it names, writes and how it ends. A command that fails
writes nothing to its output.
-/
namespace RecordQuery.Command

/-- What a run leaves behind. -/
structure Outcome where
  code : Nat
  output : String
  errors : String
deriving DecidableEq, Repr

/-- The arguments of a query. The schema is the text of its file, if there is such a file; counts are still text. -/
structure QueryArguments where
  schema : Option String
  input : Option String
  filter : Option String
  orderBy : Option String
  skip : Option String
  take : Option String
  config : Config
  pretty : Bool

structure CheckArguments where
  schema : Option String
  filter : Option String
  orderBy : Option String
  maxNesting : Nat

inductive Invocation where
  | query (arguments : QueryArguments)
  | check (arguments : CheckArguments)
  | topics
  | topic (name : String)

/-- The text of a file that has to be there. -/
def present (file : Option String) : Except Failure String :=
  match file with
  | some text => .ok text
  | none => .error .missingFile

/-- The text that the records of a query are read from. Without an input of its own that is `stdin`, the text of the
standard input, which is none where the standard input is a terminal. -/
def QueryArguments.inputText (a : QueryArguments) (stdin : Option String) : Option String :=
  a.input.or stdin

/-- Runs a query. -/
def QueryArguments.run (a : QueryArguments) (stdin : Option String) (wording : Wording) : Except Failure String := do
  let schema ← present a.schema
  let value? : String → Option String
    | "where" => a.filter
    | "orderBy" => a.orderBy
    | "skip" => a.skip
    | "take" => a.take
    | _ => none
  let parameters ← ofQuery (Parameters.ofRequest value?)
  let selected ← select schema (a.inputText stdin) parameters a.config wording
  .ok ((if a.pretty then selected.toIndentedText else selected.toText) ++ "\n")

/-- A line of a field listing: the name in a column of twenty characters, and the type. -/
def fieldLine (name : String) (type : FieldType) : String :=
  "  " ++ name ++ String.ofList (List.replicate (20 - name.length) ' ') ++ " " ++ type.name ++ "\n"

def CheckArguments.run (a : CheckArguments) (wording : Wording) : Except Failure String := do
  let schema ← present a.schema
  let fields ← check schema a.filter a.orderBy ⟨Config.default.defaultTake, a.maxNesting⟩ wording
  .ok ("Query is valid\n" ++ String.join (fields.map fun (name, type) => fieldLine name type))

/-- The chapter of the manual with a name. -/
def chapter (name : String) : Except Failure String :=
  match Topic.ofName? name with
  | some topic => .ok topic.text
  | none => .error (.unknownTopic name)

/-- What an invocation writes, or why it fails. -/
def Invocation.result (invocation : Invocation) (stdin : Option String) (wording : Wording) : Except Failure String :=
  match invocation with
  | .query arguments => arguments.run stdin wording
  | .check arguments => arguments.run wording
  | .topics => .ok overview
  | .topic name => chapter name

def Invocation.run (invocation : Invocation) (stdin : Option String) (wording : Wording := .plain) : Outcome :=
  match invocation.result stdin wording with
  | .ok output => ⟨0, output, ""⟩
  | .error failure => ⟨1, "", failure.message ++ "\n"⟩

end RecordQuery.Command
