import RecordQuery.Query.Error

/-!
What can go wrong when a command is run.
-/
namespace RecordQuery.Command

/-- The JSON documents that a command reads. -/
inductive Document where
  | schema
  | input
deriving DecidableEq, Repr

/-- What a reader of JSON says when it refuses a text as one of the documents. The words are the reader's own, and the
commands hand them on whatever they are. -/
abbrev Wording := Document → String → String

/-- The words of a reader that only says which document it is. -/
def Wording.plain : Wording
  | .schema, _ => "the schema cannot be read"
  | .input, _ => "the input cannot be read"

inductive Failure where
  | query (error : QueryError)
  /-- A text that the reader refuses as a document, with what it says of it: a schema or an input that is not JSON, or a
  schema that is JSON and no schema. -/
  | malformed {document : Document} {complaint : String}
  | missingFile
  | noInput
  | notAnArray
  | unknownTopic (name : String)
deriving DecidableEq, Repr

/-- The failure of a text that is refused as this document. -/
def Document.refused (document : Document) (wording : Wording) (text : String) : Failure :=
  @Failure.malformed document (wording document text)

namespace Failure

def message : Failure → String
  | query error => error.message
  | @malformed _ complaint => "Invalid JSON: " ++ complaint
  | missingFile => "IO error: No such file or directory (os error 2)"
  | noInput => "No input provided. Use --input or pipe JSON to stdin."
  | notAnArray => "Input must be a JSON array of records."
  | unknownTopic name =>
    "Unknown category: '" ++ name ++ "'\nRun 'exq docs' to see available categories."

/-- The error of the query that the failure comes from, if any. -/
def source? : Failure → Option QueryError
  | query error => some error
  | _ => none

end Failure

end RecordQuery.Command
