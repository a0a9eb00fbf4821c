import RecordQuery.Command.Arguments

/-!
The command line. It reads the files that the arguments name, runs the command on their texts and writes what the
command leaves behind. That a file is missing is for the command to report; any other fault of reading ends the run
before the command starts.
-/
namespace RecordQuery.Command

def decoded (bytes : ByteArray) : IO String :=
  match String.fromUTF8? bytes with
  | some text => return text
  | none => throw (IO.userError "stream did not contain valid UTF-8")

/-- The text of a file, if there is such a file. -/
def readFile? (file : String) : IO (Option String) := do
  try
    return some (← decoded (← IO.FS.readBinFile file))
  catch
    | .noFileOrDirectory .. => return none
    | fault => throw fault

/-- The text of the standard input, unless it is a terminal. -/
def readInput? : IO (Option String) := do
  let input ← IO.getStdin
  if ← input.isTty then
    return none
  return some (← decoded (← input.readBinToEnd))

/-- A fault of reading, with the number that the system gives it. -/
def faultText : IO.Error → String
  | .permissionDenied _ code details | .inappropriateType _ code details =>
    details ++ " (os error " ++ toString code ++ ")"
  | fault => toString fault

/-- Reads what a plan needs, and runs its command. -/
def Plan.run (plan : Plan) : IO Outcome := do
  try
    let schema ← match plan.schemaFile with
      | some file => readFile? file
      | none => pure none
    let input ← if plan.readsInput && schema.isSome then readInput? else pure none
    return (plan.invocation schema).run input
  catch fault =>
    return ⟨1, "", "IO error: " ++ faultText fault ++ "\n"⟩

end RecordQuery.Command

open RecordQuery.Command in
def main (arguments : List String) : IO UInt32 := do
  match Plan.ofArguments arguments with
  | .error fault =>
    IO.eprintln ("error: " ++ fault)
    return 2
  | .ok plan =>
    let outcome ← plan.run
    IO.print outcome.output
    IO.eprint outcome.errors
    return outcome.code.toUInt32
