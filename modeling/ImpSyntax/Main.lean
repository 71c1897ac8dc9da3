import ImpSyntax.Command.Format

/-!
# The program

The command joined to the clock, the files and the streams of the system.  It is called by the path
of its executable, and it logs every warning.
-/

namespace ImpSyntax.Command

/-- The reason that has a number with the system.  Some calls give the number negated. -/
def numberedReason? (number : UInt32) : Option ReadFailure :=
  match min number (-number) with
  | 2 => some .notFound
  | 20 => some .notDirectory
  | 21 => some .isDirectory
  | 36 => some .nameTooLong
  | _ => none

/-- The reason that the system gives for not reading a file. -/
def readFailure (failure : IO.Error) : ReadFailure :=
  let number :=
    match failure with
    | .noFileOrDirectory _ number _ => number
    | .inappropriateType _ number _ => number
    | .invalidArgument _ number _ => number
    | _ => 0
  (numberedReason? number).getD (.other (toString failure))

/-- Read the text of a file. -/
def readText (path : String) : IO (Except ReadFailure String) := do
  try
    return decodeText (← IO.FS.readBinFile path)
  catch failure =>
    return .error (readFailure failure)

/-- The line of the log for a warning, without a time. -/
def logLine (warning : Warning) : String :=
  " WARN " ++ warning.message ++
    String.join (warning.fields.map fun (field, value) => " " ++ field ++ "=" ++ value)

end ImpSyntax.Command

/-- Format the file named by the only argument. -/
def main (arguments : List String) : IO UInt32 := do
  let called ← IO.appPath
  let log (warning : ImpSyntax.Command.Warning) : IO (Option String) :=
    return some (ImpSyntax.Command.logLine warning)
  let response ← ImpSyntax.Command.run IO.monoNanosNow ImpSyntax.Command.readText log
    (called.toString :: arguments)
  for line in response.lines do
    IO.println line
  IO.eprint response.messages
  return response.status.toUInt32
