import ImpSyntax.Command.Disk
import ImpSyntax.Command.Duration
import ImpSyntax.Program
import ImpSyntax.Report
import ImpSyntax.Stmt.Printer

/-!
# The command

The command formats one source file: it prints the canonical text of each of its statements, after
three lines that tell how long the work took.  If the file cannot be read or is no program, no
statement is printed and the reason is reported.  `Command.run` is the whole command but for the
clock, the files and the log, which it is given.  The log takes warnings only; if it keeps one, its
line for it is printed with the rest.
-/

namespace ImpSyntax

namespace Command

/-- What is timed. -/
inductive Stage where
  | tokenizing
  | parsing
  | total
deriving DecidableEq, Repr

/-- What is printed before the duration of a stage. -/
def Stage.label : Stage → String
  | tokenizing => "Tokenized in "
  | parsing => "Parsed in "
  | total => "Total time: "

/-- A line of output. -/
inductive OutputLine where
  /-- How long a stage took, in nanoseconds. -/
  | timing (stage : Stage) (duration : Nat)
  /-- The text of a statement. -/
  | statement (text : String)
  /-- A line of the log. -/
  | logged (text : String)
deriving DecidableEq, Repr

/-- The text of a line of output. -/
def OutputLine.render : OutputLine → String
  | timing stage duration => stage.label ++ Duration.render duration
  | statement text => text
  | logged text => text

/-- What the command leaves behind: its exit status, its output and its messages. -/
structure Response where
  status : UInt8
  output : List OutputLine
  messages : String
deriving DecidableEq, Repr

/-- The lines that are printed, each with a line feed behind it. -/
def Response.lines (response : Response) : List String :=
  response.output.map OutputLine.render

/-- The name of the command for a call that gives it none. -/
def name : String :=
  "arith"

/-- The message for a call with too few or too many arguments. -/
def usage (called : Option String) : String :=
  "usage: " ++ called.getD name ++ " <file>\n"

/-- The message for a file that cannot be read. -/
def unreadable (path : String) (failure : ReadFailure) : String :=
  "Failed to read " ++ path ++ ": " ++ failure.reason ++ "\n"

/-- A warning for the log: a message, and fields with their values. -/
structure Warning where
  message : String
  fields : List (String × String)
deriving DecidableEq, Repr

/-- The warning about a file that cannot be read. -/
def Warning.unreadable (path : String) (failure : ReadFailure) : Warning where
  message := "failed to read source file"
  fields := [("path", path), ("error", failure.reason)]

variable {m : Type → Type} [Monad m]

/-- Format a source that was read from the given path. -/
def format (clock : m Nat) (path source : String) : m Response := do
  let report (failure : Failure) := Report.render failure source (Path.title path)
  let started ← clock
  match tokenize source with
  | .error failure => return ⟨1, [], report failure⟩
  | .ok tokens =>
    let tokenizing := OutputLine.timing .tokenizing ((← clock) - started)
    let parseStarted ← clock
    match parse tokens with
    | .error failure => return ⟨1, [tokenizing], report failure⟩
    | .ok program =>
      let parsing := OutputLine.timing .parsing ((← clock) - parseStarted)
      let total := OutputLine.timing .total ((← clock) - started)
      let statements := program.map fun s => OutputLine.statement s.render
      return ⟨0, [tokenizing, parsing, total] ++ statements, ""⟩

/-- Run the command with the given arguments, the first of which is the name it is called by. -/
def run (clock : m Nat) (read : String → m (Except ReadFailure String))
    (log : Warning → m (Option String)) (arguments : List String) : m Response := do
  match arguments with
  | [_, path] =>
    match ← read path with
    | .error failure =>
      let logged ← log (.unreadable path failure)
      return ⟨1, logged.toList.map .logged, unreadable path failure⟩
    | .ok source => format clock path source
  | _ => return ⟨2, [], usage arguments.head?⟩

end Command

end ImpSyntax
