import ImpSyntax.Text.Quoted
import ImpSyntax.Token.Basic

/-!
# Failures

Reading a program fails for one of five causes, the `Fault`.  A `Failure` adds the line the fault
was found on; it has none if the source ended too early.  The wording is derived from the fault:

* `Fault.message` says what is wrong;
* `Fault.category` sorts faults into unreadable source and wrong syntax;
* `Fault.advice?` is a hint for the author of the program;
* `Failure.display` is the message with its line.
-/

namespace ImpSyntax

/-- Why a text is no program. -/
inductive Fault where
  /-- The text starts no lexeme, or opens a comment that is never closed. -/
  | unrecognised (text : String)
  /-- A token of one of the expected kinds is missing before the token with the found text. -/
  | unexpected (expected : List Kind) (found : String)
  /-- A token of one of the expected kinds is missing at the end. -/
  | unexpectedEnd (expected : List Kind)
  /-- An expression is missing. -/
  | expectedOperand
  /-- The text of a number token denotes no number. -/
  | malformedNumber (text : String)
deriving DecidableEq, Repr

/-- A fault and the line it was found on, if any. -/
structure Failure where
  fault : Fault
  line : Option LineNumber
deriving DecidableEq, Repr

namespace Fault

/-- A list of kinds as messages show it. -/
def listKinds (kinds : List Kind) : String :=
  "[" ++ ", ".intercalate (kinds.map Kind.describe) ++ "]"

/-- What is wrong, in one line. -/
def message : Fault → String
  | unrecognised text => "unrecognised token: " ++ Text.quoted text
  | unexpected expected found =>
    "expected " ++ listKinds expected ++ ", found " ++ Text.quoted found
  | unexpectedEnd expected => "expected " ++ listKinds expected ++ ", found end of input"
  | expectedOperand => "expected number or identifier"
  | malformedNumber text => "error parsing number: " ++ Text.quoted text

/-- Whether the lexemes of the source are sound and their order is at fault. -/
def isSyntax : Fault → Bool
  | unrecognised _ => false
  | _ => true

/-- The name of the category a fault belongs to. -/
def category (fault : Fault) : String :=
  if fault.isSyntax then "SyntaxError" else "UnrecognisedToken"

/-- A hint for the author of the program. -/
def advice? : Fault → Option String
  | unrecognised _ => none
  | unexpected expected found =>
    let hint := "Unexpected token: `" ++ found ++ "`"
    some (if expected.contains .semicolon then hint ++ ", did you miss a semicolon?" else hint)
  | unexpectedEnd _ => some "The program ended in the middle of a statement"
  | expectedOperand => some "Operands are numbers, identifiers or parenthesised expressions"
  | malformedNumber text => some ("Invalid number: `" ++ text ++ "`")

end Fault

namespace Failure

/-- The message of a failure, followed by its line if it has one. -/
def display (failure : Failure) : String :=
  match failure.line with
  | some line =>
    failure.fault.message ++ "\n line: " ++ String.ofList (Text.decimalDigits line.toNat)
  | none => failure.fault.message

end Failure

end ImpSyntax
