import ImpSyntax.Failure
import ImpSyntax.Text.Blank

/-!
# Reports

A failure is shown to the author of the program with the line it was found on, as in

    Error: SyntaxError (Unexpected token: `;`)
    -> program.imp
      |
    2 | print ;
    expected [identifier], found ";"

The line is quoted without the blanks at its ends.  A failure without a line, or with one that the
source does not have, shows the end of the input in its place.
-/

namespace ImpSyntax

namespace Report

/-- The line with the given number of a source, without its break. -/
def sourceLine? (source : String) (line : LineNumber) : Option String :=
  (Text.line? source.toList line).map String.ofList

/-- The head of a report: the category of the fault and the advice for it. -/
def headline (fault : Fault) : String :=
  match fault.advice? with
  | some advice => "Error: " ++ fault.category ++ " (" ++ advice ++ ")"
  | none => "Error: " ++ fault.category

/-- The quotation of a line: an empty margin above it, then its number and its text. -/
def excerpt (line : LineNumber) (text : List Char) : List String :=
  let number := Text.decimalDigits line.toNat
  [String.ofList (List.replicate (number.length + 1) ' ') ++ "|",
   String.ofList number ++ " | " ++ String.ofList (Text.trim text)]

/-- What a report shows in the place of a line that there is none of. -/
def endMark : String :=
  "   | <end of input>"

/-- The quotation of the line of a failure. -/
def quotation (failure : Failure) (source : String) : List String :=
  match failure.line with
  | none => [endMark]
  | some line =>
    match Text.line? source.toList line with
    | none => [endMark]
    | some text => excerpt line text

/-- The lines of a report about a failure in a source that was read from the given file. -/
def rows (failure : Failure) (source file : String) : List String :=
  [headline failure.fault, "-> " ++ file] ++ quotation failure source ++ [failure.fault.message]

/-- The report about a failure in a source that was read from the given file. -/
def render (failure : Failure) (source file : String) : String :=
  String.join ((rows failure source file).map (· ++ "\n"))

end Report

end ImpSyntax
