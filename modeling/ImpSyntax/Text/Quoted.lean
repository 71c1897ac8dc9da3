import ImpSyntax.Text.Combining
import ImpSyntax.Text.Digits
import ImpSyntax.Text.Invisible

/-!
# Quoted text

Messages show foreign text between double quotes, on one line and in characters that can be told
apart.  The quote, the backslash and four controls are written as a backslash and a letter; every
other character that would join its neighbour or not show at all is written by its code point, as
`\u{301}`; the rest stands for itself.
-/

namespace ImpSyntax.Text

/-- Whether a character is written by its code point: it is combining or invisible. -/
def needsCode (c : Char) : Bool :=
  isCombining c || isInvisible c

/-- A character as it stands between quotes. -/
def escape (c : Char) : List Char :=
  match c with
  | '\x00' => ['\\', '0']
  | '\t' => ['\\', 't']
  | '\n' => ['\\', 'n']
  | '\r' => ['\\', 'r']
  | '"' => ['\\', '"']
  | '\\' => ['\\', '\\']
  | c =>
    if needsCode c then
      ['\\', 'u', '\x7b'] ++ hexDigits c.toNat ++ ['\x7d']
    else
      [c]

/-- A text between double quotes, every character escaped where it has to be. -/
def quote (s : List Char) : List Char :=
  '"' :: s.flatMap escape ++ ['"']

/-- A string between double quotes, every character escaped where it has to be. -/
def quoted (s : String) : String :=
  String.ofList (quote s.toList)

end ImpSyntax.Text
