import ImpSyntax.Text.Bytes
import ImpSyntax.Token.Basic

/-!
# A reading position in a source

A `Reader` is a place in a source, given as a byte offset, together with the tokens read so far.
The offset moves by any number of bytes, so it may come to lie past the end or inside a character;
then there is no text to read, which `rest?` and `current?` say by `none`.  It is a word of 64 bits
and is added to without a check, so that moves over more bytes than a word can count lead around to
the start again.
-/

namespace ImpSyntax

/-- A place in a source and the tokens collected on the way there. -/
structure Reader where
  source : String
  offset : UInt64
  tokens : List Token
deriving DecidableEq, Repr

namespace Reader

/-- The start of a source. -/
def start (source : String) : Reader :=
  ⟨source, 0, []⟩

/-- Move on by a number of bytes. -/
def advance (reader : Reader) (bytes : UInt64) : Reader :=
  { reader with offset := reader.offset + bytes }

/-- Add a token to those collected. -/
def push (reader : Reader) (token : Token) : Reader :=
  { reader with tokens := reader.tokens ++ [token] }

/-- The text that is still to be read, if the offset is a place between characters. -/
def rest? (reader : Reader) : Option (List Char) :=
  Text.dropBytes? reader.offset.toNat reader.source.toList

/-- The next character, if the offset is a place between characters; at the end there is no next
character, which is an answer too. -/
def current? (reader : Reader) : Option (Option Char) :=
  reader.rest?.map List.head?

/-- Whether nothing is left to read. -/
def atEnd (reader : Reader) : Bool :=
  decide (Text.byteSize reader.source.toList ≤ reader.offset.toNat)

end Reader

end ImpSyntax
