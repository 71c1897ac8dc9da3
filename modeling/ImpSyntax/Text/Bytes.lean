/-!
# Byte offsets in a text

Places in a text can be counted in bytes of its UTF-8 encoding.  Such an offset names a place
between characters only if it falls on the boundary of a character and not past the end.
-/

namespace ImpSyntax.Text

/-- The length of a text in bytes. -/
def byteSize (s : List Char) : Nat :=
  s.foldr (fun c size => c.utf8Size + size) 0

/-- The text from a byte offset on.  There is none if the offset lies past the end of the text or
inside a character. -/
def dropBytes? : Nat → List Char → Option (List Char)
  | 0, s => some s
  | _ + 1, [] => none
  | n + 1, c :: s => if c.utf8Size ≤ n + 1 then dropBytes? (n + 1 - c.utf8Size) s else none

end ImpSyntax.Text
