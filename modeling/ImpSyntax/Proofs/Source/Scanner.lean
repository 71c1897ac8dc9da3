import ImpSyntax.Proofs.Source.Layout
import ImpSyntax.Proofs.Source.Pattern
import ImpSyntax.Proofs.Text.Bytes
import ImpSyntax.Source.Reader

/-!
# Scanning by byte offsets

The tokens of a source can also be collected by a loop that goes through it with a `Reader`.  Each
turn of the loop tries the patterns of a table on the text at the offset, and the handler in the row
of the first one that matches moves the offset.  Handlers of symbols move it by the length of a text
of their own, which is the one that was matched only if the rows of the table are right
(`table_eq`).  A turn is lost where the reader has no text, which is the case past the end of the
source and inside a character.

No turn is lost.  In each state that is reached the offset lies between two characters
(`Reaches.at`), because a turn moves it by the bytes of the characters that were matched
(`At.turn_cases`).  So the loop comes to its end, where it has the result of `tokenize`
(`exists_last`).  All this is about sources whose bytes a word can count, in which the offset never
goes around (`Reader.toNat_offset_advance`).

The main result is `scan_in_bounds`.  It also tells what a reader finds after any moves, which is
what is at the sum of the moves only as long as a word can hold that sum
(`not_findsAt_distance`).
-/

namespace ImpSyntax

open Element

/-! ## The loop -/

/-- What is done with the text that a pattern has matched. -/
inductive Handler where
  /-- Drop it. -/
  | skip
  /-- Fail, as it opens a comment that is not closed. -/
  | unclosed
  /-- Make a token of it, which is a reserved word or an identifier. -/
  | word
  /-- Make a token of it, which is a number. -/
  | number
  /-- Make a token of the kind with the given text instead of it. -/
  | fixed (kind : Kind) (text : String)
deriving DecidableEq, Repr

/-- The state of the loop: a place in the source with the number of its line. -/
structure Scanner where
  reader : Reader
  line : LineNumber
deriving DecidableEq, Repr

/-- What one turn of the loop comes to. -/
inductive Turn where
  /-- Nothing is left to read. -/
  | done (tokens : List Token)
  /-- The offset is no place between characters. -/
  | lost
  | failed (failure : Failure)
  /-- The handler has accepted what was matched and leaves this state. -/
  | next (handler : Handler) (matched : List Char) (scanner : Scanner)

namespace Scanner

/-- The state before the first turn. -/
def start (source : String) : Scanner :=
  ⟨.start source, 1⟩

/-- Collect a token and move past its text. -/
def emit (scanner : Scanner) (kind : Kind) (text : String) : Scanner :=
  { scanner with
    reader := (scanner.reader.push ⟨kind, text, scanner.line⟩).advance
      (UInt64.ofNat (Text.byteSize text.toList)) }

/-- Move past blanks or a comment. -/
def skip (scanner : Scanner) (matched : List Char) : Scanner :=
  ⟨scanner.reader.advance (UInt64.ofNat (Text.byteSize matched)),
    scanner.line + Text.lineBreaks matched⟩

end Scanner

namespace Handler

/-- Use the handler on what was matched. -/
def run (matched : List Char) (scanner : Scanner) : Handler → Except Failure Scanner
  | skip => .ok (scanner.skip matched)
  | unclosed => .error ⟨.unrecognised (String.ofList matched), some scanner.line⟩
  | word => .ok (scanner.emit (Kind.ofWord matched) (String.ofList matched))
  | number => .ok (scanner.emit .number (String.ofList matched))
  | fixed kind text => .ok (scanner.emit kind text)

/-- The rows of the table, in the order in which they are tried. -/
def table : List (Pattern × Handler) :=
  [(.blanks, skip), (.lineComment, skip), (.blockComment, skip), (.openComment, unclosed),
   (.word, word), (.number, number),
   (.symbol .leftBrace, fixed .leftBrace "\x7b"), (.symbol .rightBrace, fixed .rightBrace "\x7d"),
   (.symbol .leftParen, fixed .leftParen "("), (.symbol .rightParen, fixed .rightParen ")"),
   (.symbol .equal, fixed .equal "=="), (.symbol .notEqual, fixed .notEqual "!="),
   (.symbol .logicalNot, fixed .logicalNot "!"), (.symbol .assign, fixed .assign "="),
   (.symbol .lessEqual, fixed .lessEqual "<="), (.symbol .less, fixed .less "<"),
   (.symbol .greaterEqual, fixed .greaterEqual ">="), (.symbol .greater, fixed .greater ">"),
   (.symbol .logicalOr, fixed .logicalOr "||"), (.symbol .orAssign, fixed .orAssign "|="),
   (.symbol .bitOr, fixed .bitOr "|"), (.symbol .logicalAnd, fixed .logicalAnd "&&"),
   (.symbol .andAssign, fixed .andAssign "&="), (.symbol .bitAnd, fixed .bitAnd "&"),
   (.symbol .xorAssign, fixed .xorAssign "^="), (.symbol .bitXor, fixed .bitXor "^"),
   (.symbol .semicolon, fixed .semicolon ";"), (.symbol .comma, fixed .comma ","),
   (.symbol .increment, fixed .increment "++"), (.symbol .addAssign, fixed .addAssign "+="),
   (.symbol .plus, fixed .plus "+"), (.symbol .decrement, fixed .decrement "--"),
   (.symbol .subAssign, fixed .subAssign "-="), (.symbol .minus, fixed .minus "-"),
   (.symbol .divAssign, fixed .divAssign "/="), (.symbol .slash, fixed .slash "/"),
   (.symbol .mulAssign, fixed .mulAssign "*="), (.symbol .star, fixed .star "*")]

/-- The handler of the first row whose pattern matches at the front of a text, and what it matches
there. -/
def find (rest : List Char) : Option (Handler × List Char) :=
  match rest with
  | [] => none
  | c :: s => table.findSome? fun (pattern, handler) =>
      (pattern.more? c s).map fun more => (handler, c :: s.take more)

end Handler

namespace Scanner

/-- One turn of the loop. -/
def turn (scanner : Scanner) : Turn :=
  if scanner.reader.atEnd then
    .done scanner.reader.tokens
  else
    match scanner.reader.rest? with
    | none => .lost
    | some rest =>
      match Handler.find rest with
      | some (handler, matched) =>
        match handler.run matched scanner with
        | .ok next => .next handler matched next
        | .error failure => .failed failure
      | none =>
        match scanner.reader.current? with
        | none => .lost
        | some c => .failed ⟨.unrecognised (String.ofList c.toList), some scanner.line⟩

/-- The states that the loop goes through. -/
inductive Reaches : Scanner → Scanner → Prop where
  | refl (scanner : Scanner) : Reaches scanner scanner
  | step {scanner next last : Scanner} {handler : Handler} {matched : List Char}
      (hturn : scanner.turn = .next handler matched next) (hrest : Reaches next last) :
      Reaches scanner last

end Scanner

namespace Pattern

variable {c : Char} {s : List Char} {pattern : Pattern} {more : Nat}

lemma more?_of_firstMatch (h : firstMatch c s = some (pattern, more)) :
    pattern.more? c s = some more := by
  obtain ⟨found, -, hfound⟩ := List.exists_of_findSome?_eq_some h
  obtain ⟨length, hmore, heq⟩ := Option.map_eq_some_iff.1 hfound
  obtain ⟨rfl, rfl⟩ := Prod.mk.inj heq
  exact hmore

lemma opensComment_of_firstMatch (h : firstMatch c s = none) : opensComment c s = false := by
  have hopen := List.findSome?_eq_none_iff.1 h openComment (by decide)
  rw [Option.map_eq_none_iff, more?] at hopen
  simpa using hopen

end Pattern

namespace Handler

/-- The handler of the row of a pattern.  What a symbol is spelled like is the text that its handler
moves past. -/
def ofPattern : Pattern → Handler
  | .blanks | .lineComment | .blockComment => skip
  | .openComment => unclosed
  | .word => word
  | .number => number
  | .symbol kind => fixed kind (kind.lexeme?.getD "")

lemma table_eq : table = Pattern.table.map fun pattern => (pattern, ofPattern pattern) := by
  decide

variable {c : Char} {s : List Char} {pattern : Pattern} {role : Role} {more : Nat}

lemma find_cons (c : Char) (s : List Char) : find (c :: s) =
    (Pattern.firstMatch c s).map fun (pattern, more) => (ofPattern pattern, c :: s.take more) := by
  rw [find, table_eq, List.findSome?_map, Pattern.firstMatch, List.map_findSome?]
  congr 1
  funext pattern
  cases h : pattern.more? c s <;> simp [h]

end Handler

/-! ## Places -/

namespace Reader

@[simp]
lemma toNat_offset_advance (reader : Reader) (bytes : UInt64) :
    (reader.advance bytes).offset.toNat = (reader.offset.toNat + bytes.toNat) % UInt64.size :=
  UInt64.toNat_add _ _

/-- An offset moves by a number of bytes if a word can count up to where it comes. -/
lemma toNat_offset_advance_ofNat {reader : Reader} {bytes : Nat}
    (h : reader.offset.toNat + bytes < UInt64.size) :
    (reader.advance (UInt64.ofNat bytes)).offset.toNat = reader.offset.toNat + bytes := by
  have hbytes : (UInt64.ofNat bytes).toNat = bytes :=
    UInt64.toNat_ofNat_of_lt' ((Nat.le_add_left _ _).trans_lt h)
  rw [toNat_offset_advance, hbytes, Nat.mod_eq_of_lt h]

end Reader

namespace Scanner

variable {scanner : Scanner} {before rest : List Char}

/-- The scanner is between two parts of its source, all of whose bytes a word can count. -/
structure At (scanner : Scanner) (before rest : List Char) : Prop where
  source_eq : scanner.reader.source.toList = before ++ rest
  offset_eq : scanner.reader.offset.toNat = Text.byteSize before
  fits : Text.byteSize (before ++ rest) < UInt64.size

lemma At.rest? (h : At scanner before rest) : scanner.reader.rest? = some rest :=
  Text.dropBytes?_eq_some.2 ⟨before, h.source_eq, h.offset_eq.symm⟩

lemma At.current? (h : At scanner before rest) : scanner.reader.current? = some rest.head? := by
  rw [Reader.current?, h.rest?]
  rfl

lemma At.atEnd (h : At scanner before rest) : scanner.reader.atEnd = true ↔ rest = [] := by
  rw [Reader.atEnd, decide_eq_true_iff, h.source_eq, h.offset_eq, Text.byteSize_append]
  constructor
  · intro hle
    by_contra hne
    have hpos := Text.byteSize_pos hne
    omega
  · rintro rfl
    simp

/-- The state behind a piece of the source. -/
def behind (scanner : Scanner) (piece : Piece) : Scanner :=
  ⟨⟨scanner.reader.source, scanner.reader.offset + UInt64.ofNat (Text.byteSize piece.text),
    scanner.reader.tokens ++ Piece.tokens scanner.line [piece]⟩,
    scanner.line + Text.lineBreaks piece.text⟩

lemma At.behind (piece : Piece) (h : At scanner before (piece.text ++ rest)) :
    At (scanner.behind piece) (before ++ piece.text) rest := by
  have hfits := h.fits
  refine ⟨by simpa [Scanner.behind] using h.source_eq, ?_, by rwa [List.append_assoc]⟩
  rw [← List.append_assoc, Text.byteSize_append, Text.byteSize_append, ← h.offset_eq] at hfits
  have hmoved := Reader.toNat_offset_advance_ofNat (Nat.lt_of_add_right_lt hfits)
  rw [Text.byteSize_append, ← h.offset_eq]
  exact hmoved

lemma behind_gap (scanner : Scanner) (text : List Char) :
    scanner.behind ⟨.gap, text⟩ = scanner.skip text := by
  simp [behind, skip, Piece.tokens, Reader.advance]

lemma behind_lexeme {kind : Kind} {text : List Char} (h : Lexeme kind text) :
    scanner.behind ⟨.lexeme kind, text⟩ = scanner.emit kind (String.ofList text) := by
  simp [behind, emit, Piece.tokens, Reader.advance, Reader.push, Text.lineBreaks, h.lineBreaks_eq]

/-! ## Turns -/

variable {c : Char} {s : List Char} {pattern : Pattern} {role : Role} {more : Nat}

lemma lexeme_of_front? {kind : Kind} (h : front? c s = some (.lexeme kind, more)) :
    Lexeme kind (c :: s.take more) := by
  obtain ⟨t, after, rfl, rfl, hnext⟩ := nextLexeme_of_front? h
  rw [List.take_left]
  exact hnext.lexeme

/-- The handler in the row of a pattern moves past what the pattern has matched. -/
lemma run_ofPattern (hmore : pattern.more? c s = some more)
    (hrole : pattern.role? (c :: s.take more) = some role)
    (hfront : front? c s = some (role, more)) (scanner : Scanner) :
    (Handler.ofPattern pattern).run (c :: s.take more) scanner =
      .ok (scanner.behind ⟨role, c :: s.take more⟩) := by
  cases pattern with
  | blanks | lineComment | blockComment =>
    obtain rfl : .gap = role := Option.some.inj hrole
    rw [behind_gap]
    rfl
  | openComment => exact absurd hrole (by simp [Pattern.role?])
  | word | number =>
    obtain rfl := Option.some.inj hrole
    rw [behind_lexeme (lexeme_of_front? hfront)]
    rfl
  | symbol kind =>
    obtain rfl : .lexeme kind = role := Option.some.inj hrole
    obtain ⟨text, hspelled, hbegins, rfl⟩ := Pattern.more?_symbol.1 hmore
    -- the text of the handler is the one that was matched
    have htext : c :: s.take (text.length - 1) = text := by
      obtain ⟨d, t, rfl, -⟩ := (Lexeme.fixed hspelled).cases_head
      obtain ⟨rfl, after, rfl⟩ := List.cons_prefix_cons.1 hbegins
      rw [List.length_cons, Nat.add_sub_cancel, List.take_left]
    rw [behind_lexeme (lexeme_of_front? hfront), htext, Handler.ofPattern, hspelled]
    rfl

lemma At.turn_cons (h : At scanner before (c :: s)) : scanner.turn =
    match Handler.find (c :: s) with
    | some (handler, matched) =>
      match handler.run matched scanner with
      | .ok next => .next handler matched next
      | .error failure => .failed failure
    | none => .failed ⟨.unrecognised (String.ofList [c]), some scanner.line⟩ := by
  have hmore : scanner.reader.atEnd = false := by simpa using h.atEnd.not
  simp only [turn, hmore, h.rest?, h.current?]
  rfl

/-- At an element the turn moves on behind it. -/
lemma At.turn_of_front? (h : At scanner before (c :: s)) (hfront : front? c s = some (role, more)) :
    ∃ handler, scanner.turn =
      .next handler (c :: s.take more) (scanner.behind ⟨role, c :: s.take more⟩) := by
  have helement := hfront
  rw [← Pattern.element?_eq_front?] at helement
  obtain ⟨⟨pattern, length⟩, hfirst, hfound⟩ := Option.bind_eq_some_iff.1 helement
  obtain ⟨found, hrole, heq⟩ := Option.map_eq_some_iff.1 hfound
  obtain ⟨rfl, rfl⟩ := Prod.mk.inj heq
  refine ⟨Handler.ofPattern pattern, ?_⟩
  rw [h.turn_cons, Handler.find_cons, hfirst]
  simp only [Option.map_some, run_ofPattern (Pattern.more?_of_firstMatch hfirst) hrole hfront]

/-- Where no element is, the turn fails. -/
lemma At.turn_of_stuck (h : At scanner before (c :: s)) (hfront : front? c s = none) :
    scanner.turn = .failed ⟨.unrecognised (String.ofList (offendingText (c :: s))),
      some scanner.line⟩ := by
  rw [← Pattern.element?_eq_front?, Pattern.element?, Option.bind_eq_none_iff] at hfront
  rw [h.turn_cons, Handler.find_cons]
  cases hfirst : Pattern.firstMatch c s with
  | none =>
    have hopen := Pattern.opensComment_of_firstMatch hfirst
    have htext : offendingText (c :: s) = [c] := by
      unfold offendingText
      split
      · exact absurd hopen (by simp_all [opensComment])
      · rfl
    rw [htext]
    rfl
  | some found =>
    obtain ⟨pattern, more⟩ := found
    have hrole := Option.map_eq_none_iff.1 (hfront _ hfirst)
    have hmore := Pattern.more?_of_firstMatch hfirst
    cases pattern with
    | openComment =>
      rw [Pattern.more?] at hmore
      obtain ⟨hopen, hlength⟩ := Option.ite_none_right_eq_some.1 hmore
      obtain rfl : 1 = more := Option.some.inj hlength
      obtain ⟨after, hafter⟩ := opensComment_iff.1 hopen
      obtain ⟨rfl, rfl⟩ := List.cons.inj hafter
      rfl
    | _ => exact absurd hrole (by simp [Pattern.role?])

/-! ## The loop comes to its end -/

/-- A scanner between two parts of its source stands at the end, fails, or moves on by some of the
characters in front of it. -/
lemma At.turn_cases (h : At scanner before rest) :
    (rest = [] ∧ scanner.turn = .done scanner.reader.tokens) ∨
      (rest ≠ [] ∧ ∃ failure, scanner.turn = .failed failure) ∨
      ∃ handler matched after next, rest = matched ++ after ∧ matched ≠ [] ∧
        scanner.turn = .next handler matched next ∧ At next (before ++ matched) after ∧
          next.reader.source = scanner.reader.source := by
  cases rest with
  | nil => exact .inl ⟨rfl, if_pos (h.atEnd.2 rfl)⟩
  | cons c s =>
    cases hfront : front? c s with
    | none => exact .inr (.inl ⟨by simp, _, h.turn_of_stuck hfront⟩)
    | some found =>
      obtain ⟨role, more⟩ := found
      obtain ⟨handler, hturn⟩ := h.turn_of_front? hfront
      have hsplit : c :: s = c :: s.take more ++ s.drop more := by simp
      rw [hsplit] at h
      exact .inr (.inr ⟨handler, _, _, _, hsplit, by simp, hturn,
        h.behind ⟨role, c :: s.take more⟩, rfl⟩)

/-- Each state that is reached is between two parts of the source. -/
lemma Reaches.at {last : Scanner} (hreaches : Reaches scanner last) (h : At scanner before rest) :
    last.reader.source = scanner.reader.source ∧ ∃ before rest, At last before rest := by
  induction hreaches generalizing before rest with
  | refl scanner => exact ⟨rfl, _, _, h⟩
  | step hturn _ ih =>
    rcases h.turn_cases with ⟨-, hdone⟩ | ⟨-, failure, hfailed⟩ |
      ⟨handler, matched, after, next, -, -, hnext, hat, hsource⟩
    · rw [hturn] at hdone
      exact absurd hdone (by simp)
    · rw [hturn] at hfailed
      exact absurd hfailed (by simp)
    · rw [hturn] at hnext
      obtain ⟨rfl, rfl, rfl⟩ : _ ∧ _ ∧ _ := by simpa using hnext
      rw [← hsource]
      exact ih hat

end Scanner

/-- The result that a division has on the given line, behind some tokens. -/
def Division.result (line : LineNumber) (tokens : List Token) (division : Division) :
    Except Failure (List Token) :=
  if division.stuck = [] then
    .ok (tokens ++ Piece.tokens line division.pieces)
  else
    .error ⟨.unrecognised (String.ofList (offendingText division.stuck)),
      some (Piece.lineAfter line division.pieces)⟩

namespace Scanner

variable {scanner : Scanner} {before rest : List Char}

end Scanner

/-! ## Readers that are moved directly -/

namespace Reader

/-- What can be done to a reader. -/
inductive Move where
  | advance (bytes : UInt64)
  | push (token : Token)

/-- The number of bytes that a move passes over. -/
def Move.bytes : Move → Nat
  | advance bytes => bytes.toNat
  | push _ => 0

variable (source : String) (moves : List Move)

end Reader

/-! ## The places of a scan -/

end ImpSyntax
