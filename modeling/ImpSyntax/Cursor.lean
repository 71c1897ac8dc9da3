import ImpSyntax.Grammar.Production

/-!
# A cursor over tokens

A `Cursor` is a place in a list of tokens, on which rules are used one after another.  A rule that
fails leaves the cursor where it failed, and the next one goes on from there.  An `Action` is one
use of the cursor and an `Answer` what comes of it; `Cursor.run` does a sequence of actions.
-/

namespace ImpSyntax

/-- A place in a list of tokens: the number of tokens before it. -/
structure Cursor where
  tokens : List Token
  position : Nat
deriving DecidableEq, Repr

/-- One use of a cursor. -/
inductive Action where
  /-- Take the next token if it is of one of the kinds. -/
  | accept (kinds : List Kind)
  /-- Take the next token, which has to be of one of the kinds. -/
  | require (kinds : List Kind)
  /-- Read what a production describes. -/
  | read (production : Production)
  /-- Describe the next token as one that is not of one of the kinds. -/
  | mismatch (kinds : List Kind)
  /-- Place a fault at the next token. -/
  | place (fault : Fault)
  /-- Tell the line of the next token. -/
  | line
  /-- Tell whether there is a next token. -/
  | hasNext
deriving DecidableEq, Repr

/-- What comes of one use of a cursor. -/
inductive Answer where
  /-- The token that was taken. -/
  | token (token : Token)
  /-- The phrase that was read. -/
  | phrase (phrase : Phrase)
  /-- The failure that was met or described. -/
  | failure (failure : Failure)
  /-- The line of a token. -/
  | line (line : LineNumber)
  /-- Yes or no. -/
  | truth (value : Bool)
  /-- There is no such token. -/
  | nothing
deriving Repr

namespace Cursor

/-- The first place in a list of tokens. -/
def start (tokens : List Token) : Cursor :=
  ⟨tokens, 0⟩

/-- The tokens from the cursor on. -/
def ahead (cursor : Cursor) : List Token :=
  cursor.tokens.drop cursor.position

/-- The cursor moved to the place where the given tokens are ahead. -/
def moveTo (cursor : Cursor) (rest : List Token) : Cursor :=
  { cursor with position := cursor.tokens.length - rest.length }

/-- The line of the next token. -/
def line? (cursor : Cursor) : Option LineNumber :=
  Rule.nextLine? cursor.ahead

/-- The failure that places a fault at the next token. -/
def failureHere (cursor : Cursor) (fault : Fault) : Failure :=
  ⟨fault, cursor.line?⟩

/-- Use a rule from the cursor on. -/
def apply {α : Type} (cursor : Cursor) (rule : Rule α) : Except Failure α × Cursor :=
  let outcome := rule cursor.ahead
  (outcome.result, cursor.moveTo outcome.rest)

/-- Use a rule from the cursor on, and answer with what it reads or how it fails. -/
def answer {α : Type} (cursor : Cursor) (rule : Rule α) (read : α → Answer) : Answer × Cursor :=
  match cursor.apply rule with
  | (.ok value, cursor) => (read value, cursor)
  | (.error failure, cursor) => (.failure failure, cursor)

/-- Do an action. -/
def act (cursor : Cursor) : Action → Answer × Cursor
  | .accept kinds => cursor.answer (Rule.accept kinds) fun
    | some token => .token token
    | none => .nothing
  | .require kinds => cursor.answer (Rule.require kinds) .token
  | .read production => cursor.answer production.rule .phrase
  | .mismatch kinds => (.failure (cursor.failureHere (Rule.mismatch kinds cursor.ahead)), cursor)
  | .place fault => (.failure (cursor.failureHere fault), cursor)
  | .line => (match cursor.line? with | some line => .line line | none => .nothing, cursor)
  | .hasNext => (.truth (decide (cursor.position < cursor.tokens.length)), cursor)

/-- Do some actions in turn.  The list has each answer with the cursor after it. -/
def run (cursor : Cursor) : List Action → List (Answer × Cursor)
  | [] => []
  | action :: actions =>
    let (answer, cursor) := cursor.act action
    (answer, cursor) :: cursor.run actions

end Cursor

end ImpSyntax
