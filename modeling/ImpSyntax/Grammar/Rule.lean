import ImpSyntax.Failure

/-!
# Grammar rules

A `Rule α` reads a construct from the front of a list of tokens.  Its `Outcome` is the construct, or
a failure, with the tokens that are left; a failing rule leaves them where it failed.  Rules form a
monad, and all of the grammar is built from that monad and these rules:

* `Rule.accept` takes a token of given kinds if it is next;
* `Rule.unexpected` and `Rule.failHere` fail at the next token, `Rule.fail` at a place of its own;
* `Rule.atEnd` asks whether no token is left;
* `Rule.fix` ties the knot of a rule that is defined by itself.

None of them looks past the next token, and none goes back.
-/

namespace ImpSyntax

/-- What a rule makes of some tokens, and the tokens it leaves. -/
inductive Outcome (α : Type) where
  /-- A construct has been read. -/
  | done (value : α) (rest : List Token)
  /-- No construct could be read. -/
  | failed (failure : Failure) (rest : List Token)
deriving DecidableEq, Repr

namespace Outcome

variable {α : Type}

/-- The tokens that are left. -/
def rest : Outcome α → List Token
  | done _ rest => rest
  | failed _ rest => rest

/-- The construct or the failure, without the tokens that are left. -/
def result : Outcome α → Except Failure α
  | done value _ => .ok value
  | failed failure _ => .error failure

end Outcome

/-- A way to read a construct from the front of some tokens. -/
def Rule (α : Type) : Type :=
  List Token → Outcome α

namespace Rule

variable {α β : Type}

/-! ## The monad of rules -/

/-- The rule that reads nothing and always succeeds. -/
protected def pure (a : α) : Rule α :=
  fun tokens => .done a tokens

/-- One rule after another.  If the first one fails, the second is not tried. -/
protected def bind (rule : Rule α) (next : α → Rule β) : Rule β :=
  fun tokens =>
    match rule tokens with
    | .done a rest => next a rest
    | .failed failure rest => .failed failure rest

instance : Monad Rule where
  pure := Rule.pure
  bind := Rule.bind

/-! ## Looking at the next token -/

/-- The line of the next token. -/
def nextLine? (tokens : List Token) : Option LineNumber :=
  tokens.head?.map Token.line

/-- What is wrong with the next token, or with the end, where one of the given kinds is needed. -/
def mismatch (kinds : List Kind) : List Token → Fault
  | [] => .unexpectedEnd kinds
  | token :: _ => .unexpected kinds token.text

/-- Take the next token if it is of one of the given kinds. -/
def accept (kinds : List Kind) : Rule (Option Token)
  | [] => .done none []
  | token :: rest =>
    if token.isOneOf kinds then .done (some token) rest else .done none (token :: rest)

/-- Fail with the given fault at the next token. -/
def failHere (fault : Fault) : Rule α :=
  fun tokens => .failed ⟨fault, nextLine? tokens⟩ tokens

/-- Fail because the next token is not of one of the given kinds. -/
def unexpected (kinds : List Kind) : Rule α :=
  fun tokens => .failed ⟨mismatch kinds tokens, nextLine? tokens⟩ tokens

/-- Fail with a failure that says itself where it belongs. -/
def fail (failure : Failure) : Rule α :=
  fun tokens => .failed failure tokens

/-- Whether no token is left. -/
def atEnd : Rule Bool :=
  fun tokens => .done tokens.isEmpty tokens

/-- Take the next token, which has to be of one of the given kinds. -/
def require (kinds : List Kind) : Rule Token := do
  match ← accept kinds with
  | some token => pure token
  | none => unexpected kinds

/-! ## Recursion -/

/-- A rule that is defined by itself, unfolded once for each token of `bound`.  Past the bound an
operand is missing. -/
def unfold (body : Rule α → Rule α) : (bound : List Token) → Rule α
  | [] => failHere .expectedOperand
  | _ :: bound => body (unfold body bound)

/-- The rule that is defined by itself through `body`.  Inside `body` it may be used only after a
token has been taken.  Then no input is nested deeper than it has tokens, so the tokens themselves
bound the unfolding and no part of it is left undefined. -/
def fix (body : Rule α → Rule α) : Rule α :=
  fun tokens => body (unfold body tokens) tokens

/-- All constructs that can be read one after another, until `item?` finds no further one.  An item
that is found takes at least one token. -/
def many (item? : Rule (Option α)) : Rule (List α) :=
  fix fun again => do
    match ← item? with
    | none => pure []
    | some a => return a :: (← again)

end Rule

end ImpSyntax
