import ImpSyntax.Number.Binary64
import ImpSyntax.Token.Basic

/-!
# Expressions

An expression is a number, a variable, or an operator with one or two operands.  Every node keeps
the token it was read from, so its text and its line are known.  Parentheses leave no node.

`Expr.equal` compares trees node by node: tokens by kind, text and line, and the values of numbers
as numbers, so that a number whose value is NaN does not even equal itself.
-/

namespace ImpSyntax

/-- An expression of the language. -/
inductive Expr where
  /-- A number, with the value its text denotes. -/
  | number (value : Binary64) (token : Token)
  /-- A variable. -/
  | var (token : Token)
  /-- An operator with one operand, before or after it. -/
  | unary (operator : Token) (operand : Expr)
  /-- An operator between two operands. -/
  | binary (operator : Token) (left right : Expr)
deriving DecidableEq, Repr

namespace Expr

/-- The token that an expression is named by: its literal, its variable or its operator. -/
def head : Expr → Token
  | number _ token => token
  | var token => token
  | unary operator _ => operator
  | binary operator _ _ => operator

/-- The line of an expression. -/
def line (e : Expr) : LineNumber :=
  e.head.line

/-- Whether two expressions are the same tree with equal tokens and equal values. -/
def equal : Expr → Expr → Bool
  | number v t, number w u => v.equal w && t == u
  | var t, var u => t == u
  | unary o a, unary p b => o == p && a.equal b
  | binary o a b, binary p c d => o == p && a.equal c && b.equal d
  | _, _ => false

/-- Whether two lists of expressions are equal, member by member. -/
def equalAll : List Expr → List Expr → Bool
  | [], [] => true
  | a :: as, b :: bs => a.equal b && equalAll as bs
  | _, _ => false

end Expr

end ImpSyntax
