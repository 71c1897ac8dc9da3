import ImpSyntax.Grammar.Level
import ImpSyntax.Number.Numeral
import ImpSyntax.Stmt.Basic
import Mathlib.Logic.Basic

/-!
# The grammar as a relation

This file says which lists of tokens are which expressions, statements and programs, without saying
how one would find out.  Each constructor is a production of the grammar, and a derivation keeps the
tokens it stands on: `Derives category tokens e` holds of exactly the tokens from which the tree `e`
is built, punctuation and parentheses included.

Which tokens are operators, and what they can do, is told by `Kind.uses`, a table of the grammar's
own.  The lists that the rules go by are the same table (`Use.operation_mem` and the lemmas beside
it).

An expression belongs to a `Category`.  Categories are ordered from assignments down to primary
expressions, each one made of members of the next, and `Level.operand` is that order among the
levels of precedence, along which `Level.induction` goes.  Operators of a level group to the left
because only their left operand may be of the level itself, assignments to the right for the
mirrored reason.

The one production with a side condition is the conditional with an alternative.  Its body must not
end in a conditional that could still take the `else` for itself, which `Stmt.endsOpen` describes.
-/

namespace ImpSyntax

/-! ## Operators -/

/-- What an operator does with the operands beside it. -/
inductive Use where
  /-- It assigns the operand behind it to the one before it. -/
  | assignment
  /-- It joins the operands on its two sides, on a level of precedence. -/
  | operation (level : Level)
  /-- It stands before its operand. -/
  | sign
  /-- It stands behind its operand. -/
  | step
deriving DecidableEq, Repr

namespace Kind

/-- The uses of a kind of tokens.  Only the minus has more than one. -/
def uses : Kind → List Use
  | assign | addAssign | subAssign | mulAssign | divAssign => [.assignment]
  | andAssign | xorAssign | orAssign => [.assignment]
  | logicalOr => [.operation .logicalOr]
  | logicalAnd => [.operation .logicalAnd]
  | bitOr => [.operation .bitOr]
  | bitXor => [.operation .bitXor]
  | bitAnd => [.operation .bitAnd]
  | equal | notEqual => [.operation .equality]
  | less | lessEqual | greater | greaterEqual => [.operation .comparison]
  | plus => [.operation .sum]
  | minus => [.operation .sum, .sign]
  | star | slash => [.operation .product]
  | logicalNot => [.sign]
  | increment | decrement => [.step]
  | _ => []

end Kind

namespace Use

variable {kind : Kind} {level : Level}

lemma assignment_mem : assignment ∈ kind.uses ↔ kind ∈ Kind.assignments := by
  cases kind <;> decide

lemma operation_mem : operation level ∈ kind.uses ↔ kind ∈ level.operators := by
  cases level <;> cases kind <;> decide

lemma sign_mem : sign ∈ kind.uses ↔ kind ∈ Kind.signs := by
  cases kind <;> decide

lemma step_mem : step ∈ kind.uses ↔ kind ∈ Kind.steps := by
  cases kind <;> decide

end Use

/-! ## Expressions -/

/-- A syntactic category of expressions. -/
inductive Category where
  /-- Assignments, and everything else. -/
  | expression
  /-- Operands joined by operators of a level and of all tighter ones. -/
  | level (level : Level)
  /-- Operands with signs before them and a step after them. -/
  | signed
  /-- Operands with a step after them. -/
  | stepped
  /-- Numbers, variables and expressions in parentheses. -/
  | primary
deriving DecidableEq, Repr

/-- The category of the operands of a level. -/
def Level.operand : Level → Category
  | logicalOr => .level logicalAnd
  | logicalAnd => .level bitOr
  | bitOr => .level bitXor
  | bitXor => .level bitAnd
  | bitAnd => .level equality
  | equality => .level comparison
  | comparison => .level sum
  | sum => .level product
  | product => .signed

/-- What holds of the operands of the tightest level, and of a level with its operands, holds of
every level. -/
theorem Level.induction {P : Category → Prop} (hsigned : P .signed)
    (hlevel : ∀ level : Level, P level.operand → P (.level level)) (level : Level) :
    P (.level level) := by
  have hproduct : P (.level product) := hlevel product hsigned
  have hsum : P (.level sum) := hlevel sum hproduct
  have hcomparison : P (.level comparison) := hlevel comparison hsum
  have hequality : P (.level equality) := hlevel equality hcomparison
  have hbitAnd : P (.level bitAnd) := hlevel bitAnd hequality
  have hbitXor : P (.level bitXor) := hlevel bitXor hbitAnd
  have hbitOr : P (.level bitOr) := hlevel bitOr hbitXor
  have hlogicalAnd : P (.level logicalAnd) := hlevel logicalAnd hbitOr
  cases level with
  | logicalOr => exact hlevel logicalOr hlogicalAnd
  | logicalAnd => exact hlogicalAnd
  | bitOr => exact hbitOr
  | bitXor => exact hbitXor
  | bitAnd => exact hbitAnd
  | equality => exact hequality
  | comparison => exact hcomparison
  | sum => exact hsum
  | product => exact hproduct

namespace Grammar

/-- The tokens are an expression of the category. -/
inductive Derives : Category → List Token → Expr → Prop where
  | number {token : Token} {value : Binary64} (hkind : token.kind = .number)
      (hvalue : numberValue? token.text = some value) :
      Derives .primary [token] (.number value token)
  | var {token : Token} (hkind : token.kind = .identifier) :
      Derives .primary [token] (.var token)
  | parens {left right : Token} {tokens : List Token} {e : Expr}
      (hleft : left.kind = .leftParen) (he : Derives .expression tokens e)
      (hright : right.kind = .rightParen) :
      Derives .primary (left :: (tokens ++ [right])) e
  | unstepped {tokens : List Token} {e : Expr} (he : Derives .primary tokens e) :
      Derives .stepped tokens e
  | step {operator : Token} {tokens : List Token} {e : Expr} (he : Derives .primary tokens e)
      (hoperator : .step ∈ operator.kind.uses) :
      Derives .stepped (tokens ++ [operator]) (.unary operator e)
  | unsigned {tokens : List Token} {e : Expr} (he : Derives .stepped tokens e) :
      Derives .signed tokens e
  | sign {operator : Token} {tokens : List Token} {e : Expr}
      (hoperator : .sign ∈ operator.kind.uses) (he : Derives .signed tokens e) :
      Derives .signed (operator :: tokens) (.unary operator e)
  | operand {level : Level} {tokens : List Token} {e : Expr}
      (he : Derives level.operand tokens e) : Derives (.level level) tokens e
  | operation {level : Level} {operator : Token} {us vs : List Token} {a b : Expr}
      (ha : Derives (.level level) us a) (hoperator : .operation level ∈ operator.kind.uses)
      (hb : Derives level.operand vs b) :
      Derives (.level level) (us ++ operator :: vs) (.binary operator a b)
  | unassigned {tokens : List Token} {e : Expr} (he : Derives (.level .logicalOr) tokens e) :
      Derives .expression tokens e
  | assignment {operator : Token} {us vs : List Token} {a b : Expr}
      (ha : Derives (.level .logicalOr) us a) (hoperator : .assignment ∈ operator.kind.uses)
      (hb : Derives .expression vs b) :
      Derives .expression (us ++ operator :: vs) (.binary operator a b)

section Derives

variable {tokens : List Token} {e : Expr}

lemma Derives.of_signed (h : Derives .signed tokens e) (level : Level) :
    Derives (.level level) tokens e :=
  Level.induction (P := fun category => Derives category tokens e) h (fun _ => .operand) level

/-- A primary expression is an expression of every category. -/
lemma Derives.of_primary (h : Derives .primary tokens e) (category : Category) :
    Derives category tokens e := by
  have hstepped : Derives .stepped tokens e := .unstepped h
  have hsigned : Derives .signed tokens e := .unsigned hstepped
  cases category with
  | expression => exact .unassigned (hsigned.of_signed .logicalOr)
  | level level => exact hsigned.of_signed level
  | signed => exact hsigned
  | stepped => exact hstepped
  | primary => exact h

/-- An expression of any level is an expression of all looser levels. -/
lemma Derives.expression_of_level {level : Level} (h : Derives (.level level) tokens e) :
    Derives .expression tokens e := by
  have hor : Derives (.level .logicalOr) tokens e → Derives .expression tokens e := .unassigned
  have hand (h : Derives (.level .logicalAnd) tokens e) := hor (.operand h)
  have hbitOr (h : Derives (.level .bitOr) tokens e) := hand (.operand h)
  have hbitXor (h : Derives (.level .bitXor) tokens e) := hbitOr (.operand h)
  have hbitAnd (h : Derives (.level .bitAnd) tokens e) := hbitXor (.operand h)
  have hequality (h : Derives (.level .equality) tokens e) := hbitAnd (.operand h)
  have hcomparison (h : Derives (.level .comparison) tokens e) := hequality (.operand h)
  have hsum (h : Derives (.level .sum) tokens e) := hcomparison (.operand h)
  have hproduct (h : Derives (.level .product) tokens e) := hsum (.operand h)
  cases level with
  | logicalOr => exact hor h
  | logicalAnd => exact hand h
  | bitOr => exact hbitOr h
  | bitXor => exact hbitXor h
  | bitAnd => exact hbitAnd h
  | equality => exact hequality h
  | comparison => exact hcomparison h
  | sum => exact hsum h
  | product => exact hproduct h

end Derives

/-- The tokens are one or more expressions with commas between them. -/
inductive DerivesList : List Token → List Expr → Prop where
  | one {tokens : List Token} {e : Expr} (he : Derives .expression tokens e) :
      DerivesList tokens [e]
  | more {comma : Token} {us vs : List Token} {e : Expr} {es : List Expr}
      (he : Derives .expression us e) (hcomma : comma.kind = .comma) (hes : DerivesList vs es) :
      DerivesList (us ++ comma :: vs) (e :: es)

/-- The tokens are an expression in parentheses. -/
inductive DerivesCondition : List Token → Expr → Prop where
  | parens {left right : Token} {tokens : List Token} {e : Expr}
      (hleft : left.kind = .leftParen) (he : Derives .expression tokens e)
      (hright : right.kind = .rightParen) : DerivesCondition (left :: (tokens ++ [right])) e

end Grammar

/-! ## Statements -/

/-- The statement ends in a conditional without an alternative, which an `else` after it would
join. -/
def Stmt.endsOpen : Stmt → Bool
  | ifThen _ _ => true
  | ifElse _ _ alternative => alternative.endsOpen
  | whileLoop _ body => body.endsOpen
  | forLoop _ _ _ body => body.endsOpen
  | print _ => false
  | block _ => false
  | eval _ => false
  | empty => false

namespace Grammar

/-- The tokens are a statement.  The statements of a block are given with their tokens. -/
inductive DerivesStmt : List Token → Stmt → Prop where
  | print {word target semicolon : Token} (hword : word.kind = .printWord)
      (htarget : target.kind = .identifier) (hsemicolon : semicolon.kind = .semicolon) :
      DerivesStmt [word, target, semicolon] (.print target)
  | ifThen {word : Token} {us vs : List Token} {c : Expr} {body : Stmt}
      (hword : word.kind = .ifWord) (hc : DerivesCondition us c) (hbody : DerivesStmt vs body) :
      DerivesStmt (word :: (us ++ vs)) (.ifThen c body)
  | ifElse {word elseWord : Token} {us vs ws : List Token} {c : Expr} {body alternative : Stmt}
      (hword : word.kind = .ifWord) (hc : DerivesCondition us c) (hbody : DerivesStmt vs body)
      (hclosed : body.endsOpen = false) (helse : elseWord.kind = .elseWord)
      (halternative : DerivesStmt ws alternative) :
      DerivesStmt (word :: (us ++ (vs ++ elseWord :: ws))) (.ifElse c body alternative)
  | whileLoop {word : Token} {us vs : List Token} {c : Expr} {body : Stmt}
      (hword : word.kind = .whileWord) (hc : DerivesCondition us c) (hbody : DerivesStmt vs body) :
      DerivesStmt (word :: (us ++ vs)) (.whileLoop c body)
  | forLoop {word left semicolon right : Token} {us vs ws xs : List Token} {c : Expr}
      {step : List Expr} {first body : Stmt} (hword : word.kind = .forWord)
      (hleft : left.kind = .leftParen) (hfirst : DerivesStmt us first)
      (hc : Derives .expression vs c) (hsemicolon : semicolon.kind = .semicolon)
      (hstep : DerivesList ws step) (hright : right.kind = .rightParen)
      (hbody : DerivesStmt xs body) :
      DerivesStmt (word :: left :: (us ++ (vs ++ semicolon :: (ws ++ right :: xs))))
        (.forLoop first c step body)
  | block {left right : Token} {parts : List (List Token × Stmt)}
      (hleft : left.kind = .leftBrace) (hparts : ∀ part ∈ parts, DerivesStmt part.1 part.2)
      (hright : right.kind = .rightBrace) :
      DerivesStmt (left :: (parts.flatMap Prod.fst ++ [right])) (.block (parts.map Prod.snd))
  | eval {semicolon : Token} {tokens : List Token} {es : List Expr} (hes : DerivesList tokens es)
      (hsemicolon : semicolon.kind = .semicolon) :
      DerivesStmt (tokens ++ [semicolon]) (.eval es)
  | empty {semicolon : Token} (hsemicolon : semicolon.kind = .semicolon) :
      DerivesStmt [semicolon] .empty

/-- The tokens are the statements of a program, one after another. -/
def DerivesProgram (tokens : List Token) (program : Program) : Prop :=
  ∃ parts : List (List Token × Stmt), (∀ part ∈ parts, DerivesStmt part.1 part.2) ∧
    tokens = parts.flatMap Prod.fst ∧ program = parts.map Prod.snd

lemma DerivesProgram.nil : DerivesProgram [] [] :=
  ⟨[], by simp, rfl, rfl⟩

lemma DerivesProgram.cons {us vs : List Token} {s : Stmt} {program : Program}
    (hs : DerivesStmt us s) (hprogram : DerivesProgram vs program) :
    DerivesProgram (us ++ vs) (s :: program) := by
  obtain ⟨parts, hparts, rfl, rfl⟩ := hprogram
  refine ⟨(us, s) :: parts, ?_, rfl, rfl⟩
  rintro part (_ | ⟨_, hpart⟩)
  · exact hs
  · exact hparts part hpart

lemma DerivesStmt.of_program {left right : Token} {tokens : List Token} {body : Program}
    (hleft : left.kind = .leftBrace) (hbody : DerivesProgram tokens body)
    (hright : right.kind = .rightBrace) :
    DerivesStmt (left :: (tokens ++ [right])) (.block body) := by
  obtain ⟨parts, hparts, rfl, rfl⟩ := hbody
  exact .block hleft hparts hright

/-- The tokens are statements and the brace that closes a block of them. -/
def DerivesBody (tokens : List Token) (body : Program) : Prop :=
  ∃ us right, tokens = us ++ [right] ∧ right.kind = .rightBrace ∧ DerivesProgram us body

lemma DerivesBody.nil {right : Token} (hright : right.kind = .rightBrace) :
    DerivesBody [right] [] :=
  ⟨[], right, rfl, hright, .nil⟩

lemma DerivesBody.cons {us vs : List Token} {s : Stmt} {body : Program} (hs : DerivesStmt us s)
    (hbody : DerivesBody vs body) : DerivesBody (us ++ vs) (s :: body) := by
  obtain ⟨vs, right, rfl, hright, hvs⟩ := hbody
  exact ⟨us ++ vs, right, by simp, hright, .cons hs hvs⟩

lemma DerivesBody.block {left : Token} {tokens : List Token} {body : Program}
    (h : DerivesBody tokens body) (hleft : left.kind = .leftBrace) :
    DerivesStmt (left :: tokens) (.block body) := by
  obtain ⟨us, right, rfl, hright, hus⟩ := h
  exact .of_program hleft hus hright

end Grammar

end ImpSyntax
