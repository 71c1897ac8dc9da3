import ImpSyntax.Expr.Printer
import ImpSyntax.Stmt.Printer
import Mathlib.Data.List.Basic

/-!
# The tokens in a tree

Expressions and statements keep tokens in their nodes.  `tokens` lists them in the order of the
source, and `mapTokens` replaces each one by another.  A tree is moved to a line by replacing the
lines of all its tokens (`relined`), which changes nothing that its text or its shape depends on.

`Stmt.induction` is the induction on statements in which a block has a hypothesis for each of its
statements.
-/

namespace ImpSyntax

/-- The token on another line. -/
def Token.onLine (line : LineNumber) (token : Token) : Token :=
  { token with line := line }

lemma Token.eq_onLine_iff {line : LineNumber} {token : Token} :
    token = token.onLine line ↔ token.line = line := by
  constructor
  · intro h
    rw [h]
    rfl
  · rintro rfl
    rfl

namespace Expr

/-- The tokens in an expression, in the order in which they were written. -/
def tokens : Expr → List Token
  | number _ token => [token]
  | var token => [token]
  | unary operator operand =>
    if operator.kind.isStep then operand.tokens ++ [operator] else operator :: operand.tokens
  | binary operator left right => left.tokens ++ operator :: right.tokens

/-- The expression with each token replaced. -/
def mapTokens (f : Token → Token) : Expr → Expr
  | number value token => number value (f token)
  | var token => var (f token)
  | unary operator operand => unary (f operator) (operand.mapTokens f)
  | binary operator left right => binary (f operator) (left.mapTokens f) (right.mapTokens f)

lemma mapTokens_mapTokens (f g : Token → Token) (e : Expr) :
    (e.mapTokens f).mapTokens g = e.mapTokens (g ∘ f) := by
  induction e with
  | number value token => rfl
  | var token => rfl
  | unary operator operand ih => exact congrArg (unary _) ih
  | binary operator left right ihleft ihright => exact congrArg₂ (binary _) ihleft ihright

/-- The expression on another line. -/
def relined (line : LineNumber) (e : Expr) : Expr :=
  e.mapTokens (Token.onLine line)

/-- The lines of the tokens do not show in the text. -/
lemma render_relined (line : LineNumber) (e : Expr) : (e.relined line).render = e.render := by
  induction e with
  | number value token => rfl
  | var token => rfl
  | unary operator operand ih =>
    show (if operator.kind.isStep then "(" ++ (operand.relined line).render ++ operator.text ++ ")"
      else "(" ++ operator.text ++ (operand.relined line).render ++ ")") = _
    rw [ih]
    rfl
  | binary operator left right ihleft ihright =>
    show "(" ++ (left.relined line).render ++ " " ++ operator.text ++ " " ++
      (right.relined line).render ++ ")" = _
    rw [ihleft, ihright]
    rfl

lemma renderAll_relined (line : LineNumber) (es : List Expr) :
    renderAll (es.map (relined line)) = renderAll es := by
  induction es with
  | nil => rfl
  | cons e es ih =>
    cases es with
    | nil => exact render_relined line e
    | cons next es =>
      show (e.relined line).render ++ ", " ++ renderAll ((next :: es).map (relined line)) = _
      rw [render_relined, ih]
      rfl

end Expr

namespace Stmt

/-- An induction on statements. -/
@[elab_as_elim]
theorem induction {P : Stmt → Prop} (print : ∀ target, P (.print target))
    (ifThen : ∀ c body, P body → P (.ifThen c body))
    (ifElse : ∀ c body alternative, P body → P alternative → P (.ifElse c body alternative))
    (whileLoop : ∀ c body, P body → P (.whileLoop c body))
    (forLoop : ∀ first c step body, P first → P body → P (.forLoop first c step body))
    (block : ∀ body, (∀ s ∈ body, P s) → P (.block body)) (eval : ∀ es, P (.eval es))
    (empty : P .empty) (s : Stmt) : P s :=
  @Stmt.rec P (fun body => ∀ s ∈ body, P s) print ifThen ifElse whileLoop forLoop block eval empty
    (fun _ hmem => absurd hmem List.not_mem_nil)
    (fun _ _ hs hbody => List.forall_mem_cons.2 ⟨hs, hbody⟩) s

mutual

/-- The tokens in a statement, in the order in which they were written. -/
def tokens : Stmt → List Token
  | print target => [target]
  | ifThen c body => c.tokens ++ body.tokens
  | ifElse c body alternative => c.tokens ++ (body.tokens ++ alternative.tokens)
  | whileLoop c body => c.tokens ++ body.tokens
  | forLoop first c step body =>
    first.tokens ++ (c.tokens ++ (step.flatMap Expr.tokens ++ body.tokens))
  | block body => tokensAll body
  | eval es => es.flatMap Expr.tokens
  | empty => []

/-- The tokens in the statements of a block. -/
def tokensAll : List Stmt → List Token
  | [] => []
  | s :: rest => s.tokens ++ tokensAll rest

end

mutual

/-- The statement with each token replaced. -/
def mapTokens (f : Token → Token) : Stmt → Stmt
  | print target => print (f target)
  | ifThen c body => ifThen (c.mapTokens f) (body.mapTokens f)
  | ifElse c body alternative =>
    ifElse (c.mapTokens f) (body.mapTokens f) (alternative.mapTokens f)
  | whileLoop c body => whileLoop (c.mapTokens f) (body.mapTokens f)
  | forLoop first c step body =>
    forLoop (first.mapTokens f) (c.mapTokens f) (step.map (Expr.mapTokens f)) (body.mapTokens f)
  | block body => block (mapTokensAll f body)
  | eval es => eval (es.map (Expr.mapTokens f))
  | empty => empty

/-- The statements of a block with each token replaced. -/
def mapTokensAll (f : Token → Token) : List Stmt → List Stmt
  | [] => []
  | s :: rest => s.mapTokens f :: mapTokensAll f rest

end

lemma tokensAll_eq (body : List Stmt) : tokensAll body = body.flatMap tokens := by
  induction body with
  | nil => rfl
  | cons s body ih => rw [tokensAll, ih, List.flatMap_cons]

lemma mapTokensAll_eq (f : Token → Token) (body : List Stmt) :
    mapTokensAll f body = body.map (mapTokens f) := by
  induction body with
  | nil => rfl
  | cons s body ih => rw [mapTokensAll, ih, List.map_cons]

lemma mapTokens_mapTokens (f g : Token → Token) (s : Stmt) :
    (s.mapTokens f).mapTokens g = s.mapTokens (g ∘ f) := by
  have hexpr : ∀ e : Expr, (e.mapTokens f).mapTokens g = e.mapTokens (g ∘ f) :=
    Expr.mapTokens_mapTokens f g
  induction s using Stmt.induction with
  | ifThen c body ih => simp only [mapTokens, hexpr, ih]
  | ifElse c body alternative ihbody ihalternative =>
    simp only [mapTokens, hexpr, ihbody, ihalternative]
  | whileLoop c body ih => simp only [mapTokens, hexpr, ih]
  | forLoop first c step body ihfirst ihbody =>
    simp only [mapTokens, List.map_map, Function.comp_def, hexpr, ihfirst, ihbody]
  | block body ih =>
    simp only [mapTokens, mapTokensAll_eq, List.map_map]
    exact congrArg block (List.map_congr_left ih)
  | eval es => simp only [mapTokens, List.map_map, Function.comp_def, hexpr]
  | print | empty => rfl

/-- The statement on another line. -/
def relined (line : LineNumber) (s : Stmt) : Stmt :=
  s.mapTokens (Token.onLine line)

/-- Of two lines that a statement is moved to, the second one counts. -/
lemma relined_relined (line other : LineNumber) (s : Stmt) :
    (s.relined line).relined other = s.relined other :=
  mapTokens_mapTokens _ _ s

/-- The statements are the same but for the lines of their tokens. -/
def SameButLines (s t : Stmt) : Prop :=
  ∀ line, s.relined line = t.relined line

lemma relined_block (line : LineNumber) (body : List Stmt) :
    (block body).relined line = block (body.map (relined line)) := by
  rw [relined, mapTokens, mapTokensAll_eq]
  rfl

lemma renderBody_congr {body : List Stmt} {f : Stmt → Stmt}
    (h : ∀ s ∈ body, (f s).render = s.render) : renderBody (body.map f) = renderBody body := by
  induction body with
  | nil => rfl
  | cons s body ih =>
    rw [List.forall_mem_cons] at h
    rw [List.map_cons, renderBody, renderBody, h.1, ih h.2]

/-- The lines of the tokens do not show in the text. -/
lemma render_relined (line : LineNumber) (s : Stmt) : (s.relined line).render = s.render := by
  induction s using Stmt.induction with
  | print target => rfl
  | ifThen c body ih =>
    show "if (" ++ (c.relined line).render ++ ") " ++ (body.relined line).render = _
    rw [ih, Expr.render_relined, render]
  | ifElse c body alternative ihbody ihalternative =>
    show "if (" ++ (c.relined line).render ++ ") " ++ (body.relined line).render ++ " else " ++
      (alternative.relined line).render = _
    rw [ihbody, ihalternative, Expr.render_relined, render]
  | whileLoop c body ih =>
    show "while (" ++ (c.relined line).render ++ ") " ++ (body.relined line).render = _
    rw [ih, Expr.render_relined, render]
  | forLoop first c step body ihfirst ihbody =>
    show "for (" ++ (first.relined line).render ++ " " ++ (c.relined line).render ++ "; " ++
      Expr.renderAll (step.map (Expr.relined line)) ++ ") " ++ (body.relined line).render = _
    rw [ihfirst, ihbody, Expr.render_relined, Expr.renderAll_relined, render]
  | block body ih => rw [relined_block, render, render, renderBody_congr ih]
  | eval es =>
    show Expr.renderAll (es.map (Expr.relined line)) ++ ";" = _
    rw [Expr.renderAll_relined, render]
  | empty => rfl

end Stmt

/-! ## Programs -/

/-- The program with each statement moved to a line of its own. -/
def Program.relinedBy (lines : Nat → LineNumber) (program : Program) : Program :=
  program.mapIdx fun k s => s.relined (lines k)

/-- The program with its first statement moved to the first line, the second to the second line and
so on. -/
def Program.relined (program : Program) : Program :=
  program.relinedBy fun k => UInt32.ofNat (k + 1)

end ImpSyntax
