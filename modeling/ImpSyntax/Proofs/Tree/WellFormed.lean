import ImpSyntax.Proofs.Grammar.Derivation
import ImpSyntax.Proofs.Number.Literal
import ImpSyntax.Proofs.Tree.Tokens

/-!
# Well formed trees

A tree is well formed if the texts of its tokens are lexemes of the right kinds, numbers have the
value of their text, and no list of expressions is empty.  What is derived from lexemes is such a
tree (`DerivesStmt.wellFormed`).

The value of a number that is a lexeme is never NaN.  So a well formed tree equals itself, and it
equals itself on another line just if its tokens are on that line already
(`Stmt.WellFormed.equal_relined`).
-/

namespace ImpSyntax

/-! ## Expressions -/

/-- The operators that stand in trees are symbols. -/
lemma Kind.mem_symbols_of_uses {kind : Kind} {use : Use} (h : use ∈ kind.uses) :
    kind ∈ symbols := by
  have hne : kind.uses ≠ [] := List.ne_nil_of_mem h
  revert hne
  cases kind <;> decide

/-- The token is a lexeme of the kind. -/
def Token.IsLexeme (kind : Kind) (token : Token) : Prop :=
  token.kind = kind ∧ Lexeme kind token.text.toList

/-- The token is spelled as its kind is. -/
def Token.IsSpelled (token : Token) : Prop :=
  token.kind.lexeme? = some token.text

namespace Expr

/-- The expression has numbers, variables and operators in their places. -/
inductive WellFormed : Expr → Prop where
  | number {value : Binary64} {token : Token} (htoken : token.IsLexeme .number)
      (hvalue : numberValue? token.text = some value) : WellFormed (.number value token)
  | var {token : Token} (htoken : token.IsLexeme .identifier) : WellFormed (.var token)
  | unary {operator : Token} {operand : Expr}
      (hoperator : .sign ∈ operator.kind.uses ∨ .step ∈ operator.kind.uses)
      (hspelled : operator.IsSpelled) (hoperand : WellFormed operand) :
      WellFormed (.unary operator operand)
  | binary {operator : Token} {left right : Expr}
      (hoperator : .assignment ∈ operator.kind.uses ∨
        ∃ level : Level, .operation level ∈ operator.kind.uses)
      (hspelled : operator.IsSpelled) (hleft : WellFormed left) (hright : WellFormed right) :
      WellFormed (.binary operator left right)

end Expr

namespace Stmt

/-- The statement consists of well formed parts. -/
inductive WellFormed : Stmt → Prop where
  | print {target : Token} (htarget : target.IsLexeme .identifier) : WellFormed (.print target)
  | ifThen {c : Expr} {body : Stmt} (hc : c.WellFormed) (hbody : WellFormed body) :
      WellFormed (.ifThen c body)
  | ifElse {c : Expr} {body alternative : Stmt} (hc : c.WellFormed) (hbody : WellFormed body)
      (halternative : WellFormed alternative) : WellFormed (.ifElse c body alternative)
  | whileLoop {c : Expr} {body : Stmt} (hc : c.WellFormed) (hbody : WellFormed body) :
      WellFormed (.whileLoop c body)
  | forLoop {first body : Stmt} {c : Expr} {step : List Expr} (hfirst : WellFormed first)
      (hc : c.WellFormed) (hne : step ≠ []) (hstep : ∀ e ∈ step, e.WellFormed)
      (hbody : WellFormed body) : WellFormed (.forLoop first c step body)
  | block {body : List Stmt} (hbody : ∀ s ∈ body, WellFormed s) : WellFormed (.block body)
  | eval {es : List Expr} (hne : es ≠ []) (hes : ∀ e ∈ es, e.WellFormed) : WellFormed (.eval es)
  | empty : WellFormed .empty

end Stmt

/-! ## Trees derived from lexemes -/

namespace Grammar

/-- The texts of the tokens are lexemes of their kinds. -/
def HasLexemes (tokens : List Token) : Prop :=
  ∀ token ∈ tokens, Lexeme token.kind token.text.toList

variable {token : Token} {tokens us vs : List Token}

@[simp] lemma hasLexemes_nil : HasLexemes [] := by
  simp [HasLexemes]

@[simp] lemma hasLexemes_cons : HasLexemes (token :: tokens) ↔
    Lexeme token.kind token.text.toList ∧ HasLexemes tokens := by
  simp [HasLexemes]

@[simp] lemma hasLexemes_append : HasLexemes (us ++ vs) ↔ HasLexemes us ∧ HasLexemes vs := by
  simp [HasLexemes, or_imp, forall_and]

/-- A symbol that is a lexeme is spelled as its kind is. -/
lemma isSpelled_of_symbol (h : Lexeme token.kind token.text.toList)
    (hsymbol : token.kind ∈ Kind.symbols) : token.IsSpelled := by
  have hspelled := h.lexeme?_eq (ne_of_mem_of_not_mem hsymbol (by decide))
    (ne_of_mem_of_not_mem hsymbol (by decide))
  rwa [String.ofList_toList] at hspelled

lemma Derives.wellFormed {category : Category} {e : Expr} (h : Derives category tokens e)
    (hlexemes : HasLexemes tokens) : e.WellFormed := by
  induction h with
  | number hkind hvalue =>
    have htoken := (hasLexemes_cons.1 hlexemes).1
    exact .number ⟨hkind, hkind ▸ htoken⟩ hvalue
  | var hkind =>
    have htoken := (hasLexemes_cons.1 hlexemes).1
    exact .var ⟨hkind, hkind ▸ htoken⟩
  | parens _ _ _ ih =>
    simp only [hasLexemes_cons, hasLexemes_append] at hlexemes
    exact ih hlexemes.2.1
  | unstepped _ ih => exact ih hlexemes
  | step _ hoperator ih =>
    simp only [hasLexemes_cons, hasLexemes_append] at hlexemes
    have hsymbol := Kind.mem_symbols_of_uses hoperator
    exact .unary (.inr hoperator) (isSpelled_of_symbol hlexemes.2.1 hsymbol) (ih hlexemes.1)
  | unsigned _ ih => exact ih hlexemes
  | sign hoperator _ ih =>
    rw [hasLexemes_cons] at hlexemes
    have hsymbol := Kind.mem_symbols_of_uses hoperator
    exact .unary (.inl hoperator) (isSpelled_of_symbol hlexemes.1 hsymbol) (ih hlexemes.2)
  | operand _ ih => exact ih hlexemes
  | @operation level _ _ _ _ _ _ hoperator _ iha ihb =>
    simp only [hasLexemes_cons, hasLexemes_append] at hlexemes
    obtain ⟨hus, hoperatorLexeme, hvs⟩ := hlexemes
    have hsymbol := Kind.mem_symbols_of_uses hoperator
    exact .binary (.inr ⟨level, hoperator⟩) (isSpelled_of_symbol hoperatorLexeme hsymbol)
      (iha hus) (ihb hvs)
  | unassigned _ ih => exact ih hlexemes
  | assignment _ hoperator _ iha ihb =>
    simp only [hasLexemes_cons, hasLexemes_append] at hlexemes
    obtain ⟨hus, hoperatorLexeme, hvs⟩ := hlexemes
    have hsymbol := Kind.mem_symbols_of_uses hoperator
    exact .binary (.inl hoperator) (isSpelled_of_symbol hoperatorLexeme hsymbol) (iha hus) (ihb hvs)

lemma DerivesList.wellFormed {es : List Expr} (h : DerivesList tokens es)
    (hlexemes : HasLexemes tokens) : es ≠ [] ∧ ∀ e ∈ es, e.WellFormed := by
  induction h with
  | one he => simpa using he.wellFormed hlexemes
  | more he _ _ ih =>
    simp only [hasLexemes_cons, hasLexemes_append] at hlexemes
    simpa using ⟨he.wellFormed hlexemes.1, (ih hlexemes.2.2).2⟩

lemma DerivesCondition.wellFormed {e : Expr} (h : DerivesCondition tokens e)
    (hlexemes : HasLexemes tokens) : e.WellFormed := by
  cases h with
  | parens _ he _ =>
    simp only [hasLexemes_cons, hasLexemes_append] at hlexemes
    exact he.wellFormed hlexemes.2.1

lemma DerivesStmt.wellFormed {s : Stmt} (h : DerivesStmt tokens s) (hlexemes : HasLexemes tokens) :
    s.WellFormed := by
  induction h with
  | print _ htarget _ =>
    simp only [hasLexemes_cons] at hlexemes
    exact .print ⟨htarget, htarget ▸ hlexemes.2.1⟩
  | ifThen _ hc _ ih =>
    simp only [hasLexemes_cons, hasLexemes_append] at hlexemes
    exact .ifThen (hc.wellFormed hlexemes.2.1) (ih hlexemes.2.2)
  | ifElse _ hc _ _ _ _ ihbody ihalternative =>
    simp only [hasLexemes_cons, hasLexemes_append] at hlexemes
    obtain ⟨-, hus, hvs, -, hws⟩ := hlexemes
    exact .ifElse (hc.wellFormed hus) (ihbody hvs) (ihalternative hws)
  | whileLoop _ hc _ ih =>
    simp only [hasLexemes_cons, hasLexemes_append] at hlexemes
    exact .whileLoop (hc.wellFormed hlexemes.2.1) (ih hlexemes.2.2)
  | forLoop _ _ _ hc _ hstep _ _ ihfirst ihbody =>
    simp only [hasLexemes_cons, hasLexemes_append] at hlexemes
    obtain ⟨-, -, hus, hvs, -, hws, -, hxs⟩ := hlexemes
    obtain ⟨hne, hall⟩ := hstep.wellFormed hws
    exact .forLoop (ihfirst hus) (hc.wellFormed hvs) hne hall (ihbody hxs)
  | block _ _ _ ih =>
    simp only [hasLexemes_cons, hasLexemes_append] at hlexemes
    refine .block fun s hs => ?_
    obtain ⟨part, hpart, rfl⟩ := List.mem_map.1 hs
    refine ih part hpart fun token htoken => ?_
    exact hlexemes.2.1 token (List.mem_flatMap.2 ⟨part, hpart, htoken⟩)
  | eval hes _ =>
    rw [hasLexemes_append] at hlexemes
    obtain ⟨hne, hall⟩ := hes.wellFormed hlexemes.1
    exact .eval hne hall
  | empty _ => exact .empty

end Grammar

/-! ## Equality with a tree on another line -/

section Equality

variable {line : LineNumber}

lemma Token.beq_onLine {token : Token} :
    (token == token.onLine line) = true ↔ token.line = line := by
  rw [beq_iff_eq]
  exact Token.eq_onLine_iff

lemma Expr.WellFormed.equal_relined {e : Expr} (h : e.WellFormed) :
    e.equal (e.relined line) = true ↔ ∀ token ∈ e.tokens, token.line = line := by
  induction h with
  | @number value token htoken hvalue =>
    have hself := Binary64.equal_self (numberValue?_ne_nan htoken.2 hvalue)
    show (value.equal value && token == token.onLine line) = true ↔ _
    rw [hself, Bool.true_and, Token.beq_onLine]
    simp [tokens]
  | @var token _ =>
    show (token == token.onLine line) = true ↔ _
    rw [Token.beq_onLine]
    simp [tokens]
  | @unary operator operand _ _ _ ih =>
    show (operator == operator.onLine line && operand.equal (operand.relined line)) = true ↔ _
    rw [Bool.and_eq_true, Token.beq_onLine, ih, tokens]
    split
    · simp [or_imp, forall_and, and_comm]
    · simp
  | @binary operator left right _ _ _ _ ihleft ihright =>
    show (operator == operator.onLine line && left.equal (left.relined line) &&
      right.equal (right.relined line)) = true ↔ _
    rw [Bool.and_eq_true, Bool.and_eq_true, Token.beq_onLine, ihleft, ihright, tokens]
    simp [or_imp, forall_and]
    tauto

lemma Expr.equalAll_relined {es : List Expr} (h : ∀ e ∈ es, e.WellFormed) :
    equalAll es (es.map (relined line)) = true ↔
      ∀ token ∈ es.flatMap tokens, token.line = line := by
  induction es with
  | nil => simp [equalAll]
  | cons e es ih =>
    rw [List.forall_mem_cons] at h
    rw [List.map_cons, equalAll, Bool.and_eq_true, h.1.equal_relined, ih h.2]
    simp only [List.flatMap_cons, List.mem_append, or_imp, forall_and]

lemma Stmt.equalAll_congr {body : List Stmt} {f : Stmt → Stmt} {p : Stmt → Prop}
    (h : ∀ s ∈ body, s.equal (f s) = true ↔ p s) :
    equalAll body (body.map f) = true ↔ ∀ s ∈ body, p s := by
  induction body with
  | nil => simp [equalAll]
  | cons s body ih =>
    rw [List.forall_mem_cons] at h
    rw [List.map_cons, equalAll, Bool.and_eq_true, h.1, ih h.2, List.forall_mem_cons]

/-- A statement equals itself on another line just if all its tokens are on that line. -/
theorem Stmt.WellFormed.equal_relined {s : Stmt} (h : s.WellFormed) :
    s.equal (s.relined line) = true ↔ ∀ token ∈ s.tokens, token.line = line := by
  induction h with
  | @print target _ =>
    show (target == target.onLine line) = true ↔ _
    rw [Token.beq_onLine]
    simp [tokens]
  | @ifThen c body hc _ ih =>
    show (c.equal (c.relined line) && body.equal (body.relined line)) = true ↔ _
    rw [Bool.and_eq_true, hc.equal_relined, ih, tokens]
    simp only [List.mem_append, or_imp, forall_and]
  | @ifElse c body alternative hc _ _ ihbody ihalternative =>
    show (c.equal (c.relined line) && body.equal (body.relined line) &&
      alternative.equal (alternative.relined line)) = true ↔ _
    rw [Bool.and_eq_true, Bool.and_eq_true, hc.equal_relined, ihbody, ihalternative, tokens]
    simp only [List.mem_append, or_imp, forall_and, and_assoc]
  | @whileLoop c body hc _ ih =>
    show (c.equal (c.relined line) && body.equal (body.relined line)) = true ↔ _
    rw [Bool.and_eq_true, hc.equal_relined, ih, tokens]
    simp only [List.mem_append, or_imp, forall_and]
  | @forLoop first body c step _ hc _ hstep _ ihfirst ihbody =>
    show (first.equal (first.relined line) && c.equal (c.relined line) &&
      Expr.equalAll step (step.map (Expr.relined line)) &&
        body.equal (body.relined line)) = true ↔ _
    rw [Bool.and_eq_true, Bool.and_eq_true, Bool.and_eq_true, hc.equal_relined, ihfirst, ihbody,
      Expr.equalAll_relined hstep, tokens]
    simp only [List.mem_append, or_imp, forall_and, and_assoc]
  | @block body _ ih =>
    rw [relined_block]
    show equalAll body (body.map (relined line)) = true ↔ _
    rw [equalAll_congr ih, tokens, tokensAll_eq]
    simp only [List.mem_flatMap]
    constructor
    · rintro hall token ⟨s, hs, htoken⟩
      exact hall s hs token htoken
    · exact fun hall s hs token htoken => hall token ⟨s, hs, htoken⟩
  | @eval es _ hes =>
    show Expr.equalAll es (es.map (Expr.relined line)) = true ↔ _
    rw [Expr.equalAll_relined hes, tokens]
  | empty => simp [relined, mapTokens, equal, tokens]

end Equality

end ImpSyntax
