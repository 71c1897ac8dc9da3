import ImpSyntax.Proofs.Source.Scan
import ImpSyntax.Proofs.Tree.Dangling
import ImpSyntax.Proofs.Tree.WellFormed

/-!
# The canonical text of a tree

`canonical` lists the tokens of the text that a tree is rendered as, all of them on one line.  It
stands between the text and the tree: the text has these tokens (`Stmt.WellFormed.scans`), and they
are derived as the tree itself, moved to that line (`derives_canonical`).

That the text has these tokens depends on what may follow each part of it.  An expression ends in
a word, a number or a parenthesis and has to be kept from growing; a statement ends in a semicolon
or a brace and ends there whatever follows.
-/

namespace ImpSyntax

open Grammar

/-! ## Canonical tokens -/

namespace Expr

/-- The tokens of the canonical text of an expression. -/
def canonical (line : LineNumber) : Expr → List Token
  | number _ token => [token.onLine line]
  | var token => [token.onLine line]
  | unary operator operand =>
    if operator.kind.isStep then
      .ofKind .leftParen line ::
        (operand.canonical line ++ [operator.onLine line, .ofKind .rightParen line])
    else
      .ofKind .leftParen line :: operator.onLine line ::
        (operand.canonical line ++ [.ofKind .rightParen line])
  | binary operator left right =>
    .ofKind .leftParen line :: (left.canonical line ++ operator.onLine line ::
      (right.canonical line ++ [.ofKind .rightParen line]))

/-- The tokens of the canonical text of a list of expressions. -/
def canonicalAll (line : LineNumber) : List Expr → List Token
  | [] => []
  | [e] => e.canonical line
  | e :: rest => e.canonical line ++ .ofKind .comma line :: canonicalAll line rest

/-- The tokens of the canonical text of a condition. -/
def canonicalCondition (line : LineNumber) (c : Expr) : List Token :=
  .ofKind .leftParen line :: (c.canonical line ++ [.ofKind .rightParen line])

end Expr

namespace Stmt

mutual

/-- The tokens of the canonical text of a statement. -/
def canonical (line : LineNumber) : Stmt → List Token
  | print target => [.ofKind .printWord line, target.onLine line, .ofKind .semicolon line]
  | ifThen c body =>
    .ofKind .ifWord line :: (c.canonicalCondition line ++ body.canonical line)
  | ifElse c body alternative =>
    .ofKind .ifWord line :: (c.canonicalCondition line ++ (body.canonical line ++
      .ofKind .elseWord line :: alternative.canonical line))
  | whileLoop c body =>
    .ofKind .whileWord line :: (c.canonicalCondition line ++ body.canonical line)
  | forLoop first c step body =>
    .ofKind .forWord line :: .ofKind .leftParen line :: (first.canonical line ++
      (c.canonical line ++ .ofKind .semicolon line :: (Expr.canonicalAll line step ++
        .ofKind .rightParen line :: body.canonical line)))
  | block body =>
    .ofKind .leftBrace line :: (canonicalAll line body ++ [.ofKind .rightBrace line])
  | eval es => Expr.canonicalAll line es ++ [.ofKind .semicolon line]
  | empty => [.ofKind .semicolon line]

/-- The tokens of the canonical text of the statements of a block. -/
def canonicalAll (line : LineNumber) : List Stmt → List Token
  | [] => []
  | s :: rest => s.canonical line ++ canonicalAll line rest

end

end Stmt

/-- The tokens of the canonical text of a program, whose statements stand on the given lines. -/
def Program.canonicalBy (lines : Nat → LineNumber) (program : Program) : List Token :=
  (program.mapIdx fun k s => s.canonical (lines k)).flatten

/-! ## Canonical tokens are derived as the tree -/

section Derives

variable {line : LineNumber}

lemma kind_ofKind (kind : Kind) (line : LineNumber) : (Token.ofKind kind line).kind = kind := rfl

/-- An expression of its canonical tokens is a primary one, for it is a token or stands in
parentheses. -/
lemma Expr.WellFormed.derives_canonical {e : Expr} (h : e.WellFormed) :
    Derives .primary (e.canonical line) (e.relined line) := by
  induction h with
  | number htoken hvalue => exact .number htoken.1 hvalue
  | var htoken => exact .var htoken.1
  | @unary operator operand hoperator _ _ ih =>
    rw [canonical]
    split
    · rename_i hstep
      have huse : .step ∈ (operator.onLine line).kind.uses :=
        Use.step_mem.2 (List.contains_iff_mem.1 hstep)
      have hunary : Derives .expression (operand.canonical line ++ [operator.onLine line])
          ((Expr.unary operator operand).relined line) :=
        .unassigned (Derives.of_signed (.unsigned (.step ih huse)) _)
      simpa using Derives.parens (kind_ofKind .leftParen line) hunary
        (kind_ofKind .rightParen line)
    · rename_i hstep
      have huse : .sign ∈ (operator.onLine line).kind.uses :=
        hoperator.resolve_right fun huse => hstep (List.contains_iff_mem.2 (Use.step_mem.1 huse))
      have hunary : Derives .expression (operator.onLine line :: operand.canonical line)
          ((Expr.unary operator operand).relined line) :=
        .unassigned (Derives.of_signed (.sign huse (ih.of_primary _)) _)
      simpa using Derives.parens (kind_ofKind .leftParen line) hunary
        (kind_ofKind .rightParen line)
  | @binary operator left right hoperator _ _ _ ihleft ihright =>
    have hbinary : Derives .expression
        (left.canonical line ++ operator.onLine line :: right.canonical line)
        ((Expr.binary operator left right).relined line) := by
      rcases hoperator with hassignment | ⟨level, hlevel⟩
      · exact .assignment (ihleft.of_primary _) hassignment (ihright.of_primary _)
      · exact Derives.expression_of_level (.operation (ihleft.of_primary _) hlevel
          (ihright.of_primary _))
    rw [canonical]
    simpa using Derives.parens (kind_ofKind .leftParen line) hbinary (kind_ofKind .rightParen line)

lemma Expr.derives_canonicalAll {es : List Expr} (hne : es ≠ []) (h : ∀ e ∈ es, e.WellFormed) :
    DerivesList (canonicalAll line es) (es.map (relined line)) := by
  induction es with
  | nil => exact absurd rfl hne
  | cons e es ih =>
    rw [List.forall_mem_cons] at h
    have hfirst : Derives .expression (e.canonical line) (e.relined line) :=
      h.1.derives_canonical.of_primary _
    cases es with
    | nil => exact .one hfirst
    | cons next es => exact .more hfirst (kind_ofKind .comma line) (ih (List.cons_ne_nil _ _) h.2)

lemma Expr.WellFormed.derives_canonicalCondition {c : Expr} (h : c.WellFormed) :
    DerivesCondition (c.canonicalCondition line) (c.relined line) :=
  .parens (kind_ofKind .leftParen line) (h.derives_canonical.of_primary _)
    (kind_ofKind .rightParen line)

lemma Stmt.derives_canonicalAll {body : List Stmt}
    (h : ∀ s ∈ body, DerivesStmt (s.canonical line) (s.relined line)) :
    DerivesProgram (canonicalAll line body) (body.map (relined line)) := by
  induction body with
  | nil => exact .nil
  | cons s body ih =>
    rw [List.forall_mem_cons] at h
    exact .cons h.1 (ih h.2)

/-- A statement in which no alternative dangles is derived from its canonical tokens. -/
theorem Stmt.WellFormed.derives_canonical {s : Stmt} (h : s.WellFormed) (hnone : s.NoneDangles) :
    DerivesStmt (s.canonical line) (s.relined line) := by
  have hkind : ∀ kind, (Token.ofKind kind line).kind = kind := fun kind => kind_ofKind kind line
  induction hnone with
  | print =>
    cases h with
    | print htarget => exact .print (hkind _) htarget.1 (hkind _)
  | ifThen _ ih =>
    cases h with
    | ifThen hc hbody => exact .ifThen (hkind _) hc.derives_canonicalCondition (ih hbody)
  | ifElse hclosed _ _ ihbody ihalternative =>
    cases h with
    | ifElse hc hbody halternative =>
      exact .ifElse (hkind _) hc.derives_canonicalCondition (ihbody hbody)
        ((Stmt.endsOpen_relined _).trans hclosed) (hkind _) (ihalternative halternative)
  | whileLoop _ ih =>
    cases h with
    | whileLoop hc hbody => exact .whileLoop (hkind _) hc.derives_canonicalCondition (ih hbody)
  | forLoop _ _ ihfirst ihbody =>
    cases h with
    | forLoop hfirst hc hne hstep hbody =>
      exact .forLoop (hkind _) (hkind _) (ihfirst hfirst) (hc.derives_canonical.of_primary _)
        (hkind _) (Expr.derives_canonicalAll hne hstep) (hkind _) (ihbody hbody)
  | block _ ih =>
    cases h with
    | block hbody =>
      rw [Stmt.relined_block]
      have hparts := Stmt.derives_canonicalAll fun s hs => ih s hs (hbody s hs)
      exact .of_program (hkind _) hparts (hkind _)
  | eval =>
    cases h with
    | eval hne hes => exact .eval (Expr.derives_canonicalAll hne hes) (hkind _)
  | empty => exact .empty (hkind _)

lemma Program.derives_canonicalBy {p : Program}
    (h : ∀ s ∈ p, ∀ line, DerivesStmt (s.canonical line) (s.relined line))
    (lines : Nat → LineNumber) : DerivesProgram (p.canonicalBy lines) (p.relinedBy lines) := by
  induction p generalizing lines with
  | nil => exact .nil
  | cons s p ih =>
    rw [List.forall_mem_cons] at h
    rw [canonicalBy, relinedBy, List.mapIdx_cons, List.mapIdx_cons, List.flatten_cons]
    exact .cons (h.1 _) (ih h.2 fun k => lines (k + 1))

end Derives

/-! ## The canonical text has the canonical tokens -/

section Scans

variable {line : LineNumber} {after : List Char} {tokens : List Token}

lemma Token.IsSpelled.lexeme?_eq {token : Token} (h : token.IsSpelled) :
    token.kind.lexeme? = some (String.ofList token.text.toList) := by
  rw [String.ofList_toList]
  exact h

lemma Scans.operator {operator : Token} (hkind : operator.kind ∈ Kind.symbols)
    (hspelled : operator.IsSpelled) (hafter : Separates after) (h : Scans line after tokens) :
    Scans line (operator.text.toList ++ after) (operator.onLine line :: tokens) := by
  show Scans line ((operator.onLine line).text.toList ++ after) _
  exact h.token (next_of_separates hkind hspelled.lexeme?_eq hafter) rfl

/-- A number or a variable. -/
lemma Scans.operand {kind : Kind} {token : Token} (htoken : token.IsLexeme kind)
    (hkind : kind ∉ Kind.symbols) (hafter : Stops after) (h : Scans line after tokens) :
    Scans line (token.text.toList ++ after) (token.onLine line :: tokens) := by
  obtain ⟨rfl, hlexeme⟩ := htoken
  obtain ⟨c, s, htext, hpart⟩ := hlexeme.head_isWordPart hkind
  have hnext := hlexeme.next_of_stops (by simpa [htext] using hpart) hafter
  show Scans line ((token.onLine line).text.toList ++ after) _
  exact h.token hnext rfl

lemma Expr.WellFormed.separates_render {e : Expr} (h : e.WellFormed) :
    Separates (e.render.toList ++ after) := by
  have hparens : ∀ s : List Char, Separates ('(' :: s) := fun s => separates_cons.2 (by decide)
  have hoperand : ∀ {kind : Kind} {token : Token}, token.IsLexeme kind → kind ∉ Kind.symbols →
      Separates (token.text.toList ++ after) := by
    intro kind token htoken hkind
    obtain ⟨c, s, htext, hpart⟩ := htoken.2.head_isWordPart hkind
    rw [htext]
    exact separates_cons.2 (by simp [separates, hpart])
  cases h with
  | number htoken _ => exact hoperand htoken (by decide)
  | var htoken => exact hoperand htoken (by decide)
  | @unary operator operand =>
    rw [render]
    split
    · simpa using hparens _
    · simpa using hparens _
  | binary => simpa [render] using hparens _

/-- An expression in front of what keeps it from growing. -/
lemma Expr.WellFormed.scans {e : Expr} (h : e.WellFormed) (hafter : Stops after)
    (hscans : Scans line after tokens) :
    Scans line (e.render.toList ++ after) (e.canonical line ++ tokens) := by
  have hparen : ∀ s : List Char, Separates (')' :: s) ∧ Stops (')' :: s) := fun s =>
    ⟨separates_cons.2 (by decide), stops_cons.2 (by decide)⟩
  have hspace : ∀ s : List Char, Separates (' ' :: s) ∧ Stops (' ' :: s) := fun s =>
    ⟨separates_cons.2 (by decide), stops_cons.2 (by decide)⟩
  induction h generalizing after tokens with
  | number htoken _ => exact hscans.operand htoken (by decide) hafter
  | var htoken => exact hscans.operand htoken (by decide) hafter
  | @unary operator operand hoperator hspelled hoperand ih =>
    have hsymbol := hoperator.elim Kind.mem_symbols_of_uses Kind.mem_symbols_of_uses
    rw [render, canonical]
    split
    · have hstep := hscans.rightParen.operator hsymbol hspelled (hparen after).1
      have hoperandScans := ih (stops_of_symbol hsymbol hspelled.lexeme?_eq) hstep
      simpa using hoperandScans.leftParen
    · have hoperandScans := ih (hparen after).2 hscans.rightParen
      have hsign := hoperandScans.operator hsymbol hspelled hoperand.separates_render
      simpa using hsign.leftParen
  | @binary operator left right hoperator hspelled hleft hright ihleft ihright =>
    have hsymbol : operator.kind ∈ Kind.symbols := by
      rcases hoperator with huse | ⟨level, huse⟩
      · exact Kind.mem_symbols_of_uses huse
      · exact Kind.mem_symbols_of_uses huse
    have hrightScans := ihright (hparen after).2 hscans.rightParen
    have hoperatorScans := hrightScans.space.operator hsymbol hspelled (hspace _).1
    have hleftScans := ihleft (hspace _).2 hoperatorScans.space
    simpa [render, canonical] using hleftScans.leftParen

lemma Expr.scans_renderAll {es : List Expr} (h : ∀ e ∈ es, e.WellFormed) (hafter : Stops after)
    (hscans : Scans line after tokens) :
    Scans line ((renderAll es).toList ++ after) (canonicalAll line es ++ tokens) := by
  induction es with
  | nil => simpa [renderAll, canonicalAll] using hscans
  | cons e es ih =>
    rw [List.forall_mem_cons] at h
    cases es with
    | nil => exact h.1.scans hafter hscans
    | cons next es =>
      have hcomma : Scans line (',' :: _) (.ofKind .comma line :: _) :=
        (ih h.2).space.punctuation (by decide) rfl
      have hfirst := h.1.scans (stops_cons.2 (by decide)) hcomma
      simpa [renderAll, canonicalAll] using hfirst

/-- A condition after the word that it belongs to. -/
lemma Expr.WellFormed.scans_condition {c : Expr} (h : c.WellFormed)
    (hscans : Scans line after tokens) :
    Scans line ('(' :: (c.render.toList ++ ')' :: after))
      (c.canonicalCondition line ++ tokens) := by
  have hc := h.scans (stops_cons.2 (by decide)) hscans.rightParen
  simpa [canonicalCondition] using hc.leftParen

/-- A reserved word with the space after it. -/
lemma Scans.word {kind : Kind} {text : List Char} (hkind : kind ∈ Kind.reservedWords)
    (hspelled : kind.lexeme? = some (String.ofList text)) (h : Scans line after tokens) :
    Scans line (text ++ ' ' :: after) (.ofKind kind line :: tokens) :=
  h.space.reserved hkind hspelled (stops_cons.2 (by decide))

lemma Stmt.scans_renderBody {body : List Stmt}
    (h : ∀ s ∈ body, ∀ {after : List Char} {tokens : List Token}, Scans line after tokens →
      Scans line (s.render.toList ++ after) (s.canonical line ++ tokens))
    (hscans : Scans line after tokens) :
    Scans line ((renderBody body).toList ++ after) (canonicalAll line body ++ tokens) := by
  induction body with
  | nil => simpa [renderBody, canonicalAll] using hscans
  | cons s body ih =>
    rw [List.forall_mem_cons] at h
    simpa [renderBody, canonicalAll] using (h.1 (ih h.2)).space

/-- A statement in front of anything: nothing can make it grow. -/
theorem Stmt.WellFormed.scans {s : Stmt} (h : s.WellFormed) (hscans : Scans line after tokens) :
    Scans line (s.render.toList ++ after) (s.canonical line ++ tokens) := by
  induction h generalizing after tokens with
  | @print target htarget =>
    have hoperand := hscans.semicolon.operand htarget (by decide) (stops_cons.2 (by decide))
    have hall : Scans line (['p', 'r', 'i', 'n', 't'] ++ _) (.ofKind .printWord line :: _) :=
      hoperand.word (by decide) rfl
    simpa [render, canonical] using hall
  | @ifThen c body hc _ ih =>
    have hcondition := hc.scans_condition (ih hscans).space
    have hall : Scans line (['i', 'f'] ++ _) (.ofKind .ifWord line :: _) :=
      hcondition.word (by decide) rfl
    simpa [render, canonical] using hall
  | @ifElse c body alternative hc _ _ ihbody ihalternative =>
    have helse : Scans line (['e', 'l', 's', 'e'] ++ _) (.ofKind .elseWord line :: _) :=
      (ihalternative hscans).word (by decide) rfl
    have hcondition := hc.scans_condition (ihbody helse.space).space
    have hall : Scans line (['i', 'f'] ++ _) (.ofKind .ifWord line :: _) :=
      hcondition.word (by decide) rfl
    simpa [render, canonical] using hall
  | @whileLoop c body hc _ ih =>
    have hcondition := hc.scans_condition (ih hscans).space
    have hall : Scans line (['w', 'h', 'i', 'l', 'e'] ++ _) (.ofKind .whileWord line :: _) :=
      hcondition.word (by decide) rfl
    simpa [render, canonical] using hall
  | @forLoop first body c step _ hc _ hstep _ ihfirst ihbody =>
    have hstepScans := Expr.scans_renderAll hstep (stops_cons.2 (by decide))
      (ihbody hscans).space.rightParen
    have hcondition := hc.scans (stops_cons.2 (by decide)) hstepScans.space.semicolon
    have hall : Scans line (['f', 'o', 'r'] ++ _) (.ofKind .forWord line :: _) :=
      (ihfirst hcondition.space).leftParen.word (by decide) rfl
    simpa [render, canonical] using hall
  | @block body _ ih =>
    have hright : Scans line ('}' :: after) (.ofKind .rightBrace line :: tokens) :=
      hscans.punctuation (by decide) rfl
    have hbody := scans_renderBody ih hright.space
    have hall : Scans line ('{' :: _) (.ofKind .leftBrace line :: _) :=
      hbody.punctuation (by decide) rfl
    simpa [render, canonical] using hall
  | @eval es _ hes =>
    have hall := Expr.scans_renderAll hes (stops_cons.2 (by decide)) hscans.semicolon
    simpa [render, canonical] using hall
  | empty => simpa [render, canonical] using hscans.semicolon

end Scans

end ImpSyntax
