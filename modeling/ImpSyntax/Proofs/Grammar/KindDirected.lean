import ImpSyntax.Proofs.Grammar.Exactness
import ImpSyntax.Proofs.Rule.Simulation
import ImpSyntax.Proofs.Tree.Skeleton

/-!
# Parsing is directed by kinds

What a program is read from is a list of kinds: on tokens that rules cannot tell apart
(`Token.Alike`) every rule of the grammar simulates itself, and the constructs it reads have the
same skeleton.  The rules are gone through once more for this, from the operands up to whole
programs.

That the other tokens are in the same places of the tree is no part of the simulation.  It is known
already from the order of the tokens in a tree, which is that of the source (`kept`), and the
skeleton says which place each of them takes.

The main result is `parse_directed_by_kinds`.
-/

namespace ImpSyntax

/-- The two expressions are the same but for the texts and the lines of their tokens. -/
def Expr.SameSkeleton (e f : Expr) : Prop :=
  e.skeleton = f.skeleton

/-- The two statements are the same but for the texts and the lines of their tokens. -/
def Stmt.SameSkeleton (s t : Stmt) : Prop :=
  s.skeleton = t.skeleton

lemma Token.Alike.bare_eq {token other : Token} (h : token.Alike other) :
    token.bare = other.bare :=
  bare_eq_bare_iff.2 h.kind_eq

lemma Expr.map_skeleton_eq {es fs : List Expr} (h : List.Forall₂ SameSkeleton es fs) :
    es.map skeleton = fs.map skeleton := by
  induction h with
  | nil => rfl
  | cons hfirst _ ih => rw [List.map_cons, List.map_cons, hfirst, ih]

lemma Stmt.map_skeleton_eq {ss ts : List Stmt} (h : List.Forall₂ SameSkeleton ss ts) :
    ss.map skeleton = ts.map skeleton := by
  induction h with
  | nil => rfl
  | cons hfirst _ ih => rw [List.map_cons, List.map_cons, hfirst, ih]

namespace Grammar

open Rule

/-! ## Expressions -/

section Expressions

variable {inner other : Rule Expr}

lemma simulates_primary : Simulates Expr.SameSkeleton primary primary := by
  rw [primary_eq]
  refine .convert (fun value token other h => ?_)
    (.choose (fun token other _ h => .pure ?_) simulates_expectedOperand)
  · simp [Expr.SameSkeleton, h.bare_eq]
  · simp [Expr.SameSkeleton, h.bare_eq]

lemma simulates_grouping (h : Simulates Expr.SameSkeleton inner other) :
    Simulates Expr.SameSkeleton (grouping inner) (grouping other) := by
  rw [grouping_eq, grouping_eq]
  refine .choose (fun _ _ _ _ => h.bind fun e f hef => ?_) simulates_primary
  exact simulates_require.bind_pure fun _ _ _ => hef

lemma simulates_stepped (h : Simulates Expr.SameSkeleton inner other) :
    Simulates Expr.SameSkeleton (stepped inner) (stepped other) := by
  refine (simulates_grouping h).bind fun e f hef => .choose (fun step otherStep _ hstep => ?_) ?_
  · exact .pure (congrArg₂ Expr.unary hstep.bare_eq hef)
  · exact .pure hef

lemma Expr.sameSkeleton_foldr {signs others : List Token} {e f : Expr}
    (hsigns : List.Forall₂ Token.Alike signs others) (h : e.SameSkeleton f) :
    (signs.foldr Expr.unary e).SameSkeleton (others.foldr Expr.unary f) := by
  induction hsigns with
  | nil => exact h
  | cons hsign _ ih => exact congrArg₂ Expr.unary hsign.bare_eq ih

lemma simulates_unary (h : Simulates Expr.SameSkeleton inner other) :
    Simulates Expr.SameSkeleton (unary inner) (unary other) := by
  rw [unary_eq, unary_eq]
  refine simulates_accept.many.bind fun signs others hsigns => ?_
  exact (simulates_stepped h).bind_pure fun _ _ hef => Expr.sameSkeleton_foldr hsigns hef

/-- Two operations have the same operator and the same operand. -/
def SameOperation (operation other : Token × Expr) : Prop :=
  operation.1.Alike other.1 ∧ operation.2.SameSkeleton other.2

lemma simulates_operation? {kinds : List Kind} (h : Simulates Expr.SameSkeleton inner other) :
    Simulates (Option.Rel SameOperation) (operation? kinds inner) (operation? kinds other) := by
  rw [operation?_eq, operation?_eq]
  refine .choose (fun operator otherOperator _ halike => ?_) (.pure .none)
  exact h.bind_pure fun _ _ hef => .some ⟨halike, hef⟩

lemma sameSkeleton_foldl {operations others : List (Token × Expr)} {e f : Expr}
    (h : List.Forall₂ SameOperation operations others) (hef : e.SameSkeleton f) :
    (operations.foldl extend e).SameSkeleton (others.foldl extend f) := by
  induction h generalizing e f with
  | nil => exact hef
  | cons hfirst _ ih =>
    refine ih ?_
    rw [Expr.SameSkeleton, extend, extend, Expr.skeleton_binary, Expr.skeleton_binary,
      hfirst.1.bare_eq, hef, hfirst.2]

lemma simulates_leftRun {kinds : List Kind} (h : Simulates Expr.SameSkeleton inner other) :
    Simulates Expr.SameSkeleton (leftRun kinds inner) (leftRun kinds other) :=
  h.bind fun _ _ hef => (simulates_operation? h).many.bind_pure fun _ _ hmore =>
    sameSkeleton_foldl hmore hef

lemma simulates_climb (h : Simulates Expr.SameSkeleton inner other) (levels : List Level) :
    Simulates Expr.SameSkeleton (climb levels inner) (climb levels other) := by
  induction levels with
  | nil => exact simulates_unary h
  | cons level levels ih => exact simulates_leftRun ih

lemma simulates_assignment (h : Simulates Expr.SameSkeleton inner other) :
    Simulates Expr.SameSkeleton (assignment inner) (assignment other) := by
  rw [assignment_eq, assignment_eq]
  refine (simulates_climb h _).bind fun e f hef =>
    .choose (fun operator otherOperator _ halike => h.bind_pure fun a b hab => ?_) (.pure hef)
  rw [Expr.SameSkeleton, Expr.skeleton_binary, Expr.skeleton_binary, halike.bare_eq, hef, hab]

theorem simulates_expression : Simulates Expr.SameSkeleton expression expression :=
  .fix fun _ _ => simulates_assignment

end Expressions

lemma simulates_expressionList :
    Simulates (List.Forall₂ Expr.SameSkeleton) expressionList expressionList := by
  have hitem : Simulates (Option.Rel Expr.SameSkeleton) nextExpression? nextExpression? := by
    rw [nextExpression?_eq]
    exact .choose (fun _ _ _ _ => simulates_expression.bind_pure fun _ _ => .some) (.pure .none)
  exact simulates_expression.bind fun _ _ hef => hitem.many.bind_pure fun _ _ hmore =>
    .cons hef hmore

lemma simulates_condition : Simulates Expr.SameSkeleton condition condition :=
  simulates_require.bind fun _ _ _ => simulates_expression.bind fun _ _ hef =>
    simulates_require.bind_pure fun _ _ _ => hef

/-! ## Statements -/

section Statements

variable {inner other : Rule Stmt}

lemma simulates_printRest : Simulates Stmt.SameSkeleton printRest printRest :=
  simulates_require.bind fun _ _ htarget => simulates_require.bind_pure fun _ _ _ =>
    congrArg Stmt.print htarget.bare_eq

lemma simulates_simple : Simulates Stmt.SameSkeleton simple simple := by
  rw [simple_eq]
  refine .choose (fun _ _ _ _ => .pure rfl) (simulates_expressionList.bind fun es fs hes => ?_)
  exact simulates_require.bind_pure fun _ _ _ => congrArg Stmt.eval (Expr.map_skeleton_eq hes)

variable (h : Simulates Stmt.SameSkeleton inner other)
include h

lemma simulates_ifRest : Simulates Stmt.SameSkeleton (ifRest inner) (ifRest other) := by
  rw [ifRest_eq, ifRest_eq]
  refine simulates_condition.bind fun c d hc => h.bind fun s t hbody =>
    .choose (fun _ _ _ _ => h.bind_pure fun a b halternative => ?_) (.pure ?_)
  · rw [Stmt.SameSkeleton, Stmt.skeleton_ifElse, Stmt.skeleton_ifElse, hc, hbody, halternative]
  · rw [Stmt.SameSkeleton, Stmt.skeleton_ifThen, Stmt.skeleton_ifThen, hc, hbody]

lemma simulates_whileRest : Simulates Stmt.SameSkeleton (whileRest inner) (whileRest other) :=
  simulates_condition.bind fun _ _ hc => h.bind_pure fun _ _ hbody =>
    congrArg₂ Stmt.whileLoop hc hbody

lemma simulates_forRest : Simulates Stmt.SameSkeleton (forRest inner) (forRest other) := by
  refine simulates_require.bind fun _ _ _ => h.bind fun first otherFirst hfirst =>
    simulates_expression.bind fun c d hc => simulates_require.bind fun _ _ _ =>
    simulates_expressionList.bind fun es fs hstep => simulates_require.bind fun _ _ _ =>
    h.bind_pure fun s t hbody => ?_
  rw [Stmt.SameSkeleton, Stmt.skeleton_forLoop, Stmt.skeleton_forLoop, hfirst, hc,
    Expr.map_skeleton_eq hstep, hbody]

lemma simulates_blockItem? :
    Simulates (Option.Rel Stmt.SameSkeleton) (blockItem? inner) (blockItem? other) := by
  rw [blockItem?_eq, blockItem?_eq]
  refine .choose (fun _ _ _ _ => .pure .none) (simulates_atEnd.bind ?_)
  rintro ended _ rfl
  cases ended with
  | true => exact simulates_unexpected
  | false => exact h.bind_pure fun _ _ => .some

lemma simulates_blockRest : Simulates Stmt.SameSkeleton (blockRest inner) (blockRest other) := by
  refine (simulates_blockItem? h).many.bind_pure fun ss ts hbody => ?_
  rw [Stmt.SameSkeleton, Stmt.skeleton_block, Stmt.skeleton_block, Stmt.map_skeleton_eq hbody]

lemma simulates_statementRest (opener : Option Kind) :
    Simulates Stmt.SameSkeleton (statementRest inner opener) (statementRest other opener) := by
  unfold statementRest
  split
  · exact simulates_printRest
  · exact simulates_ifRest h
  · exact simulates_whileRest h
  · exact simulates_forRest h
  · exact simulates_blockRest h
  · exact simulates_simple

lemma simulates_statementWith :
    Simulates Stmt.SameSkeleton (statementWith inner) (statementWith other) := by
  rw [statementWith_eq, statementWith_eq]
  refine .choose (fun opener otherOpener _ halike => ?_) simulates_simple
  rw [halike.kind_eq]
  exact simulates_statementRest h _

end Statements

theorem simulates_statement : Simulates Stmt.SameSkeleton statement statement :=
  .fix fun _ _ => simulates_statementWith

theorem simulates_program :
    Simulates (List.Forall₂ Stmt.SameSkeleton) program program := by
  refine .many ?_
  rw [programItem?_eq]
  refine simulates_atEnd.bind ?_
  rintro ended _ rfl
  cases ended with
  | true => exact .pure .none
  | false => exact simulates_statement.bind_pure fun _ _ => .some

end Grammar

/-! ## Programs read from tokens of the same kinds -/

lemma keptPlaces_eq_of_alike {ts us : List Token} (h : List.Forall₂ Token.Alike ts us) :
    keptPlaces ts = keptPlaces us := by
  induction h with
  | nil => rfl
  | cons htoken _ ih => rw [keptPlaces, keptPlaces, htoken.kind_eq, ih]

/-- Past the end there is no token, as at the end. -/
lemma getElem?_min_length (tokens : List Token) (i : Nat) :
    tokens[min i tokens.length]? = tokens[i]? := by
  rcases Nat.le_total i tokens.length with hle | hle
  · rw [Nat.min_eq_left hle]
  · rw [Nat.min_eq_right hle, List.getElem?_eq_none (Nat.le_refl _), List.getElem?_eq_none hle]

/-- Two lists of tokens with the same kinds, and the same texts of numbers, are both programs or
both not.  If they are, the programs have one skeleton, and the tokens in it are those at the same
places of the two lists; so the second program is the first one with each token replaced by the one
at its place.  If they are not, there is the same objection at the same place of both lists, and
nothing else enters the failures. -/
theorem parse_directed_by_kinds {ts us : List Token} (h : List.Forall₂ Token.Alike ts us) :
    (∃ p q : Program, parse ts = .ok p ∧ parse us = .ok q ∧ p.skeleton = q.skeleton ∧
      ∃ places : List Nat, places.Pairwise (· < ·) ∧
        p.tokens.map some = places.map (ts[·]?) ∧ q.tokens.map some = places.map (us[·]?) ∧
        ∀ r : Program, r.skeleton = p.skeleton → r.tokens.map some = places.map (us[·]?) →
          r = q) ∨
    ∃ i ≤ ts.length, ∃ objection : Objection,
      parse ts = .error (objection.failure ts[i]?) ∧
        parse us = .error (objection.failure us[i]?) := by
  rcases Grammar.simulates_program h with
    ⟨n, p, q, hrun, hother, hsame⟩ | ⟨i, n, objection, hrun, hother⟩
  · have hp : parse ts = .ok p := by rw [parse, hrun]; rfl
    have hq : parse us = .ok q := by rw [parse, hother]; rfl
    have hskeleton : Program.skeleton p = Program.skeleton q := Stmt.map_skeleton_eq hsame
    have hpTokens : (Program.tokens p).map some = (keptPlaces ts).map (ts[·]?) := by
      rw [(derivesProgram_of_parse hp).tokens_eq, map_some_kept]
    have hqTokens : (Program.tokens q).map some = (keptPlaces ts).map (us[·]?) := by
      rw [(derivesProgram_of_parse hq).tokens_eq, map_some_kept, keptPlaces_eq_of_alike h]
    -- a skeleton with its tokens in order is one tree only
    refine .inl ⟨p, q, hp, hq, hskeleton, keptPlaces ts, keptPlaces_pairwise ts, hpTokens, hqTokens,
      fun r hr hrTokens => ?_⟩
    have htokens : r.tokens.map some = (Program.tokens q).map some := hrTokens.trans hqTokens.symm
    exact Program.eq_of_skeleton (hr.trans hskeleton)
      (List.map_injective_iff.2 (fun _ _ => Option.some.inj) htokens)
  · refine .inr ⟨min i ts.length, Nat.min_le_right _ _, objection, ?_, ?_⟩
    · rw [getElem?_min_length, parse, hrun]
      rfl
    · rw [h.length_eq, getElem?_min_length, parse, hother]
      rfl

/-- A variable that is assigned to itself, and other variables on other lines in its places. -/
theorem parse_directed_by_kinds_assignment :
    let ts : List Token := [⟨.identifier, "x", 1⟩, .ofKind .assign 1, ⟨.identifier, "x", 1⟩,
      .ofKind .semicolon 1]
    let us : List Token := [⟨.identifier, "y", 1⟩, .ofKind .assign 2, ⟨.identifier, "z", 3⟩,
      .ofKind .semicolon 4]
    List.Forall₂ Token.Alike ts us ∧ ∃ p q : Program, parse ts = .ok p ∧ parse us = .ok q ∧
      p.skeleton = q.skeleton := by
  intro ts us
  have halike : List.Forall₂ Token.Alike ts us :=
    .cons ⟨rfl, by simp⟩ (.cons ⟨rfl, by simp [Token.ofKind]⟩ (.cons ⟨rfl, by simp⟩
      (.cons ⟨rfl, by simp [Token.ofKind]⟩ .nil)))
  have hparse : parse ts = .ok [.eval [.binary (.ofKind .assign 1) (.var ⟨.identifier, "x", 1⟩)
      (.var ⟨.identifier, "x", 1⟩)]] := rfl
  refine ⟨halike, ?_⟩
  rcases parse_directed_by_kinds halike with
    ⟨p, q, hp, hq, hskeleton, -⟩ | ⟨i, -, objection, hts, -⟩
  · exact ⟨p, q, hp, hq, hskeleton⟩
  · rw [hparse] at hts
    exact absurd hts (by simp)

end ImpSyntax
