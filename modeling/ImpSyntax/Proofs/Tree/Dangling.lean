import ImpSyntax.Proofs.Grammar.Derivation
import ImpSyntax.Proofs.Tree.Tokens

/-!
# Conditionals that an alternative dangles after

In the text of a statement an `else` belongs to the nearest conditional in front of it that has none
yet.  A tree may say otherwise: if the body of a conditional with an alternative ends in one without
(`Stmt.endsOpen`), then the text of the tree is also that of another one, in which the alternative
belongs to the inner conditional.

`Stmt.NoneDangles` says that this happens nowhere in a statement, as it does nowhere in what the
grammar derives (`DerivesStmt.noneDangles`).  `Stmt.rebound` gives every alternative to the nearest
conditional.  It changes nothing if none dangles (`Stmt.NoneDangles.rebound_eq`), and afterwards
none does (`Stmt.noneDangles_rebound`).
-/

namespace ImpSyntax

namespace Stmt

/-- The body of no conditional with an alternative ends in one without. -/
inductive NoneDangles : Stmt → Prop where
  | print {target : Token} : NoneDangles (.print target)
  | ifThen {c : Expr} {body : Stmt} (hbody : NoneDangles body) : NoneDangles (.ifThen c body)
  | ifElse {c : Expr} {body alternative : Stmt} (hclosed : body.endsOpen = false)
      (hbody : NoneDangles body) (halternative : NoneDangles alternative) :
      NoneDangles (.ifElse c body alternative)
  | whileLoop {c : Expr} {body : Stmt} (hbody : NoneDangles body) :
      NoneDangles (.whileLoop c body)
  | forLoop {first body : Stmt} {c : Expr} {step : List Expr} (hfirst : NoneDangles first)
      (hbody : NoneDangles body) : NoneDangles (.forLoop first c step body)
  | block {body : List Stmt} (hbody : ∀ s ∈ body, NoneDangles s) : NoneDangles (.block body)
  | eval {es : List Expr} : NoneDangles (.eval es)
  | empty : NoneDangles .empty

/-- The statement with an alternative for the conditional that it ends in. -/
def withElse : Stmt → Stmt → Stmt
  | ifThen c body, alternative =>
    if body.endsOpen then ifThen c (body.withElse alternative) else ifElse c body alternative
  | ifElse c body other, alternative => ifElse c body (other.withElse alternative)
  | whileLoop c body, alternative => whileLoop c (body.withElse alternative)
  | forLoop first c step body, alternative => forLoop first c step (body.withElse alternative)
  | s, _ => s

mutual

/-- The statement with each alternative given to the nearest conditional before it. -/
def rebound : Stmt → Stmt
  | print target => print target
  | ifThen c body => ifThen c body.rebound
  -- the body may end open only now, after a conditional in it has lost its alternative
  | ifElse c body alternative => (ifThen c body.rebound).withElse alternative.rebound
  | whileLoop c body => whileLoop c body.rebound
  | forLoop first c step body => forLoop first.rebound c step body.rebound
  | block body => block (reboundAll body)
  | eval es => eval es
  | empty => empty

/-- The statements of a block, with each alternative given to the nearest conditional before it. -/
def reboundAll : List Stmt → List Stmt
  | [] => []
  | s :: rest => s.rebound :: reboundAll rest

end

variable {s alternative : Stmt} {line : LineNumber}

lemma reboundAll_eq (body : List Stmt) : reboundAll body = body.map rebound := by
  induction body with
  | nil => rfl
  | cons s body ih => rw [reboundAll, ih, List.map_cons]

/-! ## An alternative for the conditional at the end -/

lemma NoneDangles.withElse (h : s.NoneDangles) (halternative : alternative.NoneDangles) :
    (s.withElse alternative).NoneDangles := by
  induction h with
  | @ifThen c body hbody ih =>
    rw [Stmt.withElse]
    split
    · exact .ifThen ih
    · rename_i hclosed
      exact .ifElse (Bool.eq_false_iff.2 hclosed) hbody halternative
  | ifElse hclosed hbody _ _ ih => exact .ifElse hclosed hbody ih
  | whileLoop _ ih => exact .whileLoop ih
  | forLoop hfirst _ _ ih => exact .forLoop hfirst ih
  | print => exact .print
  | block hbody _ => exact .block hbody
  | eval => exact .eval
  | empty => exact .empty

/-- The alternative is written after the statement. -/
lemma render_withElse (h : s.endsOpen = true) :
    (s.withElse alternative).render = s.render ++ " else " ++ alternative.render := by
  induction s using Stmt.induction with
  | ifThen c body ih =>
    rw [withElse]
    split
    · rename_i hopen
      simp only [render, ih hopen, String.append_assoc]
    · simp only [render, String.append_assoc]
  | ifElse c body other _ ih => simp only [withElse, render, ih h, String.append_assoc]
  | whileLoop c body ih => simp only [withElse, render, ih h, String.append_assoc]
  | forLoop first c step body _ ih => simp only [withElse, render, ih h, String.append_assoc]
  | print | block | eval | empty => exact absurd h (by simp [endsOpen])

/-! ## Alternatives given to the nearest conditional -/

lemma noneDangles_rebound (s : Stmt) : s.rebound.NoneDangles := by
  induction s using Stmt.induction with
  | print target => exact .print
  | ifThen c body ih => exact .ifThen ih
  | ifElse c body alternative ihbody ihalternative =>
    exact (NoneDangles.ifThen ihbody).withElse ihalternative
  | whileLoop c body ih => exact .whileLoop ih
  | forLoop first c step body ihfirst ihbody => exact .forLoop ihfirst ihbody
  | block body ih =>
    rw [rebound, reboundAll_eq]
    exact .block (List.forall_mem_map.2 ih)
  | eval es => exact .eval
  | empty => exact .empty

lemma NoneDangles.rebound_eq (h : s.NoneDangles) : s.rebound = s := by
  induction h with
  | ifThen _ ih => rw [rebound, ih]
  | ifElse hclosed _ _ ihbody ihalternative =>
    rw [rebound, ihbody, ihalternative, Stmt.withElse, if_neg (Bool.eq_false_iff.1 hclosed)]
  | whileLoop _ ih => rw [rebound, ih]
  | forLoop _ _ ihfirst ihbody => rw [rebound, ihfirst, ihbody]
  | block _ ih => rw [rebound, reboundAll_eq, List.map_congr_left ih, List.map_id']
  | print | eval | empty => rfl

/-- The text does not show which conditional an alternative belongs to. -/
lemma render_rebound (s : Stmt) : s.rebound.render = s.render := by
  induction s using Stmt.induction with
  | ifThen c body ih => rw [rebound, render, render, ih]
  | ifElse c body alternative ihbody ihalternative =>
    rw [rebound, render_withElse rfl, render, render, ihbody, ihalternative]
  | whileLoop c body ih => rw [rebound, render, render, ih]
  | forLoop first c step body ihfirst ihbody => rw [rebound, render, render, ihfirst, ihbody]
  | block body ih => rw [rebound, reboundAll_eq, render, render, renderBody_congr ih]
  | print | eval | empty => rfl

/-! ## Statements on another line -/

lemma endsOpen_relined (s : Stmt) : (s.relined line).endsOpen = s.endsOpen := by
  induction s using Stmt.induction with
  | ifElse c body alternative _ ih => exact ih
  | whileLoop c body ih => exact ih
  | forLoop first c step body _ ih => exact ih
  | block body _ =>
    rw [relined_block]
    rfl
  | _ => rfl

lemma NoneDangles.relined (h : s.NoneDangles) : (s.relined line).NoneDangles := by
  induction h with
  | print => exact .print
  | ifThen _ ih => exact .ifThen ih
  | ifElse hclosed _ _ ihbody ihalternative =>
    exact .ifElse ((endsOpen_relined _).trans hclosed) ihbody ihalternative
  | whileLoop _ ih => exact .whileLoop ih
  | forLoop _ _ ihfirst ihbody => exact .forLoop ihfirst ihbody
  | block _ ih =>
    rw [relined_block]
    exact .block (List.forall_mem_map.2 ih)
  | eval => exact .eval
  | empty => exact .empty

lemma NoneDangles.of_relined (h : (s.relined line).NoneDangles) : s.NoneDangles := by
  induction s using Stmt.induction with
  | print target => exact .print
  | ifThen c body ih =>
    cases h with
    | ifThen hbody => exact .ifThen (ih hbody)
  | ifElse c body alternative ihbody ihalternative =>
    cases h with
    | ifElse hclosed hbody halternative =>
      exact .ifElse ((endsOpen_relined body).symm.trans hclosed) (ihbody hbody)
        (ihalternative halternative)
  | whileLoop c body ih =>
    cases h with
    | whileLoop hbody => exact .whileLoop (ih hbody)
  | forLoop first c step body ihfirst ihbody =>
    cases h with
    | forLoop hfirst hbody => exact .forLoop (ihfirst hfirst) (ihbody hbody)
  | block body ih =>
    rw [relined_block] at h
    cases h with
    | block hbody => exact .block fun s hs => ih s hs (List.forall_mem_map.1 hbody s hs)
  | eval es => exact .eval
  | empty => exact .empty

end Stmt

namespace Grammar

/-- What is derived has every alternative at the nearest conditional. -/
lemma DerivesStmt.noneDangles {tokens : List Token} {s : Stmt} (h : DerivesStmt tokens s) :
    s.NoneDangles := by
  induction h with
  | print => exact .print
  | ifThen _ _ _ ih => exact .ifThen ih
  | ifElse _ _ _ hclosed _ _ ihbody ihalternative => exact .ifElse hclosed ihbody ihalternative
  | whileLoop _ _ _ ih => exact .whileLoop ih
  | forLoop _ _ _ _ _ _ _ _ ihfirst ihbody => exact .forLoop ihfirst ihbody
  | block _ _ _ ih => exact .block (List.forall_mem_map.2 ih)
  | eval => exact .eval
  | empty => exact .empty

end Grammar

end ImpSyntax
