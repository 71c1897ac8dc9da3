import ImpSyntax.Proofs.RoundTrip

/-!
# The canonical text of a tree that was never read

A well formed tree need not come from a source.  Its text is read all the same.  An expression is
read as itself, because each operation stands in parentheses of its own.  Statements have no
parentheses, and one in which an alternative dangles is read as another: the one with every
alternative at the nearest conditional (`Stmt.WellFormed.parseSource_text`).  Its text is the same,
token for token, since giving an alternative to another conditional leaves all tokens where they are
(`Stmt.canonical_rebound`).

The main result is `parse_canonical_text`.
-/

namespace ImpSyntax

open Grammar Rule

namespace Stmt

variable {s alternative : Stmt} {line : LineNumber}

/-! ## Statements with another alternative -/

lemma WellFormed.withElse (h : s.WellFormed) (halternative : alternative.WellFormed) :
    (s.withElse alternative).WellFormed := by
  induction h with
  | ifThen hc hbody ih =>
    rw [Stmt.withElse]
    split
    · exact .ifThen hc ih
    · exact .ifElse hc hbody halternative
  | ifElse hc hbody _ _ ih => exact .ifElse hc hbody ih
  | whileLoop hc _ ih => exact .whileLoop hc ih
  | forLoop hfirst hc hne hstep _ _ ih => exact .forLoop hfirst hc hne hstep ih
  | print htarget => exact .print htarget
  | block hbody _ => exact .block hbody
  | eval hne hes => exact .eval hne hes
  | empty => exact .empty

lemma WellFormed.rebound (h : s.WellFormed) : s.rebound.WellFormed := by
  induction h with
  | ifThen hc _ ih => exact .ifThen hc ih
  | ifElse hc _ _ ihbody ihalternative => exact (WellFormed.ifThen hc ihbody).withElse ihalternative
  | whileLoop hc _ ih => exact .whileLoop hc ih
  | forLoop _ hc hne hstep _ ihfirst ihbody => exact .forLoop ihfirst hc hne hstep ihbody
  | block _ ih =>
    rw [Stmt.rebound, reboundAll_eq]
    exact .block (List.forall_mem_map.2 ih)
  | print htarget => exact .print htarget
  | eval hne hes => exact .eval hne hes
  | empty => exact .empty

/-- The tokens of the alternative come after those of the statement. -/
lemma canonical_withElse (h : s.endsOpen = true) :
    (s.withElse alternative).canonical line =
      s.canonical line ++ .ofKind .elseWord line :: alternative.canonical line := by
  induction s using Stmt.induction with
  | ifThen c body ih =>
    rw [withElse]
    split
    · rename_i hopen
      simp [canonical, ih hopen]
    · simp [canonical]
  | ifElse c body other _ ih => simp [withElse, canonical, ih h]
  | whileLoop c body ih => simp [withElse, canonical, ih h]
  | forLoop first c step body _ ih => simp [withElse, canonical, ih h]
  | print | block | eval | empty => exact absurd h (by simp [endsOpen])

lemma canonicalAll_congr {body : List Stmt} {f : Stmt → Stmt}
    (h : ∀ s ∈ body, (f s).canonical line = s.canonical line) :
    canonicalAll line (body.map f) = canonicalAll line body := by
  induction body with
  | nil => rfl
  | cons s body ih =>
    rw [List.forall_mem_cons] at h
    rw [List.map_cons, canonicalAll, canonicalAll, h.1, ih h.2]

/-- The tokens do not show which conditional an alternative belongs to. -/
lemma canonical_rebound (s : Stmt) : s.rebound.canonical line = s.canonical line := by
  induction s using Stmt.induction with
  | ifThen c body ih => rw [rebound, canonical, canonical, ih]
  | ifElse c body alternative ihbody ihalternative =>
    rw [rebound, canonical_withElse rfl, canonical, canonical, ihbody, ihalternative,
      List.cons_append, List.append_assoc]
  | whileLoop c body ih => rw [rebound, canonical, canonical, ih]
  | forLoop first c step body ihfirst ihbody =>
    rw [rebound, canonical, canonical, ihfirst, ihbody]
  | block body ih => rw [rebound, reboundAll_eq, canonical, canonical, canonicalAll_congr ih]
  | print | eval | empty => rfl

/-- A statement that differs in its lines at most from the one with each alternative at the nearest
conditional is that one already. -/
lemma sameButLines_rebound : (s.rebound.relined line).SameButLines s ↔ s.NoneDangles := by
  constructor
  · -- nothing dangles in the rebound statement, and this does not depend on lines
    intro hsame
    have hlines : s.rebound.relined line = s.relined line := by
      rw [← hsame line, relined_relined]
    have hnone : (s.rebound.relined line).NoneDangles := (noneDangles_rebound s).relined
    rw [hlines] at hnone
    exact hnone.of_relined
  · intro hnone other
    rw [hnone.rebound_eq, relined_relined]

/-- The text of a statement is read with each alternative at the nearest conditional. -/
theorem WellFormed.parseSource_text (h : s.WellFormed) :
    parseSource s.render = .ok [s.rebound.relined 1] := by
  have hscans : Scans 1 (s.render.toList ++ []) (s.canonical 1 ++ []) := h.scans (scans_nil 1)
  rw [List.append_nil, List.append_nil] at hscans
  have hderives : DerivesProgram (s.rebound.canonical 1 ++ []) [s.rebound.relined 1] :=
    .cons (h.rebound.derives_canonical (noneDangles_rebound s)) .nil
  rw [List.append_nil, canonical_rebound] at hderives
  exact parseSource_eq_ok.2 ⟨_, tokenize_of_scans hscans, parse_of_derives hderives⟩

end Stmt

/-- The text of an expression is read as the expression. -/
theorem Expr.WellFormed.expression_render {e : Expr} (h : e.WellFormed) :
    tokenize e.render = .ok (e.canonical 1) ∧
      expression (e.canonical 1) = .done (e.relined 1) [] := by
  have hscans : Scans 1 (e.render.toList ++ []) (e.canonical 1 ++ []) :=
    h.scans (by simp [Stops]) (scans_nil 1)
  have hderives : Derives .expression (e.canonical 1) (e.relined 1) :=
    h.derives_canonical.of_primary _
  have hrule := expression_of_derives hderives not_nextIs_nil
  rw [List.append_nil] at hrule
  rw [List.append_nil, List.append_nil] at hscans
  exact ⟨tokenize_of_scans hscans, hrule⟩

/-- The text of a well formed expression is read as the expression, and the text of a well formed
statement as one statement with the same text.  That one is the same but for its lines if and only
if no alternative dangles. -/
theorem parse_canonical_text :
    (∀ e : Expr, e.WellFormed →
      ∃ tokens, tokenize e.render = .ok tokens ∧ expression tokens = .done (e.relined 1) []) ∧
    ∀ s : Stmt, s.WellFormed →
      ∃ t : Stmt, parseSource s.render = .ok [t] ∧ t.render = s.render ∧
        (t.SameButLines s ↔ s.NoneDangles) := by
  refine ⟨fun e he => ⟨_, he.expression_render⟩, fun s hs => ?_⟩
  have htext : (s.rebound.relined 1).render = s.render := by
    rw [Stmt.render_relined, Stmt.render_rebound]
  exact ⟨_, hs.parseSource_text, htext, Stmt.sameButLines_rebound⟩

/-- A sign before a step is read as it is, and an alternative for the outer one of two conditionals
as one for the inner. -/
theorem parse_canonical_text_dangling :
    let x : Expr := .var ⟨.identifier, "x", 1⟩
    let e : Expr := .unary ⟨.minus, "-", 3⟩ (.unary ⟨.increment, "++", 2⟩ x)
    let s : Stmt := .ifElse e (.ifThen x .empty) .empty
    e.WellFormed ∧ s.WellFormed ∧
      (∃ tokens, tokenize e.render = .ok tokens ∧ expression tokens = .done (e.relined 1) []) ∧
      ∃ t : Stmt, parseSource s.render = .ok [t] ∧ t.render = s.render ∧ ¬ t.SameButLines s := by
  intro x e s
  have hlexeme : Lexeme .identifier "x".toList := .word (by decide) (by simp) (by decide)
  have hx : x.WellFormed := .var ⟨rfl, hlexeme⟩
  have hstep : (Expr.unary ⟨.increment, "++", 2⟩ x).WellFormed := .unary (.inr (by decide)) rfl hx
  have he : e.WellFormed := .unary (.inl (by decide)) rfl hstep
  have hs : s.WellFormed := .ifElse he (.ifThen hx .empty) .empty
  have hdangles : ¬ (Stmt.ifElse e (.ifThen x .empty) .empty).NoneDangles := by
    intro hnone
    cases hnone with
    | ifElse hclosed => exact absurd hclosed (by decide)
  obtain ⟨hexpressions, hstatements⟩ := parse_canonical_text
  obtain ⟨t, hread, htext, hsame⟩ := hstatements s hs
  exact ⟨he, hs, hexpressions e he, t, hread, htext, fun h => hdangles (hsame.1 h)⟩

end ImpSyntax
