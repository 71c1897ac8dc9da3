import ImpSyntax.Proofs.Cursor.Place
import ImpSyntax.Proofs.Grammar.Exactness
import ImpSyntax.Proofs.Grammar.Production

/-!
# One token of lookahead

What comes of a production depends on the tokens that it consumes and on the next one, and on nothing
else: not on what the cursor has passed before, nor on where in the list it stands, nor on what comes
later.  Two cursors with the same tokens up to there get the same answer and move equally far
(`Cursor.apply_congr`).

The tokens are compared at their positions, and past the end there is none.  So the two cursors may
be at the end of their lists together, but one of them may not if the other is not.  Only of a
failure that has a line more can be said, since adding tokens after the last one does not change it.

The main result is `one_token_of_lookahead`.
-/

namespace ImpSyntax

open Grammar Rule

/-- A list that goes along with another one for a while begins with the same members, and the next
member is the same as well. -/
lemma exists_append_of_getElem? {α : Type} {us rest vs : List α}
    (h : ∀ j ≤ us.length, vs[j]? = (us ++ rest)[j]?) :
    ∃ other, vs = us ++ other ∧ rest.head? = other.head? := by
  induction us generalizing vs with
  | nil =>
    refine ⟨vs, rfl, ?_⟩
    rw [List.head?_eq_getElem?, List.head?_eq_getElem?]
    exact (h 0 (Nat.le_refl 0)).symm
  | cons u us ih =>
    have hfirst : vs[0]? = some u := h 0 (Nat.zero_le _)
    obtain ⟨vs, rfl⟩ : ∃ others, vs = u :: others := by
      cases vs with
      | nil => exact absurd hfirst (by simp)
      | cons v others => exact ⟨others, by simpa using hfirst⟩
    obtain ⟨other, rfl, hhead⟩ := ih fun j hj => by
      simpa using h (j + 1) (Nat.succ_le_succ hj)
    exact ⟨other, rfl, hhead⟩

namespace Cursor

variable {α : Type} {cursor other next : Cursor} {rule : Rule α}

/-- The outcome of a rule depends on the tokens up to the next one when it is done. -/
theorem apply_congr (hrule : Composed rule) (hcursor : cursor.InBounds) (hother : other.InBounds)
    {result : Except Failure α} (happly : cursor.apply rule = (result, next))
    (hsame : ∀ j, cursor.position + j ≤ next.position →
      other.tokens[other.position + j]? = cursor.tokens[cursor.position + j]?) :
    other.apply rule = (result, other.forward (next.position - cursor.position)) := by
  obtain ⟨us, hahead, hforward⟩ := apply_eq_forward hrule hcursor
  rw [hforward] at happly
  injection happly with hresult hnext
  subst hresult hnext
  rw [position_forward, Nat.add_sub_cancel_left]
  obtain ⟨others, hothers, hhead⟩ : ∃ others, other.ahead = us ++ others ∧
      (rule cursor.ahead).rest.head? = others.head? := by
    refine exists_append_of_getElem? fun j hj => ?_
    rw [← hahead, getElem?_ahead, getElem?_ahead]
    exact hsame j (Nat.add_le_add_left hj _)
  have hrun : rule other.ahead = (rule cursor.ahead).withRest others := by
    have hlooks := hrule.looksAhead us (rule cursor.ahead).rest others
    rw [← hahead, ← hothers] at hlooks
    exact hlooks rfl hhead
  rw [apply, hrun, ← moveTo_eq_forward hother hothers]
  cases rule cursor.ahead <;> rfl

/-- A production answers by the tokens up to the next one when it is done. -/
lemma act_read_congr {production : Production} {answer : Answer} (hcursor : cursor.InBounds)
    (hother : other.InBounds) (hact : cursor.act (.read production) = (answer, next))
    (hsame : ∀ j, cursor.position + j ≤ next.position →
      other.tokens[other.position + j]? = cursor.tokens[cursor.position + j]?) :
    other.act (.read production) = (answer, other.forward (next.position - cursor.position)) := by
  rw [act, answer_eq] at hact ⊢
  injection hact with hanswer hnext
  have happly : cursor.apply production.rule = ((cursor.apply production.rule).1, next) := by
    rw [← hnext]
  rw [apply_congr production.composed hcursor hother happly hsame, hanswer]

end Cursor

lemma parse_append_of_line {tokens : List Token} {failure : Failure}
    (h : parse tokens = .error failure) (hline : failure.line ≠ none) (more : List Token) :
    parse (tokens ++ more) = .error failure := by
  obtain ⟨rest, hrun⟩ := parse_eq_error.1 h
  exact parse_eq_error.2 ⟨rest ++ more, composed_program.failsForGood hrun hline more⟩

/-- A production used at two places gives the same answer and moves equally far, if the tokens from
these places on are the same up to the one that is next when the production is done, or there is no
next one at either place.  The answer is the whole tree, or the failure with its line.

A program that fails at some line fails in the same way whatever is added to it. -/
theorem one_token_of_lookahead :
    (∀ (production : Production) (cursor other next : Cursor) (answer : Answer),
      cursor.InBounds → other.InBounds → cursor.act (.read production) = (answer, next) →
      (∀ j, cursor.position + j ≤ next.position →
        other.tokens[other.position + j]? = cursor.tokens[cursor.position + j]?) →
      other.act (.read production) =
        (answer, other.forward (next.position - cursor.position))) ∧
    ∀ (tokens more : List Token) (failure : Failure), parse tokens = .error failure →
      failure.line ≠ none → parse (tokens ++ more) = .error failure :=
  ⟨fun _ _ _ _ _ hcursor hother hact hsame => Cursor.act_read_congr hcursor hother hact hsame,
    fun _ more _ h hline => parse_append_of_line h hline more⟩

/-- A sum in front of a parenthesis, at the beginning of a list and elsewhere in another one.  A
malformed number, which is the last token or is not. -/
theorem one_token_of_lookahead_sum :
    let x : Token := ⟨.identifier, "x", 1⟩
    let y : Token := ⟨.identifier, "y", 1⟩
    let plus : Token := .ofKind .plus 1
    let right : Token := .ofKind .rightParen 2
    let cursor : Cursor := ⟨[x, plus, y, right, y], 0⟩
    let other : Cursor := ⟨[.ofKind .printWord 7, x, plus, y, right], 1⟩
    let sum : Answer := .phrase (.expression (.binary plus (.var x) (.var y)))
    let malformed : Token := ⟨.number, "one", 4⟩
    let failure : Failure := ⟨.malformedNumber "one", some 4⟩
    cursor.InBounds ∧ other.InBounds ∧
      cursor.act (.read .expression) = (sum, cursor.forward 3) ∧
      (∀ j, cursor.position + j ≤ 3 →
        other.tokens[other.position + j]? = cursor.tokens[cursor.position + j]?) ∧
      other.act (.read .expression) = (sum, other.forward 3) ∧
      parse [malformed] = .error failure ∧ failure.line ≠ none ∧
      parse [malformed, .ofKind .semicolon 4] = .error failure := by
  intro x y plus right cursor other sum malformed failure
  have hcursor : cursor.InBounds := by decide
  have hother : other.InBounds := by decide
  have hact : cursor.act (.read .expression) = (sum, cursor.forward 3) := rfl
  have hsame : ∀ j, cursor.position + j ≤ 3 →
      other.tokens[other.position + j]? = cursor.tokens[cursor.position + j]? := by
    have hall : ∀ j < 4, other.tokens[1 + j]? = cursor.tokens[0 + j]? := by decide
    intro j hj
    have hlt : 0 + j < 4 := Nat.lt_succ_of_le hj
    exact hall j (by omega)
  have hparse : parse [⟨.number, "one", 4⟩] = .error ⟨.malformedNumber "one", some 4⟩ := by rfl
  have hline : failure.line ≠ none := by decide
  exact ⟨hcursor, hother, hact, hsame,
    one_token_of_lookahead.1 .expression cursor other _ sum hcursor hother hact hsame,
    hparse, hline, one_token_of_lookahead.2 _ [.ofKind .semicolon 4] failure hparse hline⟩

end ImpSyntax
