import ImpSyntax.Proofs.Cursor.Place
import ImpSyntax.Proofs.Grammar.Production

/-!
# No token is lost

From wherever a rule is used, what it reads has the tokens that the cursor has moved past, in their
order and each of them once.  Only punctuation and reserved words are left out, as the shape of the
tree stands for them.  This is what soundness says of the tokens consumed, brought to positions in a
list (`Reads.storesTokens`), and the way back is open too (`StoresTokens.reads`), which runs of
operations need of their operands.

The main result is `tokens_stored`.
-/

namespace ImpSyntax

open Grammar Rule

namespace Rule

variable {α : Type} {rule : Rule α} {tokens : α → List Token}

/-- What the rule reads has the tokens from the place where it is used to the place that it leaves,
without punctuation and reserved words. -/
def StoresTokens (rule : Rule α) (tokens : α → List Token) : Prop :=
  ∀ (cursor next : Cursor) (a : α), cursor.apply rule = (.ok a, next) →
    tokens a = kept (cursor.tokens.extract cursor.position next.position)

lemma Reads.storesTokens (h : Reads rule fun us a => tokens a = kept us) :
    StoresTokens rule tokens := by
  intro cursor next a happly
  obtain ⟨rest, hrun, rfl⟩ := Cursor.apply_eq_ok.1 happly
  obtain ⟨us, hahead, hus⟩ := h hrun
  rw [Cursor.extract_moveTo hahead, hus]

/-- The tokens that a rule consumes are those that a cursor at their beginning moves past. -/
lemma StoresTokens.reads (hrule : Composed rule) (h : StoresTokens rule tokens) :
    Reads rule fun us a => tokens a = kept us := by
  intro ts a rest hrun
  have happly : (Cursor.start ts).apply rule = (.ok a, (Cursor.start ts).moveTo rest) :=
    Cursor.apply_eq_ok.2 ⟨rest, hrun, rfl⟩
  obtain ⟨us, hus⟩ := hrule.leavesSuffix ts
  rw [hrun, Outcome.rest_done] at hus
  have hahead : (Cursor.start ts).ahead = us ++ rest := hus.symm
  have htokens : tokens a = kept us := by
    rw [h _ _ a happly, Cursor.extract_moveTo hahead]
  exact ⟨us, hus.symm, htokens⟩

end Rule

namespace Grammar

/-- Operands that are read with all their tokens make runs of operations of that kind, if the trees
keep the operators. -/
lemma storesTokens_leftRun {kinds : List Kind} {operand : Rule Expr}
    (hkinds : ∀ kind ∈ kinds, kind.isKept = true) (hcomposed : Composed operand)
    (hoperand : StoresTokens operand Expr.tokens) :
    StoresTokens (leftRun kinds operand) Expr.tokens := by
  refine Reads.storesTokens (reads_leftRun hcomposed (hoperand.reads hcomposed) id ?_)
  intro us vs operator left right hleft hoperator hright
  rw [Expr.tokens, hleft, hright, kept_append, kept_cons_of_isKept (hkinds _ hoperator)]

/-- No token is lost, doubled or moved.  Whatever a rule of the grammar reads from some place on has
exactly the tokens from there to the place it leaves, in the order of the source, apart from
punctuation and reserved words.

Besides the productions there are two rules that are used inside others only, for conditions and for
statements without an opening token, and the runs of operations, which take the rule for their
operands and are the levels of precedence. -/
theorem tokens_stored :
    (∀ production : Production, StoresTokens production.rule Phrase.tokens) ∧
      StoresTokens condition Expr.tokens ∧ StoresTokens simple Stmt.tokens ∧
      ∀ (kinds : List Kind) (operand : Rule Expr), (∀ kind ∈ kinds, kind.isKept = true) →
        Composed operand → StoresTokens operand Expr.tokens →
          StoresTokens (leftRun kinds operand) Expr.tokens := by
  refine ⟨fun production => production.reads.storesTokens, ?_, ?_, ?_⟩
  · exact (reads_condition.mono fun _ _ hc => hc.tokens_eq).storesTokens
  · exact (reads_simple.mono fun _ _ hs => hs.tokens_eq).storesTokens
  · exact fun _ _ => storesTokens_leftRun

/-- A loop that is read from its parenthesis on.  Its tokens come in the order of the
header, with the sign before its operand and the step after it, and the body is last.  Sums and
differences of primaries. -/
theorem tokens_stored_loop :
    let i : Token := ⟨.identifier, "i", 1⟩
    let cursor : Cursor := ⟨[.ofKind .forWord 1, .ofKind .leftParen 1, i, .ofKind .assign 1,
      ⟨.number, "0", 1⟩, .ofKind .semicolon 1, .ofKind .minus 1, i, .ofKind .semicolon 1, i,
      .ofKind .increment 1, .ofKind .rightParen 1, .ofKind .printWord 2, ⟨.identifier, "i", 2⟩,
      .ofKind .semicolon 2], 1⟩
    (∃ phrase, cursor.apply Production.forRest.rule = (.ok phrase, cursor.forward 14) ∧
      phrase.tokens = [i, .ofKind .assign 1, ⟨.number, "0", 1⟩, .ofKind .minus 1, i, i,
        .ofKind .increment 1, ⟨.identifier, "i", 2⟩]) ∧
      (∀ kind ∈ [Kind.plus, .minus], kind.isKept = true) ∧ Composed primary ∧
      StoresTokens primary Expr.tokens ∧
      StoresTokens (leftRun [.plus, .minus] primary) Expr.tokens := by
  intro i cursor
  have hkinds : ∀ kind ∈ [Kind.plus, .minus], kind.isKept = true := by decide
  have hprimary : StoresTokens primary Expr.tokens :=
    (reads_primary.mono fun _ _ he => he.tokens_eq).storesTokens
  have hread : ∃ phrase, cursor.apply Production.forRest.rule = (.ok phrase, cursor.forward 14) :=
    ⟨_, rfl⟩
  obtain ⟨phrase, hphrase⟩ := hread
  exact ⟨⟨phrase, hphrase, tokens_stored.1 .forRest cursor _ phrase hphrase⟩,
    hkinds, composed_primary, hprimary,
    tokens_stored.2.2.2 _ primary hkinds composed_primary hprimary⟩

end Grammar

end ImpSyntax
