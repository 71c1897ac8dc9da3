import ImpSyntax.Proofs.FailurePlace
import ImpSyntax.Proofs.Grammar.Vocabulary
import ImpSyntax.Proofs.RoundTrip
import ImpSyntax.Proofs.Tree.Values

/-!
# What reading a source can result in

The tokens of a source are lexemes, which narrows down what the grammar makes of them.  It fails for
want of an operand or of a token of one kind, at a token or at the end (`Failure.OfLexemes`), and
never at the text of a number; so the category of a failure tells whether it comes from the grammar
or from the division of the source.  The programs that are read have no NaN and no number with a
minus in them.

Attempts to read a source are compared by `agree`.  As no NaN is in the way, that is an equivalence
relation on sources, and it is indifferent to the values of the numbers: where the programs are
written in the same way, the values are the same as well.

The main result is `parseSource_outcome`.
-/

namespace ImpSyntax

open Grammar Rule

/-- A failure of the grammar on lexemes. -/
inductive Failure.OfLexemes : Failure → Prop where
  /-- An operand is missing. -/
  | operand (line : Option LineNumber) : OfLexemes ⟨.expectedOperand, line⟩
  /-- A token of one kind is missing before another token, which is on some line. -/
  | token {kind : Kind} (hkind : kind ∈ Kind.required) (found : String) (line : LineNumber) :
      OfLexemes ⟨.unexpected [kind] found, some line⟩
  /-- A token of one kind is missing at the end, where no line is. -/
  | ended {kind : Kind} (hkind : kind ∈ .rightBrace :: Kind.required) :
      OfLexemes ⟨.unexpectedEnd [kind], none⟩

variable {source : String} {tokens : List Token} {failure : Failure} {p q : Program}

/-! ## Failures -/

lemma Failure.OfLexemes.isSyntax (h : failure.OfLexemes) : failure.fault.isSyntax = true := by
  cases h with
  | operand | token | ended => rfl

lemma Failure.ofLexemes_of_parse (hlexemes : HasLexemes tokens)
    (hparse : parse tokens = .error failure) : failure.OfLexemes := by
  obtain ⟨rest, hrun⟩ := parse_eq_error.1 hparse
  have hfault : failure.fault.OfGrammar := failsOnly_program hrun
  obtain ⟨-, hline, hcause⟩ := failed_at_next hlexemes hrun
  obtain ⟨fault, line⟩ := failure
  subst hline
  rcases hcause with rfl | ⟨kind, rfl⟩
  · exact .operand _
  · cases rest with
    | nil =>
      cases hfault with
      | unexpectedEnd hkind => exact .ended hkind
    | cons token rest =>
      cases hfault with
      | unexpected hkind => exact .token hkind _ _

lemma Fault.category_eq_unrecognised {fault : Fault} :
    fault.category = "UnrecognisedToken" ↔ fault.isSyntax = false := by
  unfold category
  cases fault.isSyntax <;> decide

/-- The category of a failure tells which of the two steps has failed. -/
lemma category_eq_unrecognised_iff (h : parseSource source = .error failure) :
    failure.fault.category = "UnrecognisedToken" ↔ tokenize source = .error failure := by
  rw [Fault.category_eq_unrecognised]
  rcases parseSource_eq_error.1 h with htokenize | ⟨tokens, htokenize, hparse⟩
  · have hfault : failure.fault.isSyntax = false := by
      obtain ⟨-, rfl⟩ := tokenize_eq_error.1 htokenize
      rfl
    exact iff_of_true hfault htokenize
  · have hfault := (Failure.ofLexemes_of_parse (lexeme_of_tokenize htokenize) hparse).isSyntax
    refine iff_of_false (by simp [hfault]) ?_
    rw [htokenize]
    simp

/-! ## Values -/

lemma values_of_parseSource (h : parseSource source = .ok p) :
    ∀ value ∈ p.values, value ≠ .nan ∧ value.isNegative = false := by
  intro value hmem
  obtain ⟨text, hlexeme, hvalue⟩ :=
    Program.exists_lexeme (fun s hs => (wellFormed_of_parseSource h s hs).1) value hmem
  exact ⟨numberValue?_ne_nan hlexeme hvalue, numberValue?_not_isNegative hlexeme hvalue⟩

/-! ## Agreement -/

/-- What an attempt to read a program results in, without the values of the numbers. -/
def unvaluedResult (source : String) : Except Failure Program :=
  (parseSource source).map Program.unvalued

/-- Attempts to read two sources agree just if they have the same result up to values. -/
lemma agree_iff_unvaluedResult_eq {other : String} :
    agree (parseSource source) (parseSource other) = true ↔
      unvaluedResult source = unvaluedResult other := by
  unfold unvaluedResult
  cases hsource : parseSource source with
  | error failure =>
    cases hother : parseSource other with
    | error _ => simp [agree, Except.map]
    | ok _ => simp [agree, Except.map]
  | ok p =>
    cases hother : parseSource other with
    | error _ => simp [agree, Except.map]
    | ok q =>
      rw [agree, Program.equal_iff_unvalued_eq
        (fun s hs => (wellFormed_of_parseSource hsource s hs).1)
        (fun s hs => (wellFormed_of_parseSource hother s hs).1)]
      simp [Except.map]

lemma equivalence_agree :
    Equivalence fun source other => agree (parseSource source) (parseSource other) = true := by
  simp only [agree_iff_unvaluedResult_eq]
  exact ⟨fun _ => rfl, Eq.symm, Eq.trans⟩

/-! ## The results of reading a source -/

/-- A source that has tokens and is no program lacks an operand, or a token of one of a few kinds at
a token or at the end.  The category of a failure says whether the source has no tokens.  If it is a
program, no value in it is NaN or has a minus.  Agreement is an equivalence on all sources, and it
is equality up to the values of the numbers. -/
theorem parseSource_outcome :
    (∀ source tokens failure, tokenize source = .ok tokens → parse tokens = .error failure →
      failure.OfLexemes) ∧
    (∀ source failure, parseSource source = .error failure →
      (failure.fault.category = "UnrecognisedToken" ↔ tokenize source = .error failure)) ∧
    (∀ source p, parseSource source = .ok p →
      ∀ value ∈ p.values, value ≠ .nan ∧ value.isNegative = false) ∧
    (Equivalence fun source other => agree (parseSource source) (parseSource other) = true) ∧
    ∀ source other, agree (parseSource source) (parseSource other) = true ↔
      unvaluedResult source = unvaluedResult other :=
  ⟨fun _ _ _ htokenize hparse =>
      Failure.ofLexemes_of_parse (lexeme_of_tokenize htokenize) hparse,
    fun _ _ h => category_eq_unrecognised_iff h, fun _ _ h => values_of_parseSource h,
    equivalence_agree, fun _ _ => agree_iff_unvaluedResult_eq⟩

/-- A block that is not closed, a comment that is not closed, and a program that is spaced in two
ways. -/
theorem parseSource_outcome_samples :
    tokenize "\x7b0;" = .ok [.ofKind .leftBrace 1, ⟨.number, "0", 1⟩, .ofKind .semicolon 1] ∧
      parse [.ofKind .leftBrace 1, ⟨.number, "0", 1⟩, .ofKind .semicolon 1] =
        .error ⟨.unexpectedEnd [.rightBrace], none⟩ ∧
      Failure.OfLexemes ⟨.unexpectedEnd [.rightBrace], none⟩ ∧
      parseSource "0 /*" = .error ⟨.unrecognised "/*", some 1⟩ ∧
      tokenize "0 /*" = .error ⟨.unrecognised "/*", some 1⟩ ∧
      parseSource "0;" = .ok [.eval [.number (.zero false) ⟨.number, "0", 1⟩]] ∧
      (Binary64.zero false ≠ .nan ∧ (Binary64.zero false).isNegative = false) ∧
      agree (parseSource "0;") (parseSource " 0 ;") = true := by
  have htokens : tokenize "\x7b0;" =
      .ok [.ofKind .leftBrace 1, ⟨.number, "0", 1⟩, .ofKind .semicolon 1] := by
    decide +kernel
  have hparse : parse [.ofKind .leftBrace 1, ⟨.number, "0", 1⟩, .ofKind .semicolon 1] =
      .error ⟨.unexpectedEnd [.rightBrace], none⟩ := by
    rfl
  have hcomment : parseSource "0 /*" = .error ⟨.unrecognised "/*", some 1⟩ :=
    parseSource_eq_error.2 (.inl (by decide +kernel))
  have hread : ∀ source, tokenize source = .ok [⟨.number, "0", 1⟩, .ofKind .semicolon 1] →
      parseSource source = .ok [.eval [.number (.zero false) ⟨.number, "0", 1⟩]] :=
    fun source htokenize => parseSource_eq_ok.2 ⟨_, htokenize, rfl⟩
  have hplain := hread "0;" (by decide +kernel)
  have hspaced := hread " 0 ;" (by decide +kernel)
  obtain ⟨hfailure, hcategory, hvalues, -, hagree⟩ := parseSource_outcome
  exact ⟨htokens, hparse, hfailure _ _ _ htokens hparse, hcomment,
    (hcategory _ _ hcomment).1 (by decide), hplain, hvalues _ _ hplain _ List.mem_cons_self,
    (hagree _ _).2 (by rw [unvaluedResult, unvaluedResult, hplain, hspaced])⟩

end ImpSyntax
