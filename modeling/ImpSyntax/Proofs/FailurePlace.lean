import ImpSyntax.Proofs.Grammar.ViablePrefix
import ImpSyntax.Proofs.Source.Stuck
import ImpSyntax.Proofs.Tree.WellFormed

/-!
# The place of a failure in the source

A source that is no program fails at a text in it, unless it ends too early.  That text is a
character that starts no element, the opening of a comment that is never closed, or the token that
is next when the grammar fails.  `FailsAt` tells it apart from what is before it and what is after
it in the source.

The failure has the line of that place (`FailsAt.line_eq`), and the text has no blanks and so stays
on that line (`FailsAt.not_blank`).  Wherever a failure has a line there is such a place
(`exists_failsAt`).
-/

namespace ImpSyntax

open Grammar Rule

/-- Reading the source fails at the offending text, which stands between the two others. -/
inductive FailsAt (source : String) (failure : Failure) :
    List Char → List Char → List Char → Prop where
  /-- A character that starts no element. -/
  | character {pieces : List Piece} {c : Char} {after : List Char}
      (htokenize : tokenize source = .error failure)
      (hdivide : divide source.toList = ⟨pieces, c :: after⟩)
      (hcomment : ¬ ['/', '*'] <+: c :: after) :
      FailsAt source failure (pieces.flatMap Piece.text) [c] after
  /-- The opening of a comment that is never closed. -/
  | comment {pieces : List Piece} {after : List Char}
      (htokenize : tokenize source = .error failure)
      (hdivide : divide source.toList = ⟨pieces, '/' :: '*' :: after⟩) :
      FailsAt source failure (pieces.flatMap Piece.text) ['/', '*'] after
  /-- The token that is next when the grammar fails. -/
  | token {front back : List (List Char × Token)} {gap last : List Char} {token : Token}
      (htext : Layout.text ⟨front ++ (gap, token) :: back, last⟩ = source.toList)
      (hfits : Layout.Fits [] ⟨front ++ (gap, token) :: back, last⟩)
      (hrun : program (front.map Prod.snd ++ token :: back.map Prod.snd) =
        .failed failure (token :: back.map Prod.snd)) :
      FailsAt source failure (Layout.text ⟨front, gap⟩) token.text.toList
        (Layout.text ⟨back, last⟩)

variable {source : String} {failure : Failure} {before offending after : List Char}

/-! ## Tokens in their places -/

namespace Layout

variable {passed gap last : List Char} {token : Token} {front parts : List (List Char × Token)}

lemma Fits.of_cons (h : Fits passed ⟨(gap, token) :: parts, last⟩) :
    Lexeme token.kind token.text.toList ∧ token.line.toNat = 1 + (passed ++ gap).count '\n' ∧
      Fits (passed ++ gap ++ token.text.toList) ⟨parts, last⟩ := by
  generalize hlayout : (⟨(gap, token) :: parts, last⟩ : Layout) = layout at h
  cases h with
  | last _ => exact absurd (congrArg Layout.parts hlayout) (by simp)
  | cons _ htoken hline hrest =>
    cases hlayout
    exact ⟨htoken.lexeme, hline, hrest⟩

/-- A token of a layout is a lexeme and has the line of its place. -/
lemma Fits.token_at (h : Fits passed ⟨front ++ (gap, token) :: parts, last⟩) :
    Lexeme token.kind token.text.toList ∧
      token.line.toNat = 1 + (passed ++ text ⟨front, gap⟩).count '\n' := by
  induction front generalizing passed with
  | nil => exact ⟨h.of_cons.1, h.of_cons.2.1⟩
  | cons part front ih =>
    obtain ⟨hlexeme, hline⟩ := ih h.of_cons.2.2
    refine ⟨hlexeme, hline.trans ?_⟩
    simp [text]

lemma Fits.hasLexemes {layout : Layout} (h : Fits passed layout) : HasLexemes layout.tokens := by
  induction h with
  | last _ => exact hasLexemes_nil
  | cons _ htoken _ _ ih => exact hasLexemes_cons.2 ⟨htoken.lexeme, ih⟩

end Layout

/-! ## Failures of the grammar -/

lemma Grammar.HasLexemes.hasValues {tokens : List Token} (h : HasLexemes tokens) :
    HasValues tokens := by
  intro token hmem hkind
  obtain ⟨d, -, hd⟩ := numberValue?_of_lexeme (hkind ▸ h token hmem)
  rw [hd]
  rfl

/-- The grammar fails at the next of the tokens it leaves.  It does not fail at a number. -/
lemma failed_at_next {tokens rest : List Token} (hlexemes : HasLexemes tokens)
    (hrun : program tokens = .failed failure rest) :
    (∃ us, tokens = us ++ rest) ∧ failure.line = nextLine? rest ∧
      (failure.fault = .expectedOperand ∨ ∃ kind, failure.fault = mismatch [kind] rest) := by
  obtain ⟨us, ahead, rfl, hblames⟩ := explains_program hrun
  cases hblames with
  | missing => exact ⟨⟨us, rfl⟩, rfl, .inr ⟨_, rfl⟩⟩
  | operand => exact ⟨⟨us, rfl⟩, rfl, .inl rfl⟩
  | malformed hahead hkind hvalue =>
    have hsome := hlexemes.hasValues _ (by rw [hahead]; simp) hkind
    rw [hvalue] at hsome
    exact absurd hsome (by simp)

/-! ## The offending text -/

lemma FailsAt.text_eq (h : FailsAt source failure before offending after) :
    source.toList = before ++ (offending ++ after) := by
  cases h with
  | character _ hdivide _ => exact eq_of_divide hdivide
  | comment _ hdivide => exact eq_of_divide hdivide
  | token htext _ _ =>
    rw [← htext]
    simp [Layout.text]

lemma FailsAt.not_blank (h : FailsAt source failure before offending after) :
    offending ≠ [] ∧ ∀ c ∈ offending, Text.isBlank c = false := by
  cases h with
  | character _ hdivide _ =>
    have hblank := not_blank_of_stuck (congrArg Division.stuck hdivide)
    simpa using hblank
  | comment _ _ =>
    have hslash : Text.isBlank '/' = false := by decide
    have hstar : Text.isBlank '*' = false := by decide
    simp [hslash, hstar]
  | token _ hfits _ =>
    obtain ⟨c, s, htext, -⟩ := hfits.token_at.1.cases_head
    exact ⟨by simp [htext], hfits.token_at.1.not_blank⟩

/-- A failure has the line of its place. -/
lemma FailsAt.line_eq (h : FailsAt source failure before offending after)
    (hbreaks : source.toList.count '\n' < UInt32.size - 1) :
    ∃ line : LineNumber, failure.line = some line ∧ line.toNat = 1 + before.count '\n' := by
  have hbefore : before.count '\n' < UInt32.size - 1 := by
    rw [h.text_eq, List.count_append] at hbreaks
    omega
  cases h with
  | character htokenize hdivide _ =>
    exact ⟨_, line_of_tokenize htokenize hdivide, toNat_lineAt hbefore⟩
  | comment htokenize hdivide =>
    exact ⟨_, line_of_tokenize htokenize hdivide, toNat_lineAt hbefore⟩
  | @token front back gap last token _ hfits hrun =>
    have hlexemes : HasLexemes (front.map Prod.snd ++ token :: back.map Prod.snd) := by
      simpa [Layout.tokens] using hfits.hasLexemes
    exact ⟨token.line, (failed_at_next hlexemes hrun).2.1, by simpa using hfits.token_at.2⟩

/-! ## Every failure of a source -/

lemma parseSource_eq_error : parseSource source = .error failure ↔
    tokenize source = .error failure ∨
      ∃ tokens, tokenize source = .ok tokens ∧ parse tokens = .error failure := by
  unfold parseSource
  cases tokenize source with
  | error _ => simp [bind, Except.bind]
  | ok tokens => simp [bind, Except.bind]

lemma failsAt_of_tokenize (h : tokenize source = .error failure) :
    ∃ before offending after, FailsAt source failure before offending after := by
  have hstuck := (tokenize_eq_error.1 h).1
  cases hdivide : divide source.toList with
  | mk pieces stuck =>
    rw [hdivide] at hstuck
    obtain ⟨c, after, rfl⟩ := List.exists_cons_of_ne_nil hstuck
    by_cases hcomment : ['/', '*'] <+: c :: after
    · obtain ⟨after, hafter⟩ := hcomment
      rw [← hafter] at hdivide
      exact ⟨_, _, _, .comment h hdivide⟩
    · exact ⟨_, _, _, .character h hdivide hcomment⟩

lemma failsAt_of_parse {tokens : List Token} {line : LineNumber}
    (hbreaks : source.toList.count '\n' < UInt32.size - 1)
    (htokenize : tokenize source = .ok tokens) (hparse : parse tokens = .error failure)
    (hline : failure.line = some line) :
    ∃ before offending after, FailsAt source failure before offending after := by
  obtain ⟨⟨parts, last⟩, htext, hfits, rfl⟩ := exists_layout hbreaks htokenize
  obtain ⟨rest, hrun⟩ := parse_eq_error.1 hparse
  obtain ⟨⟨us, hsplit⟩, hnext, -⟩ := failed_at_next hfits.hasLexemes hrun
  -- at the end of the tokens the failure would have no line
  cases rest with
  | nil =>
    rw [hline] at hnext
    exact absurd hnext (by simp [nextLine?])
  | cons token others =>
    obtain ⟨front, rest, rfl, rfl, hrest⟩ := List.map_eq_append_iff.1 hsplit
    obtain ⟨⟨gap, token⟩, back, rfl, rfl, rfl⟩ := List.map_eq_cons_iff.1 hrest
    rw [hsplit] at hrun
    exact ⟨_, _, _, .token htext hfits hrun⟩

/-- A failure that has a line is at some place of the source. -/
theorem exists_failsAt {line : LineNumber} (hbreaks : source.toList.count '\n' < UInt32.size - 1)
    (h : parseSource source = .error failure) (hline : failure.line = some line) :
    ∃ before offending after, FailsAt source failure before offending after := by
  rcases parseSource_eq_error.1 h with htokenize | ⟨tokens, htokenize, hparse⟩
  · exact failsAt_of_tokenize htokenize
  · exact failsAt_of_parse hbreaks htokenize hparse hline

end ImpSyntax
