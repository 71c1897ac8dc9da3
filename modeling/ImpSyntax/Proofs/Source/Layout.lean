import ImpSyntax.Proofs.Source.Pattern
import ImpSyntax.Source.Tokenize
import Mathlib.Data.Set.Subsingleton

/-!
# Layouts

A `Layout` takes a source apart into tokens, each with the gap before it, and a gap at the end.  It
is a layout of the source if everything fits in its place (`Layout.Fits`): gaps are gaps, each token
is the next lexeme, and its line counts the line feeds before it.

`divide` cuts a source into pieces, among which a gap may fall into several, one for each run of
blanks and each comment.  `Layout.ofPieces` joins them again.  So two divisions of different
fineness are compared: `fits_ofPieces` says that what comes out of `divide` is a layout, and
`laid_of_fits` that every layout comes out of it.  The second one goes through a gap part by part
and has to know that a blank in front of a source does not change the layout behind it
(`laid_gapPart`).

The main result is `tokenize_exact`.
-/

namespace ImpSyntax

open Element

/-- Tokens, each with the gap before it, and the gap behind the last one. -/
structure Layout where
  parts : List (List Char × Token)
  last : List Char
deriving DecidableEq, Repr

namespace Layout

/-- The text that is laid out. -/
def text (layout : Layout) : List Char :=
  layout.parts.flatMap (fun part => part.1 ++ part.2.text.toList) ++ layout.last

/-- The tokens without the gaps. -/
def tokens (layout : Layout) : List Token :=
  layout.parts.map Prod.snd

/-- Put a token with a gap before it in front of a layout. -/
def cons (gap : List Char) (token : Token) (layout : Layout) : Layout :=
  ⟨(gap, token) :: layout.parts, layout.last⟩

/-- Everything is in its place, where `passed` is the text before. -/
inductive Fits : List Char → Layout → Prop where
  | last {passed gap : List Char} (hgap : Gap gap []) : Fits passed ⟨[], gap⟩
  | cons {passed gap : List Char} {token : Token} {layout : Layout}
      (hgap : Gap gap (token.text.toList ++ layout.text))
      (htoken : NextLexeme token.kind token.text.toList layout.text)
      (hline : token.line.toNat = 1 + (passed ++ gap).count '\n')
      (hrest : Fits (passed ++ gap ++ token.text.toList) layout) :
      Fits passed (cons gap token layout)

/-- Put a gap in front of a layout.  It joins the gap that comes first. -/
def prependGap (gap : List Char) : Layout → Layout
  | ⟨[], last⟩ => ⟨[], gap ++ last⟩
  | ⟨(first, token) :: parts, last⟩ => ⟨(gap ++ first, token) :: parts, last⟩

/-- The layout that pieces make, of which the first starts on the given line. -/
def ofPieces (line : LineNumber) : List Piece → Layout
  | [] => ⟨[], []⟩
  | piece :: pieces =>
    let after := ofPieces (line + Text.lineBreaks piece.text) pieces
    match piece.role with
    | .gap => after.prependGap piece.text
    | .lexeme kind => after.cons [] ⟨kind, String.ofList piece.text, line⟩

section Basic

variable {layout : Layout} {gap other : List Char} {token : Token}

lemma text_cons : (layout.cons gap token).text = gap ++ (token.text.toList ++ layout.text) := by
  simp [text, cons]

lemma text_prependGap : (layout.prependGap gap).text = gap ++ layout.text := by
  obtain ⟨parts, last⟩ := layout
  cases parts with
  | nil => rfl
  | cons part parts => simp [text, prependGap]

lemma tokens_prependGap : (layout.prependGap gap).tokens = layout.tokens := by
  obtain ⟨parts, last⟩ := layout
  cases parts <;> rfl

lemma prependGap_cons :
    (layout.cons other token).prependGap gap = layout.cons (gap ++ other) token := rfl

lemma prependGap_nil : layout.prependGap [] = layout := by
  obtain ⟨parts, last⟩ := layout
  cases parts <;> rfl

lemma prependGap_append :
    layout.prependGap (gap ++ other) = (layout.prependGap other).prependGap gap := by
  obtain ⟨parts, last⟩ := layout
  cases parts <;> simp [prependGap]

lemma tokens_ofPieces (line : LineNumber) (pieces : List Piece) :
    (ofPieces line pieces).tokens = Piece.tokens line pieces := by
  induction pieces generalizing line with
  | nil => rfl
  | cons piece pieces ih =>
    rw [ofPieces, Piece.tokens]
    cases piece.role with
    | gap => exact tokens_prependGap.trans (ih _)
    | lexeme kind => exact congrArg (_ :: ·) (ih _)

/-- A gap in front of a layout fits if it ends where the layout begins. -/
lemma Fits.prependGap {passed : List Char} (h : Fits (passed ++ gap) layout)
    (hgap : Gap gap layout.text) : Fits passed (layout.prependGap gap) := by
  cases h with
  | last hlast => exact .last (Gap.trans (by simpa [text] using hgap) hlast)
  | cons hfirst htoken hline hrest =>
    rw [prependGap_cons]
    rw [text_cons] at hgap
    rw [List.append_assoc] at hline
    exact .cons (hgap.trans hfirst) htoken hline (by simpa using hrest)

end Basic

end Layout

/-! ## Divisions -/

section Division

variable {c : Char} {t after : List Char} {role : Role}

lemma divide_cons (h : front? c (t ++ after) = some (role, t.length)) :
    divide (c :: (t ++ after)) = .cons ⟨role, c :: t⟩ (divide after) := by
  rw [divide, h]
  simp

lemma divide_stuck {s : List Char} (h : front? c s = none) :
    divide (c :: s) = ⟨[], c :: s⟩ := by
  rw [divide, h]

end Division

/-- An induction along the division of a source, which is at its end, is stuck, or goes on behind a
gap or a lexeme. -/
@[elab_as_elim]
theorem divide_induction {P : List Char → Division → Prop} (nil : P [] ⟨[], []⟩)
    (stuck : ∀ c s, front? c s = none → P (c :: s) ⟨[], c :: s⟩)
    (gap : ∀ c t after, Gap (c :: t) after → P after (divide after) →
      P (c :: t ++ after) (.cons ⟨.gap, c :: t⟩ (divide after)))
    (lexeme : ∀ kind c t after, NextLexeme kind (c :: t) after → P after (divide after) →
      P (c :: t ++ after) (.cons ⟨.lexeme kind, c :: t⟩ (divide after)))
    (s : List Char) : P s (divide s) := by
  induction hn : s.length using Nat.strongRecOn generalizing s with
  | _ n ih =>
    cases s with
    | nil =>
      rw [divide]
      exact nil
    | cons c s =>
      cases hfront : front? c s with
      | none =>
        rw [divide_stuck hfront]
        exact stuck c s hfront
      | some found =>
        obtain ⟨role, more⟩ := found
        have hshort : ∀ t after : List Char, s = t ++ after → P after (divide after) := by
          rintro t after rfl
          refine ih _ ?_ after rfl
          simp only [List.length_cons, List.length_append] at hn
          omega
        cases role with
        | gap =>
          obtain ⟨t, after, rfl, rfl, hgap⟩ := gap_of_gap? (gap?_of_front? hfront)
          rw [divide_cons hfront]
          exact gap c t after hgap (hshort t after rfl)
        | lexeme kind =>
          obtain ⟨t, after, rfl, rfl, hnext⟩ := nextLexeme_of_front? hfront
          rw [divide_cons hfront]
          exact lexeme kind c t after hnext (hshort t after rfl)

/-- The number of the line that is reached after some text. -/
def lineAt (passed : List Char) : LineNumber :=
  UInt32.ofNat (1 + passed.count '\n')

lemma lineAt_add_lineBreaks (passed text : List Char) :
    lineAt passed + Text.lineBreaks text = lineAt (passed ++ text) := by
  rw [lineAt, lineAt, Text.lineBreaks, List.count_append, ← Nat.add_assoc]
  exact (UInt32.ofNat_add _ _).symm

lemma toNat_lineAt {passed : List Char} (h : passed.count '\n' < UInt32.size - 1) :
    (lineAt passed).toNat = 1 + passed.count '\n' := by
  rw [lineAt, UInt32.toNat_ofNat_of_lt']
  omega

/-- The line feeds of a text are blanks, so a lexeme has none. -/
lemma Lexeme.lineBreaks_eq {kind : Kind} {text : List Char} (h : Lexeme kind text) :
    text.count '\n' = 0 := by
  refine List.count_eq_zero.2 fun hmem => ?_
  exact absurd (h.not_blank _ hmem) (by decide)

open Layout

/-- What comes out of a division that does not get stuck is a layout. -/
lemma fits_ofPieces (passed s : List Char) (hlines : (passed ++ s).count '\n' < UInt32.size - 1)
    (h : (divide s).stuck = []) :
    (ofPieces (lineAt passed) (divide s).pieces).text = s ∧
      Fits passed (ofPieces (lineAt passed) (divide s).pieces) := by
  induction s using divide_induction generalizing passed with
  | nil => exact ⟨rfl, .last .nil⟩
  | stuck c s => exact absurd h (by simp)
  | gap c t after hgap ih =>
    rw [← List.append_assoc] at hlines
    obtain ⟨htext, hfits⟩ := ih (passed ++ c :: t) hlines h
    have hpieces : ofPieces (lineAt passed) (Division.cons ⟨.gap, c :: t⟩ (divide after)).pieces =
        (ofPieces (lineAt (passed ++ c :: t)) (divide after).pieces).prependGap (c :: t) := by
      rw [← lineAt_add_lineBreaks]
      rfl
    rw [hpieces, text_prependGap, htext]
    exact ⟨rfl, hfits.prependGap (by rwa [htext])⟩
  | lexeme kind c t after hnext ih =>
    have hpassed : passed.count '\n' < UInt32.size - 1 := by
      rw [List.count_append] at hlines
      omega
    rw [← List.append_assoc] at hlines
    obtain ⟨htext, hfits⟩ := ih (passed ++ c :: t) hlines h
    have hpieces : ofPieces (lineAt passed)
          (Division.cons ⟨.lexeme kind, c :: t⟩ (divide after)).pieces =
        (ofPieces (lineAt (passed ++ c :: t)) (divide after).pieces).cons []
          ⟨kind, String.ofList (c :: t), lineAt passed⟩ := by
      rw [← lineAt_add_lineBreaks]
      rfl
    rw [hpieces, text_cons, htext]
    refine ⟨by simp, .cons .nil ?_ ?_ ?_⟩
    · simpa [htext] using hnext
    · rw [List.append_nil]
      exact toNat_lineAt hpassed
    · simpa using hfits

/-! ## Behind an element -/

lemma lineBreaks_append (line : LineNumber) (s t : List Char) :
    line + Text.lineBreaks (s ++ t) = line + Text.lineBreaks s + Text.lineBreaks t := by
  rw [Text.lineBreaks, Text.lineBreaks, Text.lineBreaks, List.count_append, UInt32.ofNat_add,
    UInt32.add_assoc]

section Behind

variable (line : LineNumber) {after : List Char}

lemma divide_of_gap? {c : Char} {t : List Char} (hgap : gap? c (t ++ after) = some t.length) :
    (divide (c :: t ++ after)).stuck = (divide after).stuck ∧
      ofPieces line (divide (c :: t ++ after)).pieces =
        (ofPieces (line + Text.lineBreaks (c :: t)) (divide after).pieces).prependGap (c :: t) := by
  rw [List.cons_append, divide_cons (front?_of_gap? hgap)]
  exact ⟨rfl, rfl⟩

/-- A blank in front of a source joins the blanks that come next. -/
lemma divide_blank {c : Char} (hc : Text.isBlank c = true) :
    (divide (c :: after)).stuck = (divide after).stuck ∧
      ofPieces line (divide (c :: after)).pieces =
        (ofPieces (line + Text.lineBreaks [c]) (divide after).pieces).prependGap [c] := by
  obtain ⟨t, rest, rfl, ht, hrest⟩ := exists_run Text.isBlank after
  have hrun : gap? c (t ++ rest) = some t.length := by rw [gap?_blank hc, runLength_run ht hrest]
  cases t with
  | nil => exact divide_of_gap? line (t := []) hrun
  | cons d t =>
    have hd : Text.isBlank d = true := ht d List.mem_cons_self
    have hblanks : gap? d (t ++ rest) = some t.length := by
      rw [gap?_blank hd, runLength_run (fun b hb => ht b (List.mem_cons_of_mem d hb)) hrest]
    -- the pieces of the source behind the blank begin with all other blanks
    obtain ⟨hstuck, hpieces⟩ := divide_of_gap? line hrun
    obtain ⟨hbehind, hrestPieces⟩ := divide_of_gap? (line + Text.lineBreaks [c]) hblanks
    refine ⟨hstuck.trans hbehind.symm, ?_⟩
    rw [hrestPieces, ← prependGap_append, ← lineBreaks_append]
    exact hpieces

/-- A part of a gap adds nothing to a division but itself. -/
lemma divide_gapPart {part : List Char} (hpart : GapPart part after) :
    (divide (part ++ after)).stuck = (divide after).stuck ∧
      ofPieces line (divide (part ++ after)).pieces =
        (ofPieces (line + Text.lineBreaks part) (divide after).pieces).prependGap part := by
  rcases hpart.cases_front with ⟨c, rfl, hc⟩ | ⟨t, rfl, hgap⟩
  · exact divide_blank line hc
  · exact divide_of_gap? line hgap

/-- A lexeme adds its token to a division. -/
lemma divide_lexeme {kind : Kind} {text : List Char} (hnext : NextLexeme kind text after) :
    (divide (text ++ after)).stuck = (divide after).stuck ∧
      ofPieces line (divide (text ++ after)).pieces =
        (ofPieces line (divide after).pieces).cons [] ⟨kind, String.ofList text, line⟩ := by
  obtain ⟨c, t, rfl, -⟩ := hnext.lexeme.cases_head
  have hbreaks : line + Text.lineBreaks (c :: t) = line := by
    rw [Text.lineBreaks, hnext.lexeme.lineBreaks_eq]
    simp
  rw [List.cons_append, divide_cons hnext.front?]
  refine ⟨rfl, ?_⟩
  show (ofPieces (line + Text.lineBreaks (c :: t)) _).cons [] _ = _
  rw [hbreaks]

end Behind

/-! ## Layouts come out of divisions -/

/-- The source is divided completely, into pieces that make the layout. -/
def Laid (line : LineNumber) (s : List Char) (layout : Layout) : Prop :=
  (divide s).stuck = [] ∧ ofPieces line (divide s).pieces = layout

lemma laid_nil (line : LineNumber) : Laid line [] ⟨[], []⟩ := by
  rw [Laid, divide]
  exact ⟨rfl, rfl⟩

section Laid

variable {line : LineNumber} {after : List Char} {layout : Layout}

lemma laid_gapPart {part : List Char} (hpart : GapPart part after)
    (h : Laid (line + Text.lineBreaks part) after layout) :
    Laid line (part ++ after) (layout.prependGap part) := by
  obtain ⟨hstuck, hpieces⟩ := divide_gapPart line hpart
  obtain ⟨hdone, rfl⟩ := h
  exact ⟨hstuck.trans hdone, hpieces⟩

lemma laid_blank {c : Char} (hc : Text.isBlank c = true)
    (h : Laid (line + Text.lineBreaks [c]) after layout) :
    Laid line (c :: after) (layout.prependGap [c]) :=
  laid_gapPart (.blank hc) h

lemma laid_gap {gap : List Char} (hgap : Gap gap after)
    (h : Laid (line + Text.lineBreaks gap) after layout) :
    Laid line (gap ++ after) (layout.prependGap gap) := by
  induction hgap generalizing line with
  | nil =>
    rw [prependGap_nil]
    simpa [Text.lineBreaks] using h
  | @append part gap after hpart _ ih =>
    rw [lineBreaks_append] at h
    rw [prependGap_append, List.append_assoc]
    exact laid_gapPart hpart (ih h)

lemma laid_token {token : Token}
    (htoken : NextLexeme token.kind token.text.toList after) (hline : token.line = line)
    (h : Laid line after layout) :
    Laid line (token.text.toList ++ after) (layout.cons [] token) := by
  subst hline
  obtain ⟨hstuck, hpieces⟩ := divide_lexeme token.line htoken
  obtain ⟨hdone, rfl⟩ := h
  rw [String.ofList_toList] at hpieces
  exact ⟨hstuck.trans hdone, hpieces⟩

end Laid

/-- Every layout comes out of the division of its text. -/
lemma laid_of_fits {passed : List Char} {layout : Layout} (h : Fits passed layout) :
    Laid (lineAt passed) layout.text layout := by
  induction h with
  | @last passed gap hgap =>
    have hlaid := laid_gap hgap (laid_nil (lineAt passed + Text.lineBreaks gap))
    simpa [text, prependGap] using hlaid
  | @cons passed gap token layout hgap htoken hline _ ih =>
    have hbreaks : token.text.toList.count '\n' = 0 := htoken.lexeme.lineBreaks_eq
    have hat : lineAt (passed ++ gap ++ token.text.toList) = token.line := by
      rw [lineAt, List.count_append, hbreaks, Nat.add_zero, ← hline, UInt32.ofNat_toNat]
    rw [hat] at ih
    have hafter := laid_token htoken rfl ih
    have hgapLine : lineAt passed + Text.lineBreaks gap = token.line := by
      rw [lineAt_add_lineBreaks, lineAt, ← hline, UInt32.ofNat_toNat]
    have hlaid := laid_gap hgap (hgapLine.symm ▸ hafter)
    rw [prependGap_cons, List.append_nil] at hlaid
    rwa [text_cons]

/-! ## Tokens of a source -/

lemma tokenize_eq_ok {source : String} {tokens : List Token} :
    tokenize source = .ok tokens ↔
      (divide source.toList).stuck = [] ∧
        (ofPieces 1 (divide source.toList).pieces).tokens = tokens := by
  rw [tokens_ofPieces, tokenize]
  split
  · rename_i hstuck
    simp [hstuck]
  · rename_i hstuck
    simp [hstuck]

/-- The tokens of a source are those of a layout of it. -/
lemma exists_layout {source : String} {tokens : List Token}
    (hlines : source.toList.count '\n' < UInt32.size - 1) (h : tokenize source = .ok tokens) :
    ∃ layout : Layout, layout.text = source.toList ∧ Fits [] layout ∧ layout.tokens = tokens := by
  obtain ⟨hstuck, rfl⟩ := tokenize_eq_ok.1 h
  obtain ⟨htext, hfits⟩ := fits_ofPieces [] source.toList hlines hstuck
  exact ⟨_, htext, hfits, rfl⟩

/-- The lexemes among the pieces of a division are lexemes of their kinds. -/
lemma lexeme_of_mem_divide {s : List Char} {kind : Kind} {text : List Char}
    (h : ⟨.lexeme kind, text⟩ ∈ (divide s).pieces) : Lexeme kind text := by
  induction s using divide_induction with
  | nil => exact absurd h List.not_mem_nil
  | stuck c s => exact absurd h List.not_mem_nil
  | gap c t after _ ih =>
    rcases List.mem_cons.1 h with heq | hmem
    · exact absurd (Piece.mk.inj heq).1 (by simp)
    · exact ih hmem
  | lexeme found c t after hnext ih =>
    rcases List.mem_cons.1 h with heq | hmem
    · obtain ⟨hrole, rfl⟩ := Piece.mk.inj heq
      obtain rfl := Role.lexeme.inj hrole
      exact hnext.lexeme
    · exact ih hmem

lemma Piece.mem_tokens {line : LineNumber} {pieces : List Piece} {token : Token}
    (h : token ∈ Piece.tokens line pieces) :
    ⟨.lexeme token.kind, token.text.toList⟩ ∈ pieces := by
  induction pieces generalizing line with
  | nil => exact absurd h List.not_mem_nil
  | cons piece pieces ih =>
    obtain ⟨role, text⟩ := piece
    cases role with
    | gap => exact List.mem_cons_of_mem _ (ih h)
    | lexeme kind =>
      rcases List.mem_cons.1 h with rfl | hmem
      · rw [String.toList_ofList]
        exact List.mem_cons_self
      · exact List.mem_cons_of_mem _ (ih hmem)

/-- The text of a token is a lexeme of its kind. -/
theorem lexeme_of_tokenize {source : String} {tokens : List Token}
    (h : tokenize source = .ok tokens) : ∀ token ∈ tokens, Lexeme token.kind token.text.toList := by
  obtain ⟨-, rfl⟩ := tokenize_eq_ok.1 h
  intro token hmem
  rw [tokens_ofPieces] at hmem
  exact lexeme_of_mem_divide (Piece.mem_tokens hmem)

/-- The tokens of a source are those of its layout, of which there is one at most.  Trying the
patterns of the table in their order finds the same elements. -/
theorem tokenize_exact {source : String} (hlines : source.toList.count '\n' < UInt32.size - 1) :
    (∀ tokens, tokenize source = .ok tokens ↔
      ∃ layout : Layout, layout.text = source.toList ∧ Fits [] layout ∧ layout.tokens = tokens) ∧
    {layout | layout.text = source.toList ∧ Fits [] layout}.Subsingleton ∧
    ∀ c s, Pattern.element? c s = front? c s := by
  have hout : (divide source.toList).stuck = [] →
      (ofPieces 1 (divide source.toList).pieces).text = source.toList ∧
        Fits [] (ofPieces 1 (divide source.toList).pieces) :=
    fits_ofPieces [] source.toList (by simpa using hlines)
  have hin : ∀ layout : Layout, layout.text = source.toList → Fits [] layout →
      Laid 1 source.toList layout := by
    intro layout htext hfits
    rw [← htext]
    exact laid_of_fits hfits
  refine ⟨fun tokens => ?_, ?_, Pattern.element?_eq_front?⟩
  · rw [tokenize_eq_ok]
    constructor
    · rintro ⟨hstuck, htokens⟩
      obtain ⟨htext, hfits⟩ := hout hstuck
      exact ⟨_, htext, hfits, htokens⟩
    · rintro ⟨layout, htext, hfits, htokens⟩
      obtain ⟨hstuck, rfl⟩ := hin layout htext hfits
      exact ⟨hstuck, htokens⟩
  · rintro layout ⟨htext, hfits⟩ other ⟨hotherText, hotherFits⟩
    rw [← (hin layout htext hfits).2, ← (hin other hotherText hotherFits).2]

/-- The comment of `a/*/*/b` ends with its last two characters. -/
theorem tokenize_exact_comment :
    "a\n/*/*/b".toList.count '\n' < UInt32.size - 1 ∧
      ∃ layout : Layout, layout.text = "a\n/*/*/b".toList ∧ Fits [] layout ∧
        layout.tokens = [⟨.identifier, "a", 1⟩, ⟨.identifier, "b", 2⟩] := by
  have hlines : "a\n/*/*/b".toList.count '\n' < UInt32.size - 1 := by decide
  have htokens : tokenize "a\n/*/*/b" = .ok [⟨.identifier, "a", 1⟩, ⟨.identifier, "b", 2⟩] := by
    decide +kernel
  exact ⟨hlines, ((tokenize_exact hlines).1 _).1 htokens⟩

end ImpSyntax
