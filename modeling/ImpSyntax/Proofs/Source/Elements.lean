import ImpSyntax.Proofs.Source.Stuck

/-!
# Complete elements

`Elements text after` says of a part of a source that it consists of complete elements: blanks,
comments and the longest lexemes, each one with regard to what comes behind it, up to the end of
`after`.  It does not say that `after` consists of elements too.

Whether a text consists of complete elements depends on what follows it, but only up to the end of
the line.  Elements remain complete if the source is cut off behind them (`Elements.truncate`), and
if a line feed and anything else is put behind what follows (`Elements.before_break`).

The division of a source goes through complete elements and is then at what follows.  It is stuck
where that is stuck (`Elements.stuck_append`), and finds the tokens of the elements and then those
of what follows, on the lines they are moved to (`Elements.tokensFrom_append`).  As every division
has passed complete elements (`elements_divide`), a source has tokens just if it consists of them.
-/

namespace ImpSyntax

open Element Layout

/-- The text consists of blanks, comments and next lexemes, where `after` follows. -/
inductive Elements : List Char → List Char → Prop where
  | nil {after : List Char} : Elements [] after
  | gap {part text after : List Char} (hpart : GapPart part (text ++ after))
      (htext : Elements text after) : Elements (part ++ text) after
  | lexeme {kind : Kind} {lexeme text after : List Char}
      (hnext : NextLexeme kind lexeme (text ++ after)) (htext : Elements text after) :
      Elements (lexeme ++ text) after

/-! ## Less behind the elements, or more -/

/-- A text without line feeds in front of a line feed does not reach beyond it. -/
lemma prefix_of_no_break {t s rest : List Char} (ht : '\n' ∉ t) (h : t <+: s ++ '\n' :: rest) :
    t <+: s := by
  rcases Nat.le_total t.length s.length with hle | hge
  · exact List.prefix_of_prefix_length_le h (List.prefix_append s _) hle
  · obtain ⟨more, rfl⟩ := List.prefix_of_prefix_length_le (List.prefix_append s _) h hge
    rw [List.prefix_append_right_inj] at h
    cases more with
    | nil => simp
    | cons c more =>
      obtain ⟨rfl, -⟩ := List.cons_prefix_cons.1 h
      exact absurd (by simp) ht

section Parts

variable {part lexeme after rest : List Char} {kind : Kind}

lemma GapPart.truncate (h : GapPart part (after ++ rest)) : GapPart part after := by
  cases h with
  | blank hblank => exact .blank hblank
  | lineComment hbody hafter =>
    refine .lineComment hbody fun c hc => hafter c ?_
    rw [List.head?_append, Option.mem_def.1 hc]
    rfl
  | blockComment hfirst => exact .blockComment hfirst

lemma GapPart.before_break (h : GapPart part after) : GapPart part (after ++ '\n' :: rest) := by
  cases h with
  | blank hblank => exact .blank hblank
  | lineComment hbody hafter =>
    refine .lineComment hbody fun c hc => ?_
    cases after with
    | nil => exact (Option.some.inj hc).symm
    | cons d after => exact hafter c hc
  | blockComment hfirst => exact .blockComment hfirst

lemma NextLexeme.truncate (h : NextLexeme kind lexeme (after ++ rest)) :
    NextLexeme kind lexeme after := by
  have hmore : lexeme ++ after <+: lexeme ++ (after ++ rest) :=
    (List.prefix_append_right_inj lexeme).2 (List.prefix_append after rest)
  exact ⟨⟨h.lexeme, fun other longer hlonger hbegins => h.longest other longer hlonger
      (hbegins.trans hmore)⟩,
    fun hbegins => h.noLineComment (hbegins.trans hmore),
    fun hbegins => h.noBlockComment (hbegins.trans hmore)⟩

/-- A lexeme has no line feed, so a longer one would end before the line feed as well. -/
lemma NextLexeme.before_break (h : NextLexeme kind lexeme after) :
    NextLexeme kind lexeme (after ++ '\n' :: rest) := by
  have hless : ∀ {t : List Char}, '\n' ∉ t → t <+: lexeme ++ (after ++ '\n' :: rest) →
      t <+: lexeme ++ after := by
    intro t ht hbegins
    rw [← List.append_assoc] at hbegins
    exact prefix_of_no_break ht hbegins
  refine ⟨⟨h.lexeme, fun other longer hlonger hbegins => ?_⟩, fun hbegins => ?_, fun hbegins => ?_⟩
  · have hbreak : '\n' ∉ longer := List.count_eq_zero.1 hlonger.lineBreaks_eq
    exact h.longest other longer hlonger (hless hbreak hbegins)
  · exact h.noLineComment (hless (by decide) hbegins)
  · exact h.noBlockComment (hless (by decide) hbegins)

end Parts

namespace Elements

variable {text gap other after rest : List Char}

/-- Elements remain complete if less follows. -/
lemma truncate (h : Elements text (after ++ rest)) : Elements text after := by
  generalize hbehind : after ++ rest = behind at h
  induction h with
  | nil => exact .nil
  | gap hpart _ ih =>
    subst hbehind
    rw [← List.append_assoc] at hpart
    exact .gap hpart.truncate (ih rfl)
  | lexeme hnext _ ih =>
    subst hbehind
    rw [← List.append_assoc] at hnext
    exact .lexeme hnext.truncate (ih rfl)

/-- Elements remain complete if more lines follow. -/
lemma before_break (h : Elements text after) : Elements text (after ++ '\n' :: rest) := by
  induction h with
  | nil => exact .nil
  | @gap part text after hpart _ ih =>
    have hbefore : GapPart part (text ++ after ++ '\n' :: rest) := hpart.before_break
    rw [List.append_assoc] at hbefore
    exact .gap hbefore ih
  | @lexeme kind lexeme text after hnext _ ih =>
    have hbefore : NextLexeme kind lexeme (text ++ after ++ '\n' :: rest) := hnext.before_break
    rw [List.append_assoc] at hbefore
    exact .lexeme hbefore ih

/-! ## More elements -/

lemma append (h : Elements text (other ++ after)) (hother : Elements other after) :
    Elements (text ++ other) after := by
  generalize hbehind : other ++ after = behind at h
  induction h with
  | nil => exact hother
  | gap hpart _ ih =>
    subst hbehind
    rw [← List.append_assoc] at hpart
    rw [List.append_assoc]
    exact .gap hpart (ih rfl)
  | lexeme hnext _ ih =>
    subst hbehind
    rw [← List.append_assoc] at hnext
    rw [List.append_assoc]
    exact .lexeme hnext (ih rfl)

lemma of_gap (h : Gap gap after) : Elements gap after := by
  induction h with
  | nil => exact .nil
  | append hpart _ ih => exact .gap hpart ih

end Elements

/-- What a division has passed are complete elements. -/
lemma elements_divide (s : List Char) :
    Elements ((divide s).pieces.flatMap Piece.text) (divide s).stuck := by
  induction s using divide_induction with
  | nil => exact .nil
  | stuck c s _ => exact .nil
  | gap c t after hgap ih =>
    rw [← text_divide after] at hgap
    exact (Elements.of_gap hgap).append ih
  | lexeme kind c t after hnext ih =>
    rw [← text_divide after] at hnext
    exact .lexeme hnext ih

/-! ## Dividing a source behind elements -/

/-- The tokens of a source that begins on the given line, up to where its division is stuck. -/
def tokensFrom (line : LineNumber) (s : List Char) : List Token :=
  Piece.tokens line (divide s).pieces

section Behind

variable (line : LineNumber) {text after : List Char}

lemma tokensFrom_gapPart {part : List Char} (hpart : GapPart part after) :
    tokensFrom line (part ++ after) = tokensFrom (line + Text.lineBreaks part) after := by
  rw [tokensFrom, tokensFrom, ← tokens_ofPieces, ← tokens_ofPieces, (divide_gapPart line hpart).2]
  exact tokens_prependGap

lemma tokensFrom_lexeme {kind : Kind} {lexeme : List Char} (hnext : NextLexeme kind lexeme after) :
    tokensFrom line (lexeme ++ after) =
      ⟨kind, String.ofList lexeme, line⟩ :: tokensFrom line after := by
  rw [tokensFrom, tokensFrom, ← tokens_ofPieces, ← tokens_ofPieces, (divide_lexeme line hnext).2]
  rfl

lemma Elements.stuck_append (h : Elements text after) :
    (divide (text ++ after)).stuck = (divide after).stuck := by
  induction h with
  | nil => rfl
  | gap hpart _ ih =>
    rw [List.append_assoc, (divide_gapPart 1 hpart).1, ih]
  | lexeme hnext _ ih =>
    rw [List.append_assoc, (divide_lexeme 1 hnext).1, ih]

/-- The tokens of elements are found as if nothing followed, and those behind them on the lines they
are moved to. -/
lemma Elements.tokensFrom_append (h : Elements text after) :
    tokensFrom line (text ++ after) =
      tokensFrom line text ++ tokensFrom (line + Text.lineBreaks text) after := by
  induction h generalizing line with
  | nil => simp [tokensFrom, divide, Piece.tokens, Text.lineBreaks]
  | gap hpart _ ih =>
    rw [List.append_assoc, tokensFrom_gapPart line hpart, ih,
      tokensFrom_gapPart line hpart.truncate, lineBreaks_append]
  | @lexeme kind lexeme text after hnext _ ih =>
    have hbreaks : Text.lineBreaks lexeme = 0 := by
      rw [Text.lineBreaks, hnext.lexeme.lineBreaks_eq]
      rfl
    rw [List.append_assoc, tokensFrom_lexeme line hnext, ih, tokensFrom_lexeme line hnext.truncate,
      lineBreaks_append, hbreaks, UInt32.add_zero, List.cons_append]

end Behind

/-- A source has tokens just if it consists of complete elements. -/
lemma tokenize_eq_ok_iff {source : String} {tokens : List Token} :
    tokenize source = .ok tokens ↔
      Elements source.toList [] ∧ tokensFrom 1 source.toList = tokens := by
  have hcomplete : (divide source.toList).stuck = [] ↔ Elements source.toList [] := by
    constructor
    · intro h
      have helements := elements_divide source.toList
      have htext := text_divide source.toList
      rw [h, List.append_nil] at htext
      rwa [htext, h] at helements
    · intro h
      have hstuck := h.stuck_append
      rwa [List.append_nil, divide] at hstuck
  rw [tokenize_eq_ok, tokens_ofPieces, hcomplete]
  rfl

end ImpSyntax
