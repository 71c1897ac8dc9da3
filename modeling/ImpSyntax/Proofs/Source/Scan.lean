import ImpSyntax.Proofs.Source.Layout

/-!
# Scanning a text from its end

To find the tokens of a text that is put together from known parts, one goes through it from the
end: `Scans line s tokens` says that the source `s` has the given tokens, and each lemma puts a
blank or a lexeme in front of it.  A lexeme that is put there must not grow together with what
follows.  Whether it does shows in one character, the first one that follows:

* numbers and words end before a character that is neither part of a word nor a point (`Stops`);
* symbols end before anything that can follow an operator in a well spaced text (`Separates`);
* punctuation ends before anything.

Only symbols could be confused with the beginning of a comment, and only where a slash or a star
follows.
-/

namespace ImpSyntax

open Element Layout

/-! ## Where lexemes end -/

/-- A number or a word ends before the text. -/
def Stops (after : List Char) : Prop :=
  ∀ c ∈ after.head?, isWordPart c = false ∧ c ≠ '.'

/-- The character is a space, a parenthesis or a part of a word. -/
def separates (c : Char) : Bool :=
  isWordPart c || [' ', '(', ')'].contains c

/-- An operator ends before the text. -/
def Separates (after : List Char) : Prop :=
  ∀ c ∈ after.head?, separates c = true

section Ends

variable {kind : Kind} {text after : List Char}

lemma stops_cons {c : Char} : Stops (c :: after) ↔ isWordPart c = false ∧ c ≠ '.' := by
  simp [Stops]

lemma separates_cons {c : Char} : Separates (c :: after) ↔ separates c = true := by
  simp [Separates]

lemma stops_of_symbol (hkind : kind ∈ Kind.symbols)
    (h : kind.lexeme? = some (String.ofList text)) : Stops (text ++ after) := by
  have hall : ∀ kind ∈ Kind.symbols, ∀ lexeme ∈ kind.lexeme?, '.' ∉ lexeme.toList := by
    decide
  have hpoint : '.' ∉ text := by simpa using hall kind hkind _ h
  obtain ⟨hne, -, hparts⟩ := Kind.spelling_of_mem_symbols hkind h
  cases text with
  | nil => exact absurd rfl hne
  | cons c s =>
    refine stops_cons.2 ⟨(hparts c List.mem_cons_self).1, ?_⟩
    rintro rfl
    exact hpoint List.mem_cons_self

lemma not_startsFraction_of_stops (h : Stops after) : ¬ StartsFraction after := by
  rintro ⟨d, u, rfl, -⟩
  exact (stops_cons.1 h).2 rfl

/-- No comment begins with a part of a word. -/
lemma LongestLexeme.next_of_head (h : LongestLexeme kind text after)
    (hhead : ∀ c ∈ text.head?, isWordPart c = true) : NextLexeme kind text after := by
  obtain ⟨c, t, rfl, -⟩ := h.lexeme.cases_head
  have hpart : isWordPart c = true := hhead c rfl
  have hslash : ¬ '/' = c := by
    rintro rfl
    exact absurd hpart (by decide)
  exact ⟨h, fun hbegins => hslash (List.cons_prefix_cons.1 hbegins).1,
    fun hbegins => hslash (List.cons_prefix_cons.1 hbegins).1⟩

lemma Lexeme.longest_number (h : Lexeme .number text)
    (hafter : ∀ c ∈ after.head?, c.isDigit = false) (hpoint : ¬ StartsFraction after) :
    LongestLexeme .number text after := by
  cases h with
  | whole hne hdigits =>
    match text with
    | _ :: _ => exact longestLexeme_whole hdigits hafter hpoint
  | @fraction digits decimals hne hdigits hsome hdecimals =>
    match digits, decimals with
    | _ :: _, _ :: _ => exact longestLexeme_fraction hdigits hdecimals hafter
  | fixed h => exact absurd h (by simp [Kind.lexeme?])

/-- A number or a word is the next lexeme if it ends before what follows. -/
lemma Lexeme.next_of_stops (h : Lexeme kind text) (hhead : ∀ c ∈ text.head?, isWordPart c = true)
    (hafter : Stops after) : NextLexeme kind text after := by
  have hparts : ∀ c ∈ after.head?, isWordPart c = false := fun c hc => (hafter c hc).1
  have hdigits : ∀ c ∈ after.head?, c.isDigit = false := fun c hc =>
    Bool.eq_false_iff.2 fun hdigit => by
      have hpart := isWordPart_of_isDigit hdigit
      rw [hparts c hc] at hpart
      exact absurd hpart Bool.false_ne_true
  refine LongestLexeme.next_of_head ?_ hhead
  obtain ⟨c, s, rfl, hcases⟩ := h.cases_head
  rcases hcases with ⟨-, rfl⟩ | ⟨hstart, hs, rfl⟩ | ⟨hsymbol, -⟩
  · exact h.longest_number hdigits (not_startsFraction_of_stops hafter)
  · exact longestLexeme_word hstart hs hparts
  · simp [hhead c rfl] at hsymbol

/-- A symbol is the next lexeme if neither a longer symbol nor a comment begins with it and the
character that follows. -/
lemma next_of_not_extended (hkind : kind ∈ Kind.symbols)
    (h : kind.lexeme? = some (String.ofList text))
    (hlonger : ∀ c ∈ after.head?, ∀ other ∈ Kind.symbols,
      other.lexeme? ≠ some (String.ofList (text ++ [c])))
    (hcomment : ∀ c ∈ after.head?, text = ['/'] → c ≠ '/' ∧ c ≠ '*') :
    NextLexeme kind text after := by
  obtain ⟨hne, -, hparts⟩ := Kind.spelling_of_mem_symbols hkind h
  have hopening : ∀ c, ¬ ['/', c] <+: text → (∀ d ∈ after.head?, text = ['/'] → d ≠ c) →
      ¬ ['/', c] <+: text ++ after := by
    intro c hnot hnext hbegins
    match text with
    | [b] =>
      obtain ⟨rfl, hafter⟩ := List.cons_prefix_cons.1 hbegins
      obtain ⟨rest, rfl⟩ := hafter
      exact hnext c rfl rfl rfl
    | _ :: _ :: _ =>
      exact hnot (List.prefix_of_prefix_length_le hbegins (List.prefix_append _ _) (by simp))
  have hnoComment : ∀ kind ∈ Kind.symbols, ∀ lexeme ∈ kind.lexeme?,
      ¬ ['/', '/'] <+: lexeme.toList ∧ ¬ ['/', '*'] <+: lexeme.toList := by
    decide
  have hnot := hnoComment kind hkind _ h
  rw [String.toList_ofList] at hnot
  refine ⟨⟨.fixed h, fun other longer hlexeme hbegins => Nat.le_of_not_lt fun hlt => ?_⟩,
    hopening _ hnot.1 fun c hc heq => (hcomment c hc heq).1,
    hopening _ hnot.2 fun c hc heq => (hcomment c hc heq).2⟩
  match text with
  | b :: t =>
    obtain ⟨hother, hspelled⟩ := hlexeme.mem_symbols hbegins (hparts b List.mem_cons_self).1
    have hlength := (Kind.spelling_of_mem_symbols hother hspelled).2.1
    obtain ⟨extra, rfl⟩ : b :: t <+: longer :=
      List.prefix_of_prefix_length_le (List.prefix_append _ after) hbegins (Nat.le_of_lt hlt)
    rw [List.prefix_append_right_inj] at hbegins
    match extra with
    | [] => simp at hlt
    | [c] =>
      obtain ⟨rest, rfl⟩ := hbegins
      exact hlonger c rfl other hother hspelled
    | _ :: _ :: _ =>
      simp only [List.length_append, List.length_cons] at hlength
      omega

/-- The kinds of punctuation. -/
def Kind.punctuation : List Kind :=
  [.leftBrace, .rightBrace, .leftParen, .rightParen, .semicolon, .comma]

lemma next_of_punctuation (hkind : kind ∈ Kind.punctuation)
    (h : kind.lexeme? = some (String.ofList text)) : NextLexeme kind text after := by
  have hall : ∀ kind ∈ Kind.punctuation, kind ∈ Kind.symbols ∧ ∀ lexeme ∈ kind.lexeme?,
      lexeme.toList ≠ ['/'] ∧ ∀ other ∈ Kind.symbols, ∀ longer ∈ other.lexeme?,
        lexeme.toList ≠ longer.toList.dropLast := by
    decide
  obtain ⟨hsymbol, hspelling⟩ := hall kind hkind
  obtain ⟨hslash, hlonger⟩ := hspelling _ h
  rw [String.toList_ofList] at hslash hlonger
  refine next_of_not_extended hsymbol h (fun c _ other hother hspelled => ?_)
    (fun c _ heq => absurd heq hslash)
  exact hlonger other hother _ hspelled (by simp)

lemma next_of_separates (hkind : kind ∈ Kind.symbols)
    (h : kind.lexeme? = some (String.ofList text)) (hafter : Separates after) :
    NextLexeme kind text after := by
  have hall : ∀ other ∈ Kind.symbols, ∀ longer ∈ other.lexeme?,
      longer.toList.tail.all (fun c => !separates c) = true := by
    decide
  have hne := (Kind.spelling_of_mem_symbols hkind h).1
  refine next_of_not_extended hkind h (fun c hc other hother hspelled => ?_) fun c hc _ => ?_
  · have hlast : c ∈ (String.ofList (text ++ [c])).toList.tail := by
      rw [String.toList_ofList]
      cases text with
      | nil => exact absurd rfl hne
      | cons b t => simp
    have hseparates := hafter c hc
    have hnot := List.all_eq_true.1 (hall other hother _ hspelled) c hlast
    rw [hseparates] at hnot
    exact absurd hnot Bool.false_ne_true
  · have hseparates := hafter c hc
    constructor
    · rintro rfl
      exact absurd hseparates (by decide)
    · rintro rfl
      exact absurd hseparates (by decide)

end Ends

/-! ## Scanning -/

/-- The source has the given tokens if it begins on the given line. -/
def Scans (line : LineNumber) (s : List Char) (tokens : List Token) : Prop :=
  ∃ layout, Laid line s layout ∧ layout.tokens = tokens

section Scans

variable {line : LineNumber} {after : List Char} {tokens : List Token}

lemma scans_nil (line : LineNumber) : Scans line [] [] :=
  ⟨_, laid_nil line, rfl⟩

lemma Scans.space (h : Scans line after tokens) : Scans line (' ' :: after) tokens := by
  obtain ⟨layout, hlaid, rfl⟩ := h
  have hline : line + Text.lineBreaks [' '] = line := by simp [Text.lineBreaks]
  exact ⟨_, laid_blank (by decide) (hline.symm ▸ hlaid), tokens_prependGap⟩

lemma Scans.lineFeed (h : Scans (line + 1) after tokens) : Scans line ('\n' :: after) tokens := by
  obtain ⟨layout, hlaid, rfl⟩ := h
  exact ⟨_, laid_blank (by decide) hlaid, tokens_prependGap⟩

lemma Scans.token {token : Token} (hnext : NextLexeme token.kind token.text.toList after)
    (hline : token.line = line) (h : Scans line after tokens) :
    Scans line (token.text.toList ++ after) (token :: tokens) := by
  obtain ⟨layout, hlaid, rfl⟩ := h
  exact ⟨_, laid_token hnext hline hlaid, rfl⟩

/-- The tokens of a kind with a spelling of its own. -/
lemma Scans.spelled {kind : Kind} {text : List Char}
    (hspelled : kind.lexeme? = some (String.ofList text)) (hnext : NextLexeme kind text after)
    (h : Scans line after tokens) : Scans line (text ++ after) (.ofKind kind line :: tokens) := by
  have htext : (Token.ofKind kind line).text.toList = text := by
    rw [Token.ofKind, hspelled]
    exact String.toList_ofList
  have htoken : Scans line ((Token.ofKind kind line).text.toList ++ after)
      (.ofKind kind line :: tokens) := h.token (by rwa [htext]) rfl
  rwa [htext] at htoken

lemma Scans.punctuation {kind : Kind} {c : Char} (hkind : kind ∈ Kind.punctuation)
    (hspelled : kind.lexeme? = some (String.ofList [c])) (h : Scans line after tokens) :
    Scans line (c :: after) (.ofKind kind line :: tokens) :=
  h.spelled hspelled (next_of_punctuation hkind hspelled)

lemma Scans.leftParen (h : Scans line after tokens) :
    Scans line ('(' :: after) (.ofKind .leftParen line :: tokens) :=
  h.punctuation (by decide) rfl

lemma Scans.rightParen (h : Scans line after tokens) :
    Scans line (')' :: after) (.ofKind .rightParen line :: tokens) :=
  h.punctuation (by decide) rfl

lemma Scans.semicolon (h : Scans line after tokens) :
    Scans line (';' :: after) (.ofKind .semicolon line :: tokens) :=
  h.punctuation (by decide) rfl

lemma Scans.reserved {kind : Kind} {text : List Char} (hkind : kind ∈ Kind.reservedWords)
    (hspelled : kind.lexeme? = some (String.ofList text)) (hafter : Stops after)
    (h : Scans line after tokens) : Scans line (text ++ after) (.ofKind kind line :: tokens) := by
  obtain ⟨c, s, rfl, hstart, -⟩ := Kind.spelling_of_mem_reservedWords hkind hspelled
  have hlexeme : Lexeme kind (c :: s) := .fixed hspelled
  refine h.spelled hspelled (hlexeme.next_of_stops ?_ hafter)
  simpa using isWordPart_of_isWordStart hstart

lemma tokenize_of_scans {source : String} (h : Scans 1 source.toList tokens) :
    tokenize source = .ok tokens := by
  obtain ⟨layout, ⟨hstuck, rfl⟩, rfl⟩ := h
  exact tokenize_eq_ok.2 ⟨hstuck, rfl⟩

end Scans

end ImpSyntax
