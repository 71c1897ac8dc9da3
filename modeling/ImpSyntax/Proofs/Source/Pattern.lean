import ImpSyntax.Proofs.Source.Gap

/-!
# First match and longest match

The elements of a source can also be described by a table of patterns, which are tried in order at
the place reached: the first one that matches decides (`firstMatch`).  `Element.front?` knows of no
such order and looks for the longest element.  The two agree (`element?_eq_front?`) because of the
order of the table alone: no pattern for a symbol stands before one that begins with it, so the
first symbol that matches is the longest, and the patterns for comments stand before those for the
symbols that a comment begins with.
-/

namespace ImpSyntax

open Element

/-- A pattern for the front of a text. -/
inductive Pattern where
  | blanks
  | lineComment
  | blockComment
  /-- The opening of a block comment, closed or not. -/
  | openComment
  | word
  | number
  /-- The spelling of a symbol. -/
  | symbol (kind : Kind)
deriving DecidableEq, Repr

namespace Pattern

/-- The symbols in the order in which they are tried. -/
def symbols : List Kind :=
  [.leftBrace, .rightBrace, .leftParen, .rightParen, .equal, .notEqual, .logicalNot, .assign,
   .lessEqual, .less, .greaterEqual, .greater, .logicalOr, .orAssign, .bitOr, .logicalAnd,
   .andAssign, .bitAnd, .xorAssign, .bitXor, .semicolon, .comma, .increment, .addAssign, .plus,
   .decrement, .subAssign, .minus, .divAssign, .slash, .mulAssign, .star]

/-- All patterns in the order in which they are tried. -/
def table : List Pattern :=
  [blanks, lineComment, blockComment, openComment, word, number] ++ symbols.map symbol

/-- The number of characters that are matched after the first one, if the pattern matches. -/
def more? (c : Char) (s : List Char) : Pattern → Option Nat
  | blanks => if Text.isBlank c then some (runLength Text.isBlank s) else none
  | lineComment =>
    match c, s with
    | '/', '/' :: s => some (1 + runLength (· != '\n') s)
    | _, _ => none
  | blockComment =>
    match c, s with
    | '/', '*' :: s => (commentLength? s).map (1 + ·)
    | _, _ => none
  | openComment => if opensComment c s then some 1 else none
  | word => if isWordStart c then some (runLength isWordPart s) else none
  | number => if c.isDigit then some (numberLength s) else none
  | symbol kind =>
    kind.lexeme?.bind fun lexeme =>
      if lexeme.toList.isPrefixOf (c :: s) then some (lexeme.toList.length - 1) else none

/-- What a matched text is, unless it is at fault. -/
def role? (text : List Char) : Pattern → Option Role
  | blanks => some .gap
  | lineComment => some .gap
  | blockComment => some .gap
  | openComment => none
  | word => some (.lexeme (Kind.ofWord text))
  | number => some (.lexeme .number)
  | symbol kind => some (.lexeme kind)

/-- The first pattern that matches, with the number of characters after the first one. -/
def firstMatch (c : Char) (s : List Char) : Option (Pattern × Nat) :=
  table.findSome? fun pattern => (pattern.more? c s).map (pattern, ·)

/-- The element that the first matching pattern makes of the front. -/
def element? (c : Char) (s : List Char) : Option (Role × Nat) :=
  (firstMatch c s).bind fun (pattern, more) => (pattern.role? (c :: s.take more)).map (·, more)

/-! ## Symbols -/

/-- A symbol is tried before all those that it begins with. -/
lemma symbols_pairwise : symbols.Pairwise fun first second =>
    ∀ text ∈ first.lexeme?, ∀ other ∈ second.lexeme?, ¬ text.toList <+: other.toList := by
  decide

lemma mem_symbols_iff {kind : Kind} : kind ∈ symbols ↔ kind ∈ Kind.symbols := by
  cases kind <;> decide

variable {c : Char} {s : List Char}

lemma more?_symbol {kind : Kind} {more : Nat} :
    more? c s (symbol kind) = some more ↔ ∃ text, kind.lexeme? = some (String.ofList text) ∧
      text <+: c :: s ∧ more = text.length - 1 := by
  constructor
  · intro h
    obtain ⟨lexeme, hlexeme, hmatch⟩ := Option.bind_eq_some_iff.1 h
    split at hmatch
    · rename_i hbegins
      refine ⟨lexeme.toList, by rw [hlexeme, String.ofList_toList], ?_, ?_⟩
      · exact List.isPrefixOf_iff_prefix.1 hbegins
      · exact (Option.some.inj hmatch).symm
    · exact absurd hmatch (by simp)
  · rintro ⟨text, hlexeme, hbegins, rfl⟩
    rw [more?, hlexeme, Option.bind_some, String.toList_ofList]
    exact if_pos (List.isPrefixOf_iff_prefix.2 hbegins)

/-- The first symbol of the table that matches. -/
def firstSymbol (c : Char) (s : List Char) : Option (Kind × Nat) :=
  symbols.findSome? fun kind => (more? c s (symbol kind)).map (kind, ·)

/-- The first symbol that matches is the longest one: the longer ones come before it, and they do
not match. -/
lemma lexeme?_of_firstSymbol {kind : Kind} {more : Nat} (hsymbol : isWordPart c = false)
    (h : firstSymbol c s = some (kind, more)) : lexeme? c s = some (kind, more) := by
  obtain ⟨before, found, after, htable, hfound, hbefore⟩ := List.findSome?_eq_some_iff.1 h
  obtain ⟨length, hmore, heq⟩ := Option.map_eq_some_iff.1 hfound
  obtain ⟨rfl, rfl⟩ := Prod.mk.inj heq
  obtain ⟨text, hspelled, hbegins, rfl⟩ := more?_symbol.1 hmore
  have hmem : found ∈ Kind.symbols := mem_symbols_iff.1 (htable ▸ by simp)
  have hne := (Kind.spelling_of_mem_symbols hmem hspelled).1
  obtain ⟨rest, hrest⟩ := hbegins
  match text with
  | b :: t =>
    obtain ⟨rfl, rfl⟩ : b = c ∧ t ++ rest = s := List.cons.inj hrest
    rw [List.length_cons, Nat.add_sub_cancel]
    refine lexeme?_eq_some.2 ⟨.fixed hspelled, fun other longer hlexeme hbegins => ?_⟩
    refine Nat.le_of_not_lt fun hlt => ?_
    obtain ⟨hotherMem, hotherSpelled⟩ := hlexeme.mem_symbols hbegins hsymbol
    have hother : other ∈ symbols := mem_symbols_iff.2 hotherMem
    have hinside : b :: t <+: longer :=
      List.prefix_of_prefix_length_le (List.prefix_append _ rest) hbegins (Nat.le_of_lt hlt)
    have hpairwise := symbols_pairwise
    rw [htable] at hother hpairwise
    rcases List.mem_append.1 hother with hearlier | hother
    · have hmatch : more? b (t ++ rest) (symbol other) = some (longer.length - 1) :=
        more?_symbol.2 ⟨longer, hotherSpelled, hbegins, rfl⟩
      have hnone := hbefore other hearlier
      rw [hmatch] at hnone
      exact absurd hnone (by simp)
    · rcases List.mem_cons.1 hother with rfl | hlater
      · rw [hspelled] at hotherSpelled
        rw [String.ofList_injective (Option.some.inj hotherSpelled)] at hlt
        exact absurd hlt (Nat.lt_irrefl _)
      · have hlaterPairwise := (List.pairwise_append.1 hpairwise).2.1
        have hnot := List.rel_of_pairwise_cons hlaterPairwise hlater _ hspelled _ hotherSpelled
        simp only [String.toList_ofList] at hnot
        exact hnot hinside

lemma lexeme?_eq_firstSymbol (hsymbol : isWordPart c = false) : lexeme? c s = firstSymbol c s := by
  cases hfirst : firstSymbol c s with
  | some found => exact lexeme?_of_firstSymbol hsymbol hfirst
  | none =>
    cases hlexeme : lexeme? c s with
    | none => rfl
    | some found =>
      obtain ⟨t, after, rfl, -, hlongest⟩ := longestLexeme_of_lexeme? hlexeme
      have hbegins : c :: t <+: c :: (t ++ after) := List.prefix_append (c :: t) after
      obtain ⟨hkind, hspelled⟩ := hlongest.lexeme.mem_symbols hbegins hsymbol
      have hmatch := more?_symbol.2 ⟨c :: t, hspelled, hbegins, rfl⟩
      have hnone := List.findSome?_eq_none_iff.1 hfirst found.1 (mem_symbols_iff.2 hkind)
      rw [hmatch] at hnone
      exact absurd hnone (by simp)

/-! ## All patterns -/

/-- The first match is that of the first pattern, or else of those behind it. -/
lemma firstMatch_eq : firstMatch c s =
    ((more? c s blanks).map (blanks, ·)).or (((more? c s lineComment).map (lineComment, ·)).or
      (((more? c s blockComment).map (blockComment, ·)).or
        (((more? c s openComment).map (openComment, ·)).or (((more? c s word).map (word, ·)).or
          (((more? c s number).map (number, ·)).or
            ((firstSymbol c s).map fun (kind, more) => (symbol kind, more))))))) := by
  have hsymbols : (symbols.map symbol).findSome? (fun pattern =>
      (more? c s pattern).map (pattern, ·)) =
        (firstSymbol c s).map fun (kind, more) => (symbol kind, more) := by
    rw [List.findSome?_map, firstSymbol, List.map_findSome?]
    congr 1
    funext kind
    simp [Function.comp_def]
  have hcons : ∀ (f : Pattern → Option (Pattern × Nat)) (pattern : Pattern) (more : List Pattern),
      (pattern :: more).findSome? f = (f pattern).or (more.findSome? f) := by
    intro f pattern more
    rw [List.findSome?_cons]
    cases f pattern <;> rfl
  rw [firstMatch, table, List.findSome?_append, hsymbols]
  simp only [hcons, List.findSome?_nil, Option.or_none, Option.or_assoc]

/-- The first pattern that matches makes the element that `front?` finds. -/
theorem element?_eq_front? (c : Char) (s : List Char) : element? c s = front? c s := by
  rw [element?, firstMatch_eq]
  by_cases hblank : Text.isBlank c = true
  · simp [front?_of_gap? (gap?_blank hblank), more?, hblank, role?]
  have hblanks : more? c s blanks = none := if_neg hblank
  by_cases hline : ['/', '/'] <+: c :: s
  · obtain ⟨rest, heq⟩ := hline
    obtain ⟨rfl, rfl⟩ : '/' = c ∧ '/' :: rest = s := List.cons.inj heq
    rw [front?_of_gap? gap?_line, hblanks]
    rfl
  have hlines : more? c s lineComment = none := by
    rw [more?]
    rintro rest rfl rfl
    exact hline ⟨rest, rfl⟩
  by_cases hblock : ['/', '*'] <+: c :: s
  · obtain ⟨rest, heq⟩ := hblock
    obtain ⟨rfl, rfl⟩ : '/' = c ∧ '*' :: rest = s := List.cons.inj heq
    rw [hblanks, hlines, front?, gap?_block]
    cases hlength : commentLength? rest <;> simp [more?, hlength, role?, opensComment]
  have hblocks : more? c s blockComment = none := by
    rw [more?]
    rintro rest rfl rfl
    exact hblock ⟨rest, rfl⟩
  have hopens : opensComment c s = false :=
    Bool.eq_false_iff.2 fun hopens => hblock (opensComment_iff.1 hopens)
  rw [hblanks, hlines, hblocks, front?, gap?_eq_none (by simpa using hblank) hline hblock]
  by_cases hstart : isWordStart c = true
  · obtain ⟨t, after, rfl, ht, hafter⟩ := exists_run isWordPart s
    simp [lexeme?_word hstart ht hafter, more?, hopens, hstart, runLength_run ht hafter, role?]
  by_cases hdigit : c.isDigit = true
  · simp [lexeme?_of_digit hdigit, more?, hopens, hstart, hdigit, role?]
  rw [lexeme?_eq_firstSymbol (isWordPart_eq_false hstart hdigit)]
  cases firstSymbol c s <;> simp [more?, hopens, hstart, hdigit, role?]

end Pattern

end ImpSyntax
