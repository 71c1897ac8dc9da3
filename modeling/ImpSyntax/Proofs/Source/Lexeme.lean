import ImpSyntax.Source.Element
import Mathlib.Data.List.Basic
import Mathlib.Data.List.Nodup
import Mathlib.Data.List.TakeWhile

/-!
# Lexemes

`Lexeme kind text` says which texts are lexemes of which kinds, and `LongestLexeme` that a lexeme is
the longest one that a source starts with.  Neither says how it is found.

A lexeme is told by its first character: a digit begins a number, a letter or an underscore begins a
word, and any other character a symbol (`Lexeme.cases_head`).  So no text is a lexeme of two kinds,
and `Element.lexeme?`, which decides by the first character as well, finds the longest lexeme
whenever there is one (`lexeme?_eq_some`).
-/

namespace ImpSyntax

open Element

/-! ## Spellings -/

namespace Kind

lemma mem_of_lexeme?_eq_some {kind : Kind} {text : String} (h : kind.lexeme? = some text) :
    kind ∈ symbols ++ reservedWords := by
  cases kind <;> first | decide | exact absurd h (by simp [lexeme?])

/-- No two kinds have the same spelling. -/
lemma lexeme?_injective {kind other : Kind} {text : String} (h : kind.lexeme? = some text)
    (hother : other.lexeme? = some text) : kind = other := by
  have hnodup : ((symbols ++ reservedWords).map lexeme?).Nodup := by decide
  exact List.inj_on_of_nodup_map hnodup (mem_of_lexeme?_eq_some h) (mem_of_lexeme?_eq_some hother)
    (h.trans hother.symm)

lemma isSpelled_iff {kind : Kind} {text : List Char} :
    kind.isSpelled text = true ↔ kind.lexeme? = some (String.ofList text) := by
  unfold isSpelled
  cases kind.lexeme? with
  | none => simp
  | some lexeme =>
    rw [Option.some.injEq, beq_iff_eq]
    constructor
    · intro h
      rw [← h, String.ofList_toList]
    · intro h
      rw [h, String.toList_ofList]

/-- A search through the spellings of some kinds finds the kind that is spelled so. -/
lemma find?_isSpelled_eq_some {kinds : List Kind} {kind : Kind} {text : List Char} :
    kinds.find? (isSpelled · text) = some kind ↔
      kind ∈ kinds ∧ kind.lexeme? = some (String.ofList text) := by
  constructor
  · intro h
    have hspelled : kind.isSpelled text = true := by simpa using List.find?_some h
    exact ⟨List.mem_of_find?_eq_some h, isSpelled_iff.1 hspelled⟩
  · rintro ⟨hmem, hspelled⟩
    cases hfind : kinds.find? (isSpelled · text) with
    | none =>
      have hnot := List.find?_eq_none.1 hfind kind hmem
      exact absurd (isSpelled_iff.2 hspelled) hnot
    | some other =>
      have hother : other.isSpelled text = true := by simpa using List.find?_some hfind
      rw [lexeme?_injective hspelled (isSpelled_iff.1 hother)]

lemma ofSymbol?_eq_some {kind : Kind} {text : List Char} :
    ofSymbol? text = some kind ↔ kind ∈ symbols ∧ kind.lexeme? = some (String.ofList text) :=
  find?_isSpelled_eq_some

lemma reserved?_eq_some {kind : Kind} {text : List Char} :
    reserved? text = some kind ↔ kind ∈ reservedWords ∧ kind.lexeme? = some (String.ofList text) :=
  find?_isSpelled_eq_some

lemma ofWord_of_reserved {kind : Kind} {text : List Char} (hkind : kind ∈ reservedWords)
    (h : kind.lexeme? = some (String.ofList text)) : ofWord text = kind := by
  rw [ofWord, reserved?_eq_some.2 ⟨hkind, h⟩]
  rfl

lemma ofWord_ne_number (text : List Char) : ofWord text ≠ number := by
  intro h
  cases hreserved : reserved? text with
  | none =>
    rw [ofWord, hreserved] at h
    exact absurd h (by decide)
  | some kind =>
    rw [ofWord, hreserved] at h
    have hkind : number ∈ reservedWords := h ▸ (reserved?_eq_some.1 hreserved).1
    exact absurd hkind (by decide)

/-- A symbol is spelled with one or two characters, which are neither parts of words nor blank. -/
lemma spelling_of_mem_symbols {kind : Kind} {text : List Char} (hkind : kind ∈ symbols)
    (h : kind.lexeme? = some (String.ofList text)) :
    text ≠ [] ∧ text.length ≤ 2 ∧
      ∀ c ∈ text, isWordPart c = false ∧ Text.isBlank c = false := by
  have hall : ∀ kind ∈ symbols, ∀ lexeme ∈ kind.lexeme?, lexeme.toList ≠ [] ∧
      lexeme.toList.length ≤ 2 ∧
      lexeme.toList.all (fun c => !isWordPart c && !Text.isBlank c) = true := by
    decide
  simpa using hall kind hkind _ h

/-- A reserved word is spelled like any other word. -/
lemma spelling_of_mem_reservedWords {kind : Kind} {text : List Char}
    (hkind : kind ∈ reservedWords) (h : kind.lexeme? = some (String.ofList text)) :
    ∃ c s, text = c :: s ∧ isWordStart c = true ∧ ∀ d ∈ s, isWordPart d = true := by
  have hall : ∀ kind ∈ reservedWords, ∀ lexeme ∈ kind.lexeme?, lexeme.toList ≠ [] ∧
      lexeme.toList.head?.all isWordStart = true ∧
      lexeme.toList.tail.all isWordPart = true := by
    decide
  obtain ⟨hne, hhead, htail⟩ := hall kind hkind _ h
  rw [String.toList_ofList] at hne hhead htail
  cases text with
  | nil => exact absurd rfl hne
  | cons c s => exact ⟨c, s, rfl, hhead, List.all_eq_true.1 htail⟩

end Kind

/-! ## Character classes -/

lemma isDigit_iff {c : Char} : c.isDigit = true ↔ 48 ≤ c.toNat ∧ c.toNat ≤ 57 := by
  simp only [Char.isDigit, ge_iff_le, Bool.and_eq_true, decide_eq_true_eq, UInt32.le_iff_toNat_le]
  rfl

lemma isWordStart_iff {c : Char} : isWordStart c = true ↔
    (65 ≤ c.toNat ∧ c.toNat ≤ 90) ∨ (97 ≤ c.toNat ∧ c.toNat ≤ 122) ∨ c.toNat = 95 := by
  have hunderscore : c = '_' ↔ c.toNat = 95 := by
    constructor
    · rintro rfl
      rfl
    · intro h
      exact Char.ext (UInt32.toNat_inj.1 h)
  show (decide (c.val ≥ 65 ∧ c.val ≤ 90) || decide (c.val ≥ 97) && decide (c.val ≤ 122) ||
    c == '_') = true ↔ _
  simp only [ge_iff_le, Bool.or_eq_true, Bool.and_eq_true, decide_eq_true_eq, beq_iff_eq,
    UInt32.le_iff_toNat_le, hunderscore, or_assoc]
  rfl

lemma isWordPart_iff {c : Char} :
    isWordPart c = true ↔ isWordStart c = true ∨ c.isDigit = true := by
  simp only [isWordPart, isWordStart, Char.isAlphanum, Bool.or_eq_true]
  tauto

lemma isWordPart_eq_false {c : Char} (hstart : ¬ isWordStart c = true)
    (hdigit : ¬ c.isDigit = true) : isWordPart c = false :=
  Bool.eq_false_iff.2 fun hpart => (isWordPart_iff.1 hpart).elim hstart hdigit

lemma isWordStart_of_isDigit {c : Char} (h : c.isDigit = true) : isWordStart c = false := by
  have hdigit := isDigit_iff.1 h
  refine Bool.eq_false_iff.2 fun hstart => ?_
  have hword := isWordStart_iff.1 hstart
  omega

lemma isWordPart_of_isWordStart {c : Char} (h : isWordStart c = true) : isWordPart c = true :=
  isWordPart_iff.2 (.inl h)

lemma isWordPart_of_isDigit {c : Char} (h : c.isDigit = true) : isWordPart c = true :=
  isWordPart_iff.2 (.inr h)

lemma isBlank_of_isWordPart {c : Char} (h : isWordPart c = true) : Text.isBlank c = false := by
  refine Bool.eq_false_iff.2 fun hblank => ?_
  simp only [Text.isBlank, Text.CodeRange.covers, Text.blankRanges, Text.CodeRange.contains,
    List.any_cons, List.any_nil, Bool.or_false, Bool.or_eq_true, Bool.and_eq_true,
    decide_eq_true_eq] at hblank
  rw [isWordPart_iff, isWordStart_iff, isDigit_iff] at h
  omega

/-! ## Lexemes of a kind -/

/-- The text is a lexeme of the kind. -/
inductive Lexeme : Kind → List Char → Prop where
  /-- Digits. -/
  | whole {digits : List Char} (hne : digits ≠ []) (hdigits : ∀ c ∈ digits, c.isDigit = true) :
      Lexeme .number digits
  /-- Digits, a point and digits. -/
  | fraction {digits decimals : List Char} (hne : digits ≠ [])
      (hdigits : ∀ c ∈ digits, c.isDigit = true) (hsome : decimals ≠ [])
      (hdecimals : ∀ c ∈ decimals, c.isDigit = true) :
      Lexeme .number (digits ++ '.' :: decimals)
  /-- A word that is not reserved. -/
  | word {c : Char} {s : List Char} (hstart : isWordStart c = true)
      (hparts : ∀ d ∈ s, isWordPart d = true)
      (hfree : ∀ kind ∈ Kind.reservedWords, kind.lexeme? ≠ some (String.ofList (c :: s))) :
      Lexeme .identifier (c :: s)
  /-- The spelling of a symbol or of a reserved word. -/
  | fixed {kind : Kind} {text : List Char} (h : kind.lexeme? = some (String.ofList text)) :
      Lexeme kind text

/-- A word is a lexeme of the kind that its spelling gives it. -/
lemma Lexeme.of_word {c : Char} {s : List Char} (hstart : isWordStart c = true)
    (hparts : ∀ d ∈ s, isWordPart d = true) : Lexeme (Kind.ofWord (c :: s)) (c :: s) := by
  cases hreserved : Kind.reserved? (c :: s) with
  | some kind =>
    rw [Kind.ofWord, hreserved]
    exact .fixed (Kind.reserved?_eq_some.1 hreserved).2
  | none =>
    rw [Kind.ofWord, hreserved]
    refine .word hstart hparts fun kind hkind h => ?_
    rw [Kind.reserved?_eq_some.2 ⟨hkind, h⟩] at hreserved
    exact absurd hreserved (by simp)

/-- A lexeme is a number, a word or a symbol, and its first character tells which. -/
lemma Lexeme.cases_head {kind : Kind} {text : List Char} (h : Lexeme kind text) :
    ∃ c s, text = c :: s ∧
      ((c.isDigit = true ∧ kind = .number) ∨
        (isWordStart c = true ∧ (∀ d ∈ s, isWordPart d = true) ∧ kind = Kind.ofWord (c :: s)) ∨
        (isWordPart c = false ∧ kind ∈ Kind.symbols ∧
          kind.lexeme? = some (String.ofList (c :: s)))) := by
  cases h with
  | whole hne hdigits =>
    cases text with
    | nil => exact absurd rfl hne
    | cons c s => exact ⟨c, s, rfl, .inl ⟨hdigits c List.mem_cons_self, rfl⟩⟩
  | @fraction digits decimals hne hdigits =>
    cases digits with
    | nil => exact absurd rfl hne
    | cons c s => exact ⟨c, _, rfl, .inl ⟨hdigits c List.mem_cons_self, rfl⟩⟩
  | @word c s hstart hparts hfree =>
    refine ⟨c, s, rfl, .inr (.inl ⟨hstart, hparts, ?_⟩)⟩
    cases hreserved : Kind.reserved? (c :: s) with
    | none => rw [Kind.ofWord, hreserved]; rfl
    | some kind =>
      obtain ⟨hkind, hspelled⟩ := Kind.reserved?_eq_some.1 hreserved
      exact absurd hspelled (hfree kind hkind)
  | fixed h =>
    rcases List.mem_append.1 (Kind.mem_of_lexeme?_eq_some h) with hkind | hkind
    · obtain ⟨hne, -, hchars⟩ := Kind.spelling_of_mem_symbols hkind h
      cases text with
      | nil => exact absurd rfl hne
      | cons c s =>
        exact ⟨c, s, rfl, .inr (.inr ⟨(hchars c List.mem_cons_self).1, hkind, h⟩)⟩
    · obtain ⟨c, s, rfl, hstart, hparts⟩ := Kind.spelling_of_mem_reservedWords hkind h
      exact ⟨c, s, rfl, .inr (.inl ⟨hstart, hparts, (Kind.ofWord_of_reserved hkind h).symm⟩)⟩

/-- Apart from numbers and identifiers, lexemes are spellings. -/
lemma Lexeme.lexeme?_eq {kind : Kind} {text : List Char} (h : Lexeme kind text)
    (hnumber : kind ≠ .number) (hidentifier : kind ≠ .identifier) :
    kind.lexeme? = some (String.ofList text) := by
  cases h with
  | whole => exact absurd rfl hnumber
  | fraction => exact absurd rfl hnumber
  | word => exact absurd rfl hidentifier
  | fixed h => exact h

/-- No character of a lexeme is blank. -/
lemma Lexeme.not_blank {kind : Kind} {text : List Char} (h : Lexeme kind text) :
    ∀ c ∈ text, Text.isBlank c = false := by
  have hdigit : ∀ {s : List Char}, (∀ c ∈ s, c.isDigit = true) → ∀ c ∈ s, Text.isBlank c = false :=
    fun hs c hc => isBlank_of_isWordPart (isWordPart_of_isDigit (hs c hc))
  have hword : ∀ {c : Char} {s : List Char}, isWordStart c = true →
      (∀ d ∈ s, isWordPart d = true) → ∀ d ∈ c :: s, Text.isBlank d = false := by
    rintro c s hstart hs d (_ | ⟨_, hd⟩)
    · exact isBlank_of_isWordPart (isWordPart_of_isWordStart hstart)
    · exact isBlank_of_isWordPart (hs d hd)
  cases h with
  | whole _ hdigits => exact hdigit hdigits
  | fraction _ hdigits _ hdecimals =>
    intro c hc
    rcases List.mem_append.1 hc with hc | hc
    · exact hdigit hdigits c hc
    · rcases List.mem_cons.1 hc with rfl | hc
      · decide
      · exact hdigit hdecimals c hc
  | word hstart hparts => exact hword hstart hparts
  | fixed h =>
    rcases List.mem_append.1 (Kind.mem_of_lexeme?_eq_some h) with hkind | hkind
    · exact fun c hc => ((Kind.spelling_of_mem_symbols hkind h).2.2 c hc).2
    · obtain ⟨c, s, rfl, hstart, hparts⟩ := Kind.spelling_of_mem_reservedWords hkind h
      exact hword hstart hparts

/-- Apart from symbols, lexemes begin like words or numbers. -/
lemma Lexeme.head_isWordPart {kind : Kind} {text : List Char} (h : Lexeme kind text)
    (hkind : kind ∉ Kind.symbols) : ∃ c s, text = c :: s ∧ isWordPart c = true := by
  obtain ⟨c, s, rfl, ⟨hdigit, -⟩ | ⟨hstart, -⟩ | ⟨-, hsymbol, -⟩⟩ := h.cases_head
  · exact ⟨c, s, rfl, isWordPart_of_isDigit hdigit⟩
  · exact ⟨c, s, rfl, isWordPart_of_isWordStart hstart⟩
  · exact absurd hsymbol hkind

/-- No text is a lexeme of two kinds. -/
theorem Lexeme.kind_unique {kind other : Kind} {text : List Char} (h : Lexeme kind text)
    (hother : Lexeme other text) : kind = other := by
  obtain ⟨c, s, rfl, hcases⟩ := h.cases_head
  obtain ⟨_, _, heq, hothers⟩ := hother.cases_head
  obtain ⟨rfl, rfl⟩ := List.cons.inj heq
  rcases hcases with ⟨hdigit, rfl⟩ | ⟨hstart, -, rfl⟩ | ⟨hsymbol, -, hspelled⟩
  · have hnotStart := isWordStart_of_isDigit hdigit
    have hpart := isWordPart_of_isDigit hdigit
    rcases hothers with ⟨-, rfl⟩ | ⟨hstart, -⟩ | ⟨hsymbol, -⟩
    · rfl
    · simp [hnotStart] at hstart
    · simp [hpart] at hsymbol
  · have hpart := isWordPart_of_isWordStart hstart
    rcases hothers with ⟨hdigit, -⟩ | ⟨-, -, rfl⟩ | ⟨hsymbol, -⟩
    · simp [isWordStart_of_isDigit hdigit] at hstart
    · rfl
    · simp [hpart] at hsymbol
  · rcases hothers with ⟨hdigit, -⟩ | ⟨hstart, -⟩ | ⟨-, -, hotherSpelled⟩
    · simp [isWordPart_of_isDigit hdigit] at hsymbol
    · simp [isWordPart_of_isWordStart hstart] at hsymbol
    · exact Kind.lexeme?_injective hspelled hotherSpelled

/-! ## Runs of characters -/

section Runs

variable {p : Char → Bool} {t after : List Char}

/-- A source is a run of characters of a class and then something else. -/
lemma exists_run (p : Char → Bool) (s : List Char) :
    ∃ t after, s = t ++ after ∧ (∀ c ∈ t, p c = true) ∧ ∀ c ∈ after.head?, p c = false := by
  refine ⟨s.takeWhile p, s.dropWhile p, List.takeWhile_append_dropWhile.symm, ?_, ?_⟩
  · exact fun c hc => List.mem_takeWhile_imp hc
  · intro c hc
    have hhead := List.head?_dropWhile_not p s
    rw [Option.mem_def.1 hc] at hhead
    simpa using hhead

lemma takeWhile_run (ht : ∀ c ∈ t, p c = true) (hafter : ∀ c ∈ after.head?, p c = false) :
    (t ++ after).takeWhile p = t := by
  rw [List.takeWhile_append_of_pos ht]
  cases after with
  | nil => simp
  | cons c s => simp [hafter c rfl]

lemma runLength_run (ht : ∀ c ∈ t, p c = true) (hafter : ∀ c ∈ after.head?, p c = false) :
    runLength p (t ++ after) = t.length := by
  rw [runLength, takeWhile_run ht hafter]

/-- No prefix that is a run is longer than the run that the source starts with. -/
lemma length_le_of_run {u : List Char} (hafter : ∀ c ∈ after.head?, p c = false)
    (ht : ∀ c ∈ t, p c = true) (hu : ∀ c ∈ u, p c = true) (hbegins : u <+: t ++ after) :
    u.length ≤ t.length := by
  obtain ⟨v, hv⟩ := hbegins
  have htake := takeWhile_run ht hafter
  rw [← hv, List.takeWhile_append_of_pos hu] at htake
  rw [← htake, List.length_append]
  exact Nat.le_add_right _ _

end Runs

/-! ## The longest lexeme -/

/-- The text is a lexeme of the kind.  Where `after` follows it, no longer lexeme begins at the same
place. -/
structure LongestLexeme (kind : Kind) (text after : List Char) : Prop where
  lexeme : Lexeme kind text
  longest : ∀ other longer, Lexeme other longer → longer <+: text ++ after →
    longer.length ≤ text.length

/-- A source starts with one longest lexeme at most. -/
lemma LongestLexeme.unique {kind other : Kind} {text after text' after' : List Char}
    (h : LongestLexeme kind text after) (hother : LongestLexeme other text' after')
    (heq : text ++ after = text' ++ after') : kind = other ∧ text = text' ∧ after = after' := by
  have hle := hother.longest kind text h.lexeme (heq ▸ List.prefix_append _ _)
  have hge := h.longest other text' hother.lexeme (heq ▸ List.prefix_append _ _)
  obtain ⟨rfl, hafter⟩ := List.append_inj heq (Nat.le_antisymm hle hge)
  exact ⟨h.lexeme.kind_unique hother.lexeme, rfl, hafter⟩

section Scan

variable {c : Char} {s t after : List Char} {kind : Kind}

/-! ### Words -/

lemma longestLexeme_word (hstart : isWordStart c = true) (ht : ∀ d ∈ t, isWordPart d = true)
    (hafter : ∀ d ∈ after.head?, isWordPart d = false) :
    LongestLexeme (Kind.ofWord (c :: t)) (c :: t) after where
  lexeme := .of_word hstart ht
  longest other longer hlexeme hbegins := by
    obtain ⟨b, u, rfl, hcases⟩ := hlexeme.cases_head
    obtain ⟨rfl, hu⟩ := List.cons_prefix_cons.1 hbegins
    have hpart := isWordPart_of_isWordStart hstart
    have hwords : ∀ d ∈ u, isWordPart d = true := by
      rcases hcases with ⟨hdigit, -⟩ | ⟨-, hwords, -⟩ | ⟨hsymbol, -⟩
      · simp [isWordStart_of_isDigit hdigit] at hstart
      · exact hwords
      · simp [hsymbol] at hpart
    exact Nat.succ_le_succ (length_le_of_run hafter ht hwords hu)

lemma lexeme?_word (hstart : isWordStart c = true) (ht : ∀ d ∈ t, isWordPart d = true)
    (hafter : ∀ d ∈ after.head?, isWordPart d = false) :
    lexeme? c (t ++ after) = some (Kind.ofWord (c :: t), t.length) := by
  rw [lexeme?, if_pos hstart, takeWhile_run ht hafter, runLength_run ht hafter]

/-! ### Numbers -/

/-- The text goes on with a point and a digit, as a fraction does. -/
def StartsFraction (s : List Char) : Prop :=
  ∃ d u, s = '.' :: d :: u ∧ d.isDigit = true

lemma fractionLength_of_not_startsFraction (h : ¬ StartsFraction s) : fractionLength s = 0 := by
  unfold fractionLength
  split
  · rename_i d u
    refine if_neg fun hdigit => h ⟨d, u, rfl, hdigit⟩
  · rfl

/-- The first digits of a number are all digits that come first. -/
lemma digits_eq_of_point {digits u v : List Char} (hdigits : ∀ d ∈ digits, d.isDigit = true)
    (ht : ∀ d ∈ t, d.isDigit = true) (hu : ∀ d ∈ u.head?, d.isDigit = false)
    (heq : digits ++ '.' :: v = t ++ u) : digits = t ∧ u = '.' :: v := by
  have htake := congrArg (List.takeWhile Char.isDigit) heq
  rw [takeWhile_run ht hu, takeWhile_run hdigits (by simp)] at htake
  subst htake
  exact ⟨rfl, (List.append_cancel_left heq).symm⟩

/-- A lexeme that begins with a digit is a number. -/
lemma Lexeme.kind_of_digit {text : List Char} (h : Lexeme kind text) (hbegins : text <+: c :: s)
    (hdigit : c.isDigit = true) : kind = .number := by
  obtain ⟨b, u, rfl, hcases⟩ := h.cases_head
  obtain ⟨rfl, -⟩ := List.cons_prefix_cons.1 hbegins
  rcases hcases with ⟨-, hnumber⟩ | ⟨hstart, -⟩ | ⟨hsymbol, -⟩
  · exact hnumber
  · simp [isWordStart_of_isDigit hdigit] at hstart
  · simp [isWordPart_of_isDigit hdigit] at hsymbol

lemma longestLexeme_whole (ht : ∀ d ∈ c :: t, d.isDigit = true)
    (hafter : ∀ d ∈ after.head?, d.isDigit = false) (hpoint : ¬ StartsFraction after) :
    LongestLexeme .number (c :: t) after where
  lexeme := .whole (List.cons_ne_nil c t) ht
  longest other longer hlexeme hbegins := by
    obtain rfl := hlexeme.kind_of_digit hbegins (ht c List.mem_cons_self)
    cases hlexeme with
    | whole _ hdigits => exact length_le_of_run hafter ht hdigits hbegins
    | @fraction digits decimals _ hdigits hsome hdecimals =>
      obtain ⟨v, hv⟩ := hbegins
      rw [List.append_assoc, List.cons_append] at hv
      obtain ⟨-, rfl⟩ := digits_eq_of_point hdigits ht hafter hv
      cases decimals with
      | nil => exact absurd rfl hsome
      | cons d u => exact absurd ⟨d, u ++ v, rfl, hdecimals d List.mem_cons_self⟩ hpoint
    | fixed h => exact absurd h (by simp [Kind.lexeme?])

lemma longestLexeme_fraction {d : Char} {u : List Char} (ht : ∀ b ∈ c :: t, b.isDigit = true)
    (hu : ∀ b ∈ d :: u, b.isDigit = true) (hafter : ∀ b ∈ after.head?, b.isDigit = false) :
    LongestLexeme .number (c :: (t ++ '.' :: d :: u)) after where
  lexeme := .fraction (List.cons_ne_nil c t) ht (List.cons_ne_nil d u) hu
  longest other longer hlexeme hbegins := by
    obtain rfl := hlexeme.kind_of_digit hbegins (ht c List.mem_cons_self)
    have hpoint : ∀ b ∈ ('.' :: d :: (u ++ after)).head?, b.isDigit = false := by simp
    have hsource : c :: (t ++ '.' :: d :: u) ++ after = (c :: t) ++ '.' :: d :: (u ++ after) := by
      simp
    rw [hsource] at hbegins
    cases hlexeme with
    | whole _ hdigits =>
      have hle := length_le_of_run hpoint ht hdigits hbegins
      simp only [List.length_cons, List.length_append] at hle ⊢
      omega
    | @fraction digits decimals _ hdigits hsome hdecimals =>
      obtain ⟨v, hv⟩ := hbegins
      rw [List.append_assoc, List.cons_append] at hv
      obtain ⟨rfl, hrest⟩ := digits_eq_of_point hdigits ht hpoint hv
      have hmore : decimals <+: d :: u ++ after := ⟨v, (List.cons.inj hrest).2.symm⟩
      have hle := length_le_of_run hafter hu hdecimals hmore
      simp only [List.length_cons, List.length_append] at hle ⊢
      omega
    | fixed h => exact absurd h (by simp [Kind.lexeme?])

lemma lexeme?_of_digit (hdigit : c.isDigit = true) :
    lexeme? c s = some (.number, numberLength s) := by
  rw [lexeme?, if_neg (by simp [isWordStart_of_isDigit hdigit]), if_pos hdigit]

lemma lexeme?_whole (ht : ∀ d ∈ c :: t, d.isDigit = true)
    (hafter : ∀ d ∈ after.head?, d.isDigit = false) (hpoint : ¬ StartsFraction after) :
    lexeme? c (t ++ after) = some (.number, t.length) := by
  have hdigits : ∀ d ∈ t, d.isDigit = true := fun d hd => ht d (List.mem_cons_of_mem c hd)
  rw [lexeme?_of_digit (ht c List.mem_cons_self), numberLength,
    runLength_run hdigits hafter, List.drop_left, fractionLength_of_not_startsFraction hpoint,
    Nat.add_zero]

lemma lexeme?_fraction {d : Char} {u : List Char} (ht : ∀ b ∈ c :: t, b.isDigit = true)
    (hu : ∀ b ∈ d :: u, b.isDigit = true) (hafter : ∀ b ∈ after.head?, b.isDigit = false) :
    lexeme? c (t ++ '.' :: d :: u ++ after) = some (.number, (t ++ '.' :: d :: u).length) := by
  have hdigits : ∀ b ∈ t, b.isDigit = true := fun b hb => ht b (List.mem_cons_of_mem c hb)
  have hdecimals : ∀ b ∈ u, b.isDigit = true := fun b hb => hu b (List.mem_cons_of_mem d hb)
  have hpoint : ∀ b ∈ ('.' :: d :: (u ++ after)).head?, b.isDigit = false := by simp
  have hsource : t ++ '.' :: d :: u ++ after = t ++ '.' :: d :: (u ++ after) := by simp
  rw [lexeme?_of_digit (ht c List.mem_cons_self), numberLength, hsource,
    runLength_run hdigits hpoint, List.drop_left, fractionLength, if_pos (hu d List.mem_cons_self),
    runLength_run hdecimals hafter]
  simp only [List.length_append, List.length_cons]
  congr 2
  omega

/-! ### Symbols -/

/-- A lexeme that begins with no character of a word is a symbol. -/
lemma Lexeme.mem_symbols {text : List Char} (h : Lexeme kind text) (hbegins : text <+: c :: s)
    (hsymbol : isWordPart c = false) :
    kind ∈ Kind.symbols ∧ kind.lexeme? = some (String.ofList text) := by
  obtain ⟨b, u, rfl, hcases⟩ := h.cases_head
  obtain ⟨rfl, -⟩ := List.cons_prefix_cons.1 hbegins
  rcases hcases with ⟨hdigit, -⟩ | ⟨hstart, -⟩ | ⟨-, hspelled⟩
  · simp [isWordPart_of_isDigit hdigit] at hsymbol
  · simp [isWordPart_of_isWordStart hstart] at hsymbol
  · exact hspelled

/-- A symbol has one character or two. -/
lemma Lexeme.symbol_of_head {text : List Char} (h : Lexeme kind text) (hbegins : text <+: c :: s)
    (hsymbol : isWordPart c = false) :
    text = [c] ∧ Kind.ofSymbol? [c] = some kind ∨
      (∃ d u, s = d :: u ∧ text = [c, d]) ∧ Kind.ofSymbol? (c :: s.take 1) = some kind := by
  obtain ⟨hkind, hspelled⟩ := h.mem_symbols hbegins hsymbol
  have hfound := Kind.ofSymbol?_eq_some.2 ⟨hkind, hspelled⟩
  obtain ⟨hne, hlength, -⟩ := Kind.spelling_of_mem_symbols hkind hspelled
  match text with
  | [] => exact absurd rfl hne
  | [b] =>
    obtain ⟨rfl, -⟩ := List.cons_prefix_cons.1 hbegins
    exact .inl ⟨rfl, hfound⟩
  | [b, d] =>
    obtain ⟨rfl, v, rfl⟩ := List.cons_prefix_cons.1 hbegins
    exact .inr ⟨⟨d, v, rfl, rfl⟩, hfound⟩
  | _ :: _ :: _ :: _ => exact absurd hlength (by simp)

lemma lexeme?_of_symbol (hsymbol : isWordPart c = false) : lexeme? c s = symbol? c s := by
  have hstart : ¬ isWordStart c = true := fun h => by
    simp [isWordPart_of_isWordStart h] at hsymbol
  have hdigit : ¬ c.isDigit = true := fun h => by simp [isWordPart_of_isDigit h] at hsymbol
  rw [lexeme?, if_neg hstart, if_neg hdigit]

lemma longestLexeme_symbol {more : Nat} (hsymbol : isWordPart c = false)
    (h : symbol? c s = some (kind, more)) :
    ∃ t after, s = t ++ after ∧ more = t.length ∧ LongestLexeme kind (c :: t) after := by
  unfold symbol? at h
  split at h
  · rename_i found htwo
    obtain ⟨rfl, rfl⟩ := Prod.mk.inj (Option.some.inj h)
    have hspelled := (Kind.ofSymbol?_eq_some.1 htwo).2
    refine ⟨s.take 1, s.drop 1, (List.take_append_drop 1 s).symm, rfl, .fixed hspelled, ?_⟩
    intro other longer hlexeme hbegins
    rw [List.cons_append, List.take_append_drop] at hbegins
    rcases hlexeme.symbol_of_head hbegins hsymbol with ⟨rfl, -⟩ | ⟨⟨d, u, rfl, rfl⟩, -⟩
    · simp
    · simp
  · rename_i hnone
    obtain ⟨found, hone, heq⟩ := Option.map_eq_some_iff.1 h
    obtain ⟨rfl, rfl⟩ := Prod.mk.inj heq
    have hspelled := (Kind.ofSymbol?_eq_some.1 hone).2
    refine ⟨[], s, rfl, rfl, .fixed hspelled, ?_⟩
    intro other longer hlexeme hbegins
    rw [List.singleton_append] at hbegins
    rcases hlexeme.symbol_of_head hbegins hsymbol with ⟨rfl, -⟩ | ⟨-, htwo⟩
    · simp
    · rw [hnone] at htwo
      exact absurd htwo (by simp)

/-! ### All lexemes -/

/-- What `lexeme?` finds is the longest lexeme. -/
lemma longestLexeme_of_lexeme? {more : Nat} (h : lexeme? c s = some (kind, more)) :
    ∃ t after, s = t ++ after ∧ more = t.length ∧ LongestLexeme kind (c :: t) after := by
  by_cases hstart : isWordStart c = true
  · obtain ⟨t, after, rfl, ht, hafter⟩ := exists_run isWordPart s
    rw [lexeme?_word hstart ht hafter] at h
    obtain ⟨rfl, rfl⟩ := Prod.mk.inj (Option.some.inj h)
    exact ⟨t, after, rfl, rfl, longestLexeme_word hstart ht hafter⟩
  by_cases hdigit : c.isDigit = true
  · obtain ⟨t, after, rfl, ht, hafter⟩ := exists_run Char.isDigit s
    have hdigits : ∀ d ∈ c :: t, d.isDigit = true := by simpa [hdigit] using ht
    by_cases hpoint : StartsFraction after
    · obtain ⟨d, rest, rfl, hd⟩ := hpoint
      obtain ⟨u, after, rfl, hu, hafter⟩ := exists_run Char.isDigit rest
      have hdecimals : ∀ b ∈ d :: u, b.isDigit = true := by simpa [hd] using hu
      have hsource : t ++ '.' :: d :: (u ++ after) = t ++ '.' :: d :: u ++ after := by simp
      rw [hsource, lexeme?_fraction hdigits hdecimals hafter] at h
      obtain ⟨rfl, rfl⟩ := Prod.mk.inj (Option.some.inj h)
      exact ⟨_, after, hsource, rfl, longestLexeme_fraction hdigits hdecimals hafter⟩
    · rw [lexeme?_whole hdigits hafter hpoint] at h
      obtain ⟨rfl, rfl⟩ := Prod.mk.inj (Option.some.inj h)
      exact ⟨t, after, rfl, rfl, longestLexeme_whole hdigits hafter hpoint⟩
  · have hsymbol : isWordPart c = false := isWordPart_eq_false hstart hdigit
    rw [lexeme?_of_symbol hsymbol] at h
    exact longestLexeme_symbol hsymbol h

/-- Where any lexeme begins, `lexeme?` finds one. -/
lemma Lexeme.lexeme?_isSome {text : List Char} (h : Lexeme kind text) (hbegins : text <+: c :: s) :
    (lexeme? c s).isSome = true := by
  by_cases hstart : isWordStart c = true
  · simp [lexeme?, hstart]
  by_cases hdigit : c.isDigit = true
  · simp [lexeme?_of_digit hdigit]
  · have hsymbol : isWordPart c = false := isWordPart_eq_false hstart hdigit
    rw [lexeme?_of_symbol hsymbol, symbol?]
    rcases h.symbol_of_head hbegins hsymbol with ⟨-, hone⟩ | ⟨-, htwo⟩
    · rw [hone]
      split <;> rfl
    · rw [htwo]
      rfl

/-- `lexeme?` finds the longest lexeme that a source starts with, and nothing if there is none. -/
theorem lexeme?_eq_some : lexeme? c (t ++ after) = some (kind, t.length) ↔
    LongestLexeme kind (c :: t) after := by
  constructor
  · intro h
    obtain ⟨u, rest, heq, hlength, hlongest⟩ := longestLexeme_of_lexeme? h
    obtain ⟨rfl, rfl⟩ := List.append_inj heq hlength
    exact hlongest
  · intro h
    have hbegins : c :: t <+: c :: (t ++ after) := List.prefix_append (c :: t) after
    obtain ⟨⟨other, more⟩, hfound⟩ := Option.isSome_iff_exists.1 (h.lexeme.lexeme?_isSome hbegins)
    obtain ⟨u, rest, heq, rfl, hlongest⟩ := longestLexeme_of_lexeme? hfound
    obtain ⟨rfl, htext, -⟩ := h.unique hlongest (congrArg (c :: ·) heq)
    rw [hfound, (List.cons.inj htext).2]

end Scan

end ImpSyntax
