import ImpSyntax.Proofs.Cursor.Place
import ImpSyntax.Proofs.Grammar.Unfolding
import ImpSyntax.Proofs.Number.Meaning
import ImpSyntax.Proofs.Source.Layout

/-!
# The conversion of numbers

A number token is converted where it is taken as an operand.  If its text denotes nothing, the
token is refused as a malformed number (`Cursor.AtNumber.refuses_iff`); otherwise it gets the value
of what the text denotes (`Cursor.AtNumber.converts_iff`).  For a rational that is the value it is
rounded to (`Meaning.HasValue`).  A text denotes one thing at most, and what is denoted has one
value, so this says what becomes of any number token, whether it comes from a source or not.

The numbers of a source denote rationals without a minus.  Therefore their values are in the order
of what they denote (`Meaning.HasValue.le`), and two spellings of a rational have the same value.

The main result is `number_conversion`, which also says what the finite values are.
-/

namespace ImpSyntax

open Binary64 Grammar Rule

/-- What is denoted has the value in the format. -/
inductive Meaning.HasValue : Meaning → Binary64 → Prop where
  | nan : HasValue .nan .nan
  | infinite (negative : Bool) : HasValue (.infinite negative) (.infinite negative)
  | number {negative : Bool} {magnitude : ℚ} {value : Binary64}
      (hrounds : Rounds negative magnitude value) : HasValue (.number negative magnitude) value

variable {meaning other : Meaning} {value : Binary64} {text : String} {token : Token}
  {cursor : Cursor}

/-! ## Meanings and values -/

lemma Meaning.HasValue.unique {w : Binary64} (h : meaning.HasValue value)
    (hw : meaning.HasValue w) : value = w := by
  cases h with
  | nan | infinite =>
    cases hw
    rfl
  | number hrounds =>
    cases hw with
    | number hother => exact hrounds.unique hother

lemma Numeral.hasValue (n : Numeral) : n.meaning.HasValue n.value := by
  cases n with
  | nan => exact .nan
  | infinite negative => exact .infinite negative
  | decimal d => exact .number d.rounds_toBinary64

lemma numberValue?_eq_none :
    numberValue? text = none ↔ ∀ meaning, ¬ Numeral.Denotes text.toList meaning := by
  simp only [numberValue?, Option.map_eq_none_iff, Numeral.denotes_iff_read?]
  cases Numeral.read? text.toList with
  | none => simp
  | some n => simp

lemma numberValue?_eq_some (h : Numeral.Denotes text.toList meaning) :
    numberValue? text = some value ↔ meaning.HasValue value := by
  obtain ⟨n, hread, rfl⟩ := Numeral.denotes_iff_read?.1 h
  rw [numberValue?, hread, Option.map_some, Option.some_inj]
  refine ⟨?_, n.hasValue.unique⟩
  rintro rfl
  exact n.hasValue

lemma Numeral.Denotes.exists_value (h : Denotes text.toList meaning) :
    ∃ value, meaning.HasValue value := by
  obtain ⟨n, -, rfl⟩ := denotes_iff_read?.1 h
  exact ⟨n.value, n.hasValue⟩

/-! ## Taking a number -/

namespace Cursor

/-- The next token is the given one, and it is a number. -/
structure AtNumber (cursor : Cursor) (token : Token) : Prop where
  next : cursor.tokens[cursor.position]? = some token
  kind : token.kind = .number

/-- The next token is read as a number with the given value, and the cursor moves past it. -/
def Converts (cursor : Cursor) (token : Token) (value : Binary64) : Prop :=
  cursor.act (.read .primary) =
    (.phrase (.expression (.number value token)), cursor.forward 1)

/-- The next token is no number for its text, and the cursor moves past it. -/
def Refuses (cursor : Cursor) (token : Token) : Prop :=
  cursor.act (.read .primary) =
    (.failure ⟨.malformedNumber token.text, some token.line⟩, cursor.forward 1)

namespace AtNumber

variable (h : cursor.AtNumber token)
include h

lemma exists_ahead :
    ∃ rest, cursor.ahead = token :: rest ∧ cursor.moveTo rest = cursor.forward 1 := by
  have hbounds : cursor.InBounds := (List.getElem?_eq_some_iff.1 h.next).1.le
  obtain ⟨rest, hahead⟩ := List.head?_eq_some_iff.1 (head?_ahead.trans h.next)
  exact ⟨rest, hahead, moveTo_eq_forward hbounds (show _ = [token] ++ rest from hahead)⟩

lemma converts (hvalue : numberValue? token.text = some value) : cursor.Converts token value := by
  obtain ⟨rest, hahead, hmove⟩ := h.exists_ahead
  have hprimary : Grammar.primary cursor.ahead = .done (.number value token) rest := by
    rw [hahead, primary_of_number h.kind, hvalue]
    rfl
  have hrun : Production.primary.rule cursor.ahead =
      .done (.expression (.number value token)) rest :=
    bind_pure_eq_done.2 ⟨_, hprimary, rfl⟩
  rw [Converts, act, answer_of_done hrun, hmove]

lemma refuses (hvalue : numberValue? token.text = none) : cursor.Refuses token := by
  obtain ⟨rest, hahead, hmove⟩ := h.exists_ahead
  have hprimary : Grammar.primary cursor.ahead =
      .failed ⟨.malformedNumber token.text, some token.line⟩ rest := by
    rw [hahead, primary_of_number h.kind, hvalue]
    rfl
  have hrun : Production.primary.rule cursor.ahead =
      .failed ⟨.malformedNumber token.text, some token.line⟩ rest :=
    bind_pure_eq_failed.2 hprimary
  rw [Refuses, act, answer_of_failed hrun, hmove]

/-- A number is refused just if its text denotes nothing. -/
lemma refuses_iff :
    cursor.Refuses token ↔ ∀ meaning, ¬ Numeral.Denotes token.text.toList meaning := by
  rw [← numberValue?_eq_none]
  refine ⟨fun hrefuses => ?_, h.refuses⟩
  cases hvalue : numberValue? token.text with
  | none => rfl
  | some value =>
    have hconverts := h.converts hvalue
    rw [Converts, hrefuses] at hconverts
    simp at hconverts

/-- A number is converted to the value of what its text denotes. -/
lemma converts_iff (hdenotes : Numeral.Denotes token.text.toList meaning) :
    cursor.Converts token value ↔ meaning.HasValue value := by
  obtain ⟨v, hv⟩ := hdenotes.exists_value
  have hconverts := h.converts ((numberValue?_eq_some hdenotes).2 hv)
  refine ⟨fun hvalue => ?_, fun hvalue => hvalue.unique hv ▸ hconverts⟩
  rw [Converts, hconverts] at hvalue
  have heq : v = value := by simpa using hvalue
  rwa [← heq]

end AtNumber

/-! ## Numbers of sources -/

/-- The tokens are those of a source. -/
def FromSource (cursor : Cursor) : Prop :=
  ∃ source, tokenize source = .ok cursor.tokens

lemma AtNumber.denotes_of_fromSource (h : cursor.AtNumber token) (hsource : cursor.FromSource) :
    ∃ magnitude, Numeral.Denotes token.text.toList (.number false magnitude) := by
  obtain ⟨source, htokenize⟩ := hsource
  have hlexeme := lexeme_of_tokenize htokenize token (List.mem_of_getElem? h.next)
  rw [h.kind] at hlexeme
  obtain ⟨d, hsign, hread⟩ := Numeral.read?_of_lexeme hlexeme
  exact ⟨d.magnitude, hsign ▸ Numeral.denotes_of_read? hread⟩

end Cursor

/-- The values of numbers without a minus are in the order of the numbers. -/
lemma Meaning.HasValue.le {x y : ℚ} {w : Binary64} (h : HasValue (.number false x) value)
    (hw : HasValue (.number false y) w) (hle : x ≤ y) : value.le w := by
  cases h with
  | number hrounds =>
    cases hw with
    | number hother => exact hrounds.mono hother hle

/-! ## The conversion of numbers -/

/-- A text denotes one thing at most.  Whatever tokens a number token stands among, it is refused if
its text denotes nothing, and otherwise converted to the value of what the text denotes, of which
there is exactly one.  The finite magnitudes are, in ascending order, the numbers of 53 bits with an
exponent of the format, and the subnormal ones are those below `2 ^ -1022`.  The numbers of sources
denote rationals without a minus, and their values are in the order of these rationals. -/
theorem number_conversion :
    (∀ s meaning other, Numeral.Denotes s meaning → Numeral.Denotes s other →
      meaning = other) ∧
    (∀ (cursor : Cursor) token, cursor.AtNumber token →
      (cursor.Refuses token ↔ ∀ meaning, ¬ Numeral.Denotes token.text.toList meaning) ∧
      ∀ meaning, Numeral.Denotes token.text.toList meaning →
        (∃! value, meaning.HasValue value) ∧
        ∀ value, cursor.Converts token value ↔ meaning.HasValue value) ∧
    (StrictMono Binary64.value ∧
      (∀ q, (∃ rank < finiteRanks, Binary64.value rank = q) ↔
        ∃ significand : ℕ, significand < 2 ^ 53 ∧ ∃ doublings : ℕ, doublings ≤ 2045 ∧
          q = significand * 2 ^ ((doublings : ℤ) - 1074)) ∧
      ∀ rank, rank < 2 ^ 52 ↔ Binary64.value rank < 2 ^ (-1022 : ℤ)) ∧
    ∀ (cursor other : Cursor) t u, cursor.FromSource → cursor.AtNumber t →
      other.FromSource → other.AtNumber u →
        ∃ x y v w, Numeral.Denotes t.text.toList (.number false x) ∧ cursor.Converts t v ∧
          Numeral.Denotes u.text.toList (.number false y) ∧ other.Converts u w ∧
          (x ≤ y → v.le w) ∧ (x = y → v = w) := by
  refine ⟨fun _ _ _ => Numeral.Denotes.unique, fun cursor token h => ⟨h.refuses_iff, ?_⟩,
    ⟨value_strictMono, fun _ => exists_rank_iff, fun _ => subnormal_iff⟩, ?_⟩
  · intro meaning hdenotes
    obtain ⟨value, hvalue⟩ := hdenotes.exists_value
    exact ⟨⟨value, hvalue, fun _ hother => hother.unique hvalue⟩,
      fun _ => h.converts_iff hdenotes⟩
  · intro cursor other t u hsource ht hsourceOther hu
    obtain ⟨x, hx⟩ := ht.denotes_of_fromSource hsource
    obtain ⟨y, hy⟩ := hu.denotes_of_fromSource hsourceOther
    obtain ⟨v, hv⟩ := hx.exists_value
    obtain ⟨w, hw⟩ := hy.exists_value
    refine ⟨x, y, v, w, hx, (ht.converts_iff hx).2 hv, hy, (hu.converts_iff hy).2 hw,
      hv.le hw, ?_⟩
    rintro rfl
    exact hv.unique hw

/-- An exponent without digits, a zero with a minus, and a source with the same number in two
spellings. -/
theorem number_conversion_samples :
    (Cursor.start [⟨.number, "1e", 3⟩]).AtNumber ⟨.number, "1e", 3⟩ ∧
      (∀ meaning, ¬ Numeral.Denotes "1e".toList meaning) ∧
      (Cursor.start [⟨.number, "-0", 1⟩]).AtNumber ⟨.number, "-0", 1⟩ ∧
      Numeral.Denotes "-0".toList (.number true 0) ∧
      Meaning.HasValue (.number true 0) (.zero true) ∧
      tokenize "1 1.0" = .ok [⟨.number, "1", 1⟩, ⟨.number, "1.0", 1⟩] ∧
      ∃ value, (Cursor.mk [⟨.number, "1", 1⟩, ⟨.number, "1.0", 1⟩] 0).Converts
          ⟨.number, "1", 1⟩ value ∧
        (Cursor.mk [⟨.number, "1", 1⟩, ⟨.number, "1.0", 1⟩] 1).Converts
          ⟨.number, "1.0", 1⟩ value := by
  obtain ⟨hunique, hconversion, -, hsources⟩ := number_conversion
  have hmalformed : (Cursor.start [⟨.number, "1e", 3⟩]).AtNumber ⟨.number, "1e", 3⟩ := ⟨rfl, rfl⟩
  have hminus : (Cursor.start [⟨.number, "-0", 1⟩]).AtNumber ⟨.number, "-0", 1⟩ := ⟨rfl, rfl⟩
  have hzero : Numeral.Denotes "-0".toList (.number true 0) := by
    simpa [Numeral.pointed, Nat.ofDigitChars_cons] using
      @Numeral.Denotes.number ['-'] ['0'] [] [] [] true 0 .minus (by simp) (.inr ⟨rfl, rfl⟩)
        (by simp) (.inl (by simp)) .none
  have hone : Numeral.Denotes "1".toList (.number false 1) := by
    simpa [Numeral.pointed, Nat.ofDigitChars_cons] using
      @Numeral.Denotes.number [] ['1'] [] [] [] false 0 .none (by simp) (.inr ⟨rfl, rfl⟩)
        (by simp) (.inl (by simp)) .none
  have honePointed : Numeral.Denotes "1.0".toList (.number false 1) := by
    simpa [Numeral.pointed, Nat.ofDigitChars_cons] using
      @Numeral.Denotes.number [] ['1'] ['.'] ['0'] [] false 0 .none (by simp) (.inl rfl)
        (by simp) (.inl (by simp)) .none
  have htokens : tokenize "1 1.0" = .ok [⟨.number, "1", 1⟩, ⟨.number, "1.0", 1⟩] := by
    decide +kernel
  obtain ⟨x, y, v, w, hx, hv, hy, hw, -, hsame⟩ := hsources
    (Cursor.mk [⟨.number, "1", 1⟩, ⟨.number, "1.0", 1⟩] 0)
    (Cursor.mk [⟨.number, "1", 1⟩, ⟨.number, "1.0", 1⟩] 1) _ _ ⟨_, htokens⟩ ⟨rfl, rfl⟩
    ⟨_, htokens⟩ ⟨rfl, rfl⟩
  have hequal : x = y := by
    obtain rfl : 1 = x := by simpa using hunique _ _ _ hone hx
    simpa using hunique _ _ _ honePointed hy
  exact ⟨hmalformed, (hconversion _ _ hmalformed).1.1 rfl, hminus, hzero,
    (((hconversion _ _ hminus).2 _ hzero).2 _).1 rfl, htokens, v, hv, hsame hequal ▸ hw⟩

end ImpSyntax
