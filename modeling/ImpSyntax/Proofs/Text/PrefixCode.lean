import ImpSyntax.Text.Quoted
import Mathlib.Data.List.Basic

/-!
# Texts that can be told apart from what follows them

A way to write values as texts is a prefix code if a text that begins with a written value begins
with one value only.  Then what is written can be read back, also when more text follows: a value
before another one (`IsPrefixCode.pair`), and many values up to a mark that none of them begins with
(`IsPrefixCode.many`).

Quoting is a prefix code (`isPrefixCode_quoted`).  An escape either names a character by a letter or
by its code point up to the closing brace, or is a character that begins no other escape; and none
begins with the closing quote.  For this it does not matter which characters need a code.
-/

namespace ImpSyntax

variable {α β : Type}

/-- A text begins with the code of one value at most. -/
def IsPrefixCode (code : α → List Char) : Prop :=
  ∀ ⦃a b s t⦄, code a ++ s = code b ++ t → a = b ∧ s = t

namespace IsPrefixCode

variable {code : α → List Char} {other : β → List Char}

lemma injective (h : IsPrefixCode code) : Function.Injective code := fun _ _ heq =>
  (h (congrArg (· ++ []) heq)).1

/-- One value written behind another. -/
lemma pair (h : IsPrefixCode code) (hother : IsPrefixCode other) :
    IsPrefixCode fun value : α × β => code value.1 ++ other value.2 := by
  rintro ⟨a, c⟩ ⟨b, d⟩ s t heq
  simp only [List.append_assoc] at heq
  obtain ⟨rfl, hrest⟩ := h heq
  obtain ⟨rfl, rfl⟩ := hother hrest
  exact ⟨rfl, rfl⟩

/-- Fixed text in front of a value. -/
lemma behind (h : IsPrefixCode code) (front : List Char) :
    IsPrefixCode fun a => front ++ code a := by
  intro a b s t heq
  simp only [List.append_assoc] at heq
  exact h (List.append_cancel_left heq)

/-- Fixed text behind a value. -/
lemma before (h : IsPrefixCode code) (back : List Char) :
    IsPrefixCode fun a => code a ++ back := by
  intro a b s t heq
  simp only [List.append_assoc] at heq
  obtain ⟨rfl, hrest⟩ := h heq
  exact ⟨rfl, List.append_cancel_left hrest⟩

lemma comp (h : IsPrefixCode code) {f : β → α} (hf : Function.Injective f) :
    IsPrefixCode fun b => code (f b) := by
  intro a b s t heq
  obtain ⟨hvalue, hrest⟩ := h heq
  exact ⟨hf hvalue, hrest⟩

/-- A mark ends a text that it does not occur in. -/
lemma eq_of_append_mark {front other rest more : List Char} {mark : Char} (hfront : mark ∉ front)
    (hother : mark ∉ other) (h : front ++ mark :: rest = other ++ mark :: more) :
    front = other ∧ rest = more := by
  rcases List.append_eq_append_iff.1 h with ⟨between, rfl, hrest⟩ | ⟨between, rfl, hmore⟩
  · rcases List.cons_eq_append_iff.1 hrest with ⟨rfl, hmark⟩ | ⟨between, rfl, -⟩
    · exact ⟨(List.append_nil _).symm, (List.cons.inj hmark).2.symm⟩
    · exact absurd (List.mem_append_right _ List.mem_cons_self) hother
  · rcases List.cons_eq_append_iff.1 hmore with ⟨rfl, hmark⟩ | ⟨between, rfl, -⟩
    · exact ⟨List.append_nil _, (List.cons.inj hmark).2⟩
    · exact absurd (List.mem_append_right _ List.mem_cons_self) hfront

/-- Texts without the mark that is put behind them. -/
lemma marked {mark : Char} (hinjective : Function.Injective code) (hmark : ∀ a, mark ∉ code a) :
    IsPrefixCode fun a => code a ++ [mark] := by
  intro a b s t heq
  simp only [List.append_assoc, List.singleton_append] at heq
  obtain ⟨hcode, hrest⟩ := eq_of_append_mark (hmark a) (hmark b) heq
  exact ⟨hinjective hcode, hrest⟩

/-- Any number of values in a row, up to a mark that none of them begins with. -/
lemma many {mark : Char} (h : IsPrefixCode code)
    (hhead : ∀ a, ∃ c s, code a = c :: s ∧ c ≠ mark) :
    IsPrefixCode fun values : List α => values.flatMap code ++ [mark] := by
  have hmark : ∀ a s t, code a ++ s ≠ mark :: t := by
    intro a s t heq
    obtain ⟨c, front, hcode, hc⟩ := hhead a
    rw [hcode] at heq
    exact hc (List.cons.inj heq).1
  intro as bs s t heq
  induction as generalizing bs with
  | nil =>
    cases bs with
    | nil => exact ⟨rfl, (List.cons.inj heq).2⟩
    | cons b bs =>
      simp only [List.flatMap_cons, List.append_assoc] at heq
      exact absurd heq.symm (hmark b _ _)
  | cons a as ih =>
    cases bs with
    | nil =>
      simp only [List.flatMap_cons, List.append_assoc] at heq
      exact absurd heq (hmark a _ _)
    | cons b bs =>
      simp only [List.flatMap_cons, List.append_assoc] at heq
      obtain ⟨rfl, hrest⟩ := h heq
      obtain ⟨rfl, rfl⟩ := ih (by simpa using hrest)
      exact ⟨rfl, rfl⟩

end IsPrefixCode

namespace Text

/-! ## Digits -/

lemma digitChar_inj {m n : Nat} (hm : m < 16) (hn : n < 16) (h : m.digitChar = n.digitChar) :
    m = n := by
  have hall : ∀ m < 16, ∀ n < 16, m.digitChar = n.digitChar → m = n := by decide
  exact hall m hm n hn h

lemma hexDigits_of_lt {n : Nat} (h : n < 16) : hexDigits n = [n.digitChar] :=
  Nat.toDigits_of_lt_base h

lemma hexDigits_of_le {n : Nat} (h : 16 ≤ n) :
    hexDigits n = hexDigits (n / 16) ++ [(n % 16).digitChar] :=
  Nat.toDigits_of_base_le (by decide) h

lemma hexDigits_ne_nil (n : Nat) : hexDigits n ≠ [] :=
  Nat.toDigits_ne_nil

lemma hexDigits_injective : Function.Injective hexDigits := by
  intro m n heq
  induction m using Nat.strongRecOn generalizing n with
  | _ m ih =>
    -- a number of one digit has no digits in front of it
    have hlength : ∀ {k : Nat} {c d : Char}, [c] ≠ hexDigits k ++ [d] := by
      intro k c d h
      rw [← List.nil_append [c]] at h
      exact hexDigits_ne_nil k (List.append_inj' h rfl).1.symm
    rcases Nat.lt_or_ge m 16 with hm | hm <;> rcases Nat.lt_or_ge n 16 with hn | hn
    · rw [hexDigits_of_lt hm, hexDigits_of_lt hn] at heq
      exact digitChar_inj hm hn (List.singleton_inj.1 heq)
    · rw [hexDigits_of_lt hm, hexDigits_of_le hn] at heq
      exact absurd heq hlength
    · rw [hexDigits_of_le hm, hexDigits_of_lt hn] at heq
      exact absurd heq.symm hlength
    · rw [hexDigits_of_le hm, hexDigits_of_le hn] at heq
      obtain ⟨hfront, hlast⟩ := List.append_inj' heq rfl
      have hdiv : m / 16 = n / 16 := ih _ (Nat.div_lt_self (by omega) (by decide)) hfront
      have hmod : m % 16 = n % 16 := digitChar_inj (Nat.mod_lt _ (by decide))
        (Nat.mod_lt _ (by decide)) (List.singleton_inj.1 hlast)
      omega

lemma brace_not_mem_hexDigits (n : Nat) : '\x7d' ∉ hexDigits n := by
  have hdigit : ∀ n < 16, n.digitChar ≠ '\x7d' := by decide
  induction n using Nat.strongRecOn with
  | _ n ih =>
    rcases Nat.lt_or_ge n 16 with hn | hn
    · rw [hexDigits_of_lt hn, List.mem_singleton]
      exact (hdigit n hn).symm
    · rw [hexDigits_of_le hn, List.mem_append, List.mem_singleton, not_or]
      exact ⟨ih _ (Nat.div_lt_self (by omega) (by decide)),
        (hdigit _ (Nat.mod_lt _ (by decide))).symm⟩

/-- Code points up to the closing brace. -/
lemma isPrefixCode_codePoint : IsPrefixCode fun c : Char => hexDigits c.toNat ++ ['\x7d'] :=
  .marked (hexDigits_injective.comp fun _ _ => Char.toNat_inj.1) fun _ => brace_not_mem_hexDigits _

/-! ## Escapes -/

/-- The characters that are written as a backslash and a letter, with that letter. -/
def named : List (Char × Char) :=
  [('\x00', '0'), ('\t', 't'), ('\n', 'n'), ('\r', 'r'), ('"', '"'), ('\\', '\\')]

/-- How a character stands between quotes. -/
inductive Escape (c : Char) : List Char → Prop where
  | letter {letter : Char} (h : (c, letter) ∈ named) : Escape c ['\\', letter]
  | code : Escape c ('\\' :: 'u' :: '\x7b' :: (hexDigits c.toNat ++ ['\x7d']))
  | plain (hquote : c ≠ '"') (hbackslash : c ≠ '\\') : Escape c [c]

lemma escape_spec (c : Char) : Escape c (escape c) := by
  unfold escape
  split
  case h_7 hquote hbackslash =>
    split
    · exact .code
    · exact .plain hquote hbackslash
  all_goals exact .letter (by decide)

/-- The letters are told apart, from each other and from the one that announces a code. -/
lemma named_unique : (∀ pair ∈ named, pair.2 ≠ 'u') ∧
    ∀ pair ∈ named, ∀ other ∈ named, pair.2 = other.2 → pair.1 = other.1 := by
  decide

lemma Escape.eq_of_append {c d : Char} {code other s t : List Char} (h : Escape c code)
    (hother : Escape d other) (heq : code ++ s = other ++ t) : c = d ∧ s = t := by
  obtain ⟨hcode, hletter⟩ := named_unique
  -- both begin with a backslash, or neither does
  cases h with
  | letter hnamed =>
    cases hother with
    | letter hother =>
      obtain ⟨heq, hrest⟩ := List.cons.inj (List.cons.inj heq).2
      exact ⟨hletter _ hnamed _ hother heq, hrest⟩
    | code => exact absurd (List.cons.inj (List.cons.inj heq).2).1 (hcode _ hnamed)
    | plain _ hbackslash => exact absurd (List.cons.inj heq).1.symm hbackslash
  | code =>
    cases hother with
    | letter hother =>
      exact absurd (List.cons.inj (List.cons.inj heq).2).1.symm (hcode _ hother)
    | code =>
      exact isPrefixCode_codePoint (List.cons.inj (List.cons.inj (List.cons.inj heq).2).2).2
    | plain _ hbackslash => exact absurd (List.cons.inj heq).1.symm hbackslash
  | plain _ hbackslash =>
    cases hother with
    | letter | code => exact absurd (List.cons.inj heq).1 hbackslash
    | plain => exact List.cons.inj heq

lemma isPrefixCode_escape : IsPrefixCode escape := fun c d _ _ =>
  (escape_spec c).eq_of_append (escape_spec d)

/-- An escape begins with a backslash, or is a character that is no quote. -/
lemma Escape.exists_cons {c : Char} {code : List Char} (h : Escape c code) :
    ∃ d s, code = d :: s ∧ d ≠ '"' := by
  cases h with
  | letter | code => exact ⟨_, _, rfl, by decide⟩
  | plain hquote => exact ⟨_, _, rfl, hquote⟩

/-- Quoted text can be told apart from what follows it. -/
theorem isPrefixCode_quoted : IsPrefixCode fun s : String => (quoted s).toList := by
  have hescapes : IsPrefixCode fun s : List Char => s.flatMap escape ++ ['"'] :=
    isPrefixCode_escape.many (fun c => (escape_spec c).exists_cons)
  have hquote : IsPrefixCode quote := hescapes.behind ['"']
  simpa only [quoted, String.toList_ofList] using hquote.comp fun _ _ => String.toList_injective

end Text

end ImpSyntax
