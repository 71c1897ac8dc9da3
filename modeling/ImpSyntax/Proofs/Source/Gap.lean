import ImpSyntax.Proofs.Source.Lexeme
import Mathlib.Data.List.Infix

/-!
# Gaps

What stands between lexemes is a gap: blanks, line comments and block comments in any number and
order.  Whether a text is a gap depends on what follows it, since a line comment goes on until the
line ends.

`Element.gap?` finds either all blanks that come next or a single comment, and
`Element.front?` prefers it to a lexeme.  `front?_eq_lexeme` says when a lexeme is found: it is the
longest one, and no comment begins where it does.
-/

namespace ImpSyntax

open Element

/-- The text is one blank, or a comment that ends where `after` begins. -/
inductive GapPart : List Char → List Char → Prop where
  | blank {c : Char} {after : List Char} (hblank : Text.isBlank c = true) : GapPart [c] after
  /-- Two slashes and the rest of their line. -/
  | lineComment {body after : List Char} (hbody : '\n' ∉ body)
      (hafter : ∀ c ∈ after.head?, c = '\n') : GapPart ('/' :: '/' :: body) after
  /-- A slash, a star and everything up to the first star and slash behind them. -/
  | blockComment {body after : List Char} (hfirst : ¬ ['*', '/'] <:+: body ++ ['*']) :
      GapPart ('/' :: '*' :: (body ++ ['*', '/'])) after

/-- The text consists of blanks and comments that end where `after` begins. -/
inductive Gap : List Char → List Char → Prop where
  | nil {after : List Char} : Gap [] after
  | append {part gap after : List Char} (hpart : GapPart part (gap ++ after))
      (hgap : Gap gap after) : Gap (part ++ gap) after

lemma Gap.of_part {part after : List Char} (h : GapPart part after) : Gap part after := by
  have hgap : Gap (part ++ []) after := .append h .nil
  rwa [List.append_nil] at hgap

lemma Gap.trans {gap other after : List Char} (h : Gap gap (other ++ after))
    (hother : Gap other after) : Gap (gap ++ other) after := by
  generalize hrest : other ++ after = rest at h
  induction h with
  | nil => exact hother
  | @append part gap _ hpart _ ih =>
    subst hrest
    rw [List.append_assoc]
    refine .append ?_ (ih rfl)
    rwa [List.append_assoc]

lemma Gap.of_blanks {t after : List Char} (ht : ∀ c ∈ t, Text.isBlank c = true) : Gap t after := by
  induction t with
  | nil => exact .nil
  | cons c t ih =>
    have hpart : GapPart [c] (t ++ after) := .blank (ht c List.mem_cons_self)
    exact .append hpart (ih fun d hd => ht d (List.mem_cons_of_mem c hd))

/-! ## Block comments -/

lemma commentLength?_cons {c : Char} {s : List Char} (h : ¬ ['*', '/'] <+: c :: s) :
    commentLength? (c :: s) = (commentLength? s).map (· + 1) := by
  conv_lhs => unfold commentLength?
  split
  · rename_i hnil
    exact absurd hnil (by simp)
  · rename_i rest heq
    rw [heq] at h
    exact absurd ⟨rest, rfl⟩ h
  · rename_i heq
    rw [(List.cons.inj heq).2]

/-- The first end of a comment is found. -/
lemma commentLength?_of_first {body after : List Char} (hfirst : ¬ ['*', '/'] <:+: body ++ ['*']) :
    commentLength? (body ++ '*' :: '/' :: after) = some (body.length + 2) := by
  induction body with
  | nil => rfl
  | cons c body ih =>
    have hrest : ¬ ['*', '/'] <:+: body ++ ['*'] :=
      fun h => hfirst (h.trans (List.suffix_cons c _).isInfix)
    have hnotEnd : ¬ ['*', '/'] <+: c :: (body ++ '*' :: '/' :: after) := by
      intro hbegins
      obtain ⟨hstar, hslash⟩ := List.cons_prefix_cons.1 hbegins
      cases body with
      | nil => exact absurd (List.cons_prefix_cons.1 hslash).1 (by decide)
      | cons d body =>
        have hd : '/' = d := (List.cons_prefix_cons.1 hslash).1
        exact hfirst ⟨[], body ++ ['*'], by simp [← hstar, ← hd]⟩
    rw [List.cons_append, commentLength?_cons hnotEnd, ih hrest]
    rfl

/-- What is found is the first end of a comment. -/
lemma commentLength?_eq_some {s : List Char} {n : Nat} (h : commentLength? s = some n) :
    ∃ body after, s = body ++ '*' :: '/' :: after ∧ n = body.length + 2 ∧
      ¬ ['*', '/'] <:+: body ++ ['*'] := by
  induction s generalizing n with
  | nil => exact absurd h (by simp [commentLength?])
  | cons c s ih =>
    by_cases hend : ['*', '/'] <+: c :: s
    · obtain ⟨after, heq⟩ := hend
      rw [← heq] at h ⊢
      exact ⟨[], after, rfl, (Option.some.inj h).symm, by decide⟩
    · rw [commentLength?_cons hend] at h
      obtain ⟨m, hm, rfl⟩ := Option.map_eq_some_iff.1 h
      obtain ⟨body, after, rfl, rfl, hfirst⟩ := ih hm
      refine ⟨c :: body, after, rfl, rfl, fun hinside => ?_⟩
      rcases List.infix_cons_iff.1 hinside with hbegins | hinside
      · have hsource : c :: (body ++ '*' :: '/' :: after) =
            c :: (body ++ ['*']) ++ '/' :: after := by simp
        rw [hsource] at hend
        exact hend (hbegins.trans (List.prefix_append _ _))
      · exact hfirst hinside

/-! ## The gap at the front -/

section Front

variable {c : Char} {s t after : List Char}

lemma gap?_blank (hc : Text.isBlank c = true) : gap? c s = some (runLength Text.isBlank s) := by
  unfold gap?
  exact if_pos hc

lemma gap?_line : gap? '/' ('/' :: s) = some (1 + runLength (· != '\n') s) := by
  unfold gap?
  exact if_neg (by decide)

lemma gap?_block : gap? '/' ('*' :: s) = (commentLength? s).map (1 + ·) := by
  unfold gap?
  exact if_neg (by decide)

/-- A part of a gap is a blank, or a comment that is found at the front. -/
lemma GapPart.cases_front {part : List Char} (h : GapPart part after) :
    (∃ c, part = [c] ∧ Text.isBlank c = true) ∨
      ∃ t, part = '/' :: t ∧ gap? '/' (t ++ after) = some t.length := by
  cases h with
  | blank hblank => exact .inl ⟨_, rfl, hblank⟩
  | @lineComment body after hbody hafter =>
    refine .inr ⟨'/' :: body, rfl, ?_⟩
    have hrun : runLength (· != '\n') (body ++ after) = body.length := by
      refine runLength_run (fun c hc => ?_) (fun c hc => ?_)
      · simpa using fun heq : c = '\n' => hbody (heq ▸ hc)
      · simp [hafter c hc]
    rw [List.cons_append, gap?_line, hrun, List.length_cons, Nat.add_comm]
  | @blockComment body after hfirst =>
    refine .inr ⟨'*' :: (body ++ ['*', '/']), rfl, ?_⟩
    have hlength : commentLength? (body ++ '*' :: '/' :: after) = some (body.length + 2) :=
      commentLength?_of_first hfirst
    have hsource : '*' :: (body ++ ['*', '/']) ++ after = '*' :: (body ++ '*' :: '/' :: after) := by
      simp
    rw [hsource, gap?_block, hlength]
    simp only [Option.map_some, List.length_cons, List.length_append, List.length_nil]
    congr 1
    omega

/-- What is found at the front is a gap. -/
lemma gap_of_gap? {more : Nat} (h : gap? c s = some more) :
    ∃ t after, s = t ++ after ∧ more = t.length ∧ Gap (c :: t) after := by
  unfold gap? at h
  split at h
  · rename_i hblank
    obtain ⟨t, after, rfl, ht, hafter⟩ := exists_run Text.isBlank s
    rw [runLength_run ht hafter] at h
    have hall : ∀ d ∈ c :: t, Text.isBlank d = true := by simpa [hblank] using ht
    exact ⟨t, after, rfl, (Option.some.inj h).symm, .of_blanks hall⟩
  · rename_i hnotBlank
    split at h
    · rename_i s
      obtain ⟨t, after, rfl, ht, hafter⟩ := exists_run (· != '\n') s
      rw [runLength_run ht hafter] at h
      refine ⟨'/' :: t, after, rfl, ?_, .of_part (.lineComment ?_ ?_)⟩
      · rw [← Option.some.inj h, List.length_cons, Nat.add_comm]
      · exact fun hmem => absurd (ht _ hmem) (by simp)
      · simpa using hafter
    · rename_i s
      obtain ⟨n, hn, rfl⟩ := Option.map_eq_some_iff.1 h
      obtain ⟨body, after, rfl, rfl, hfirst⟩ := commentLength?_eq_some hn
      refine ⟨'*' :: (body ++ ['*', '/']), after, by simp, ?_, .of_part (.blockComment hfirst)⟩
      simp only [List.length_cons, List.length_append, List.length_nil]
      omega
    · exact absurd h (by simp)

/-! ## The element at the front -/

/-- The text is the next lexeme of a source in which `after` follows it: the longest one, where no
comment begins. -/
structure NextLexeme (kind : Kind) (text after : List Char) : Prop
    extends LongestLexeme kind text after where
  noLineComment : ¬ ['/', '/'] <+: text ++ after
  noBlockComment : ¬ ['/', '*'] <+: text ++ after

lemma front?_of_gap? {more : Nat} (h : gap? c s = some more) :
    front? c s = some (.gap, more) := by
  rw [front?, h]

lemma gap?_of_front? {more : Nat} (h : front? c s = some (.gap, more)) : gap? c s = some more := by
  unfold front? at h
  split at h
  · rename_i found hgap
    obtain ⟨-, rfl⟩ := Prod.mk.inj (Option.some.inj h)
    exact hgap
  · split at h
    · exact absurd h (by simp)
    · obtain ⟨lexeme, -, heq⟩ := Option.map_eq_some_iff.1 h
      exact absurd (Prod.mk.inj heq).1 (by simp)

lemma gap?_eq_none (hblank : Text.isBlank c = false) (hline : ¬ ['/', '/'] <+: c :: s)
    (hblock : ¬ ['/', '*'] <+: c :: s) : gap? c s = none := by
  unfold gap?
  rw [if_neg (by simp [hblank])]
  split
  · exact absurd ⟨_, rfl⟩ hline
  · exact absurd ⟨_, rfl⟩ hblock
  · rfl

lemma opensComment_iff : opensComment c s = true ↔ ['/', '*'] <+: c :: s := by
  cases s with
  | nil => simp [opensComment]
  | cons d s =>
    rw [List.cons_prefix_cons, List.cons_prefix_cons, @eq_comm _ '/' c, @eq_comm _ '*' d]
    simp [opensComment]

/-- The next lexeme is found. -/
lemma NextLexeme.front? {kind : Kind} (h : NextLexeme kind (c :: t) after) :
    front? c (t ++ after) = some (.lexeme kind, t.length) := by
  have hblank := h.lexeme.not_blank c List.mem_cons_self
  have hopens : ¬ opensComment c (t ++ after) = true := fun hopens =>
    h.noBlockComment (opensComment_iff.1 hopens)
  have hgap : gap? c (t ++ after) = none :=
    gap?_eq_none hblank h.noLineComment h.noBlockComment
  rw [Element.front?, hgap]
  dsimp only
  rw [if_neg hopens, lexeme?_eq_some.2 h.toLongestLexeme]
  rfl

/-- What is found as a lexeme is the next lexeme. -/
lemma nextLexeme_of_front? {kind : Kind} {more : Nat}
    (h : front? c s = some (.lexeme kind, more)) :
    ∃ t after, s = t ++ after ∧ more = t.length ∧ NextLexeme kind (c :: t) after := by
  unfold front? at h
  split at h
  · exact absurd (Prod.mk.inj (Option.some.inj h)).1 (by simp)
  · rename_i hgap
    split at h
    · exact absurd h (by simp)
    · rename_i hopens
      obtain ⟨⟨found, length⟩, hfound, heq⟩ := Option.map_eq_some_iff.1 h
      obtain ⟨hkind, rfl⟩ := Prod.mk.inj heq
      obtain rfl := Role.lexeme.inj hkind
      obtain ⟨t, after, rfl, rfl, hlongest⟩ := longestLexeme_of_lexeme? hfound
      refine ⟨t, after, rfl, rfl, hlongest, ?_, fun hbegins => hopens (opensComment_iff.2 hbegins)⟩
      rintro ⟨rest, heq⟩
      obtain ⟨rfl, hslash⟩ : '/' = c ∧ '/' :: rest = t ++ after := List.cons.inj heq
      rw [← hslash, gap?_line] at hgap
      exact absurd hgap (by simp)

end Front

end ImpSyntax
