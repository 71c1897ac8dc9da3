import ImpSyntax.Text.Blank
import ImpSyntax.Text.Lines
import Mathlib.Data.List.Basic
import Mathlib.Data.List.DropRight

/-!
# The line that a text stands on

`Text.line?` finds a line by its number, and a number is found by counting the line feeds before a
place.  The two agree: the line with that number is the one around the place
(`line?_eq_lineAround`).  `lineAround` says which one that is without a number, from one line feed
to the next.

The source before a place is cut behind its last line feed for this.  The part up to there
`StartsLine`, and it has as many lines as line feeds.
-/

namespace ImpSyntax.Text

/-- A line without the carriage return that it may end in. -/
def withoutReturn (line : List Char) : List Char :=
  if line.getLast? = some '\r' then line.dropLast else line

/-- The line that a text stands on, with what is before it and after it in the source.  A carriage
return at its end belongs to the break if there is one. -/
def lineAround (before text after : List Char) : List Char :=
  let line := before.rtakeWhile (· != '\n') ++ text ++ after.takeWhile (· != '\n')
  if '\n' ∈ after then withoutReturn line else line

variable {c : Char} {s line before text after : List Char}

/-! ## Lines one by one -/

lemma lines_cons (hc : c ≠ '\n') (hreturn : ¬ (c = '\r' ∧ s.head? = some '\n')) :
    lines (c :: s) = consLine c (lines s) := by
  rw [lines]
  · exact hc
  · rintro t rfl rfl
    exact hreturn ⟨rfl, rfl⟩

lemma withoutReturn_cons (h : ¬ (c = '\r' ∧ line = [])) :
    withoutReturn (c :: line) = c :: withoutReturn line := by
  cases line with
  | nil =>
    have hc : c ≠ '\r' := fun hc => h ⟨hc, rfl⟩
    simp [withoutReturn, hc]
  | cons d line =>
    rw [withoutReturn, withoutReturn, List.getLast?_cons_cons, List.dropLast_cons_cons]
    split <;> rfl

/-- A line with its break is the first line of a text. -/
lemma lines_append_break (hline : '\n' ∉ line) :
    lines (line ++ '\n' :: s) = withoutReturn line :: lines s := by
  induction line with
  | nil => rfl
  | cons c line ih =>
    rw [List.mem_cons, not_or] at hline
    by_cases hreturn : c = '\r' ∧ line = []
    · obtain ⟨rfl, rfl⟩ := hreturn
      rfl
    · have hhead : ¬ (c = '\r' ∧ (line ++ '\n' :: s).head? = some '\n') := by
        rintro ⟨rfl, hhead⟩
        cases line with
        | nil => exact hreturn ⟨rfl, rfl⟩
        | cons d line =>
          obtain rfl : d = '\n' := Option.some.inj hhead
          exact hline.2 List.mem_cons_self
      rw [List.cons_append, lines_cons (Ne.symm hline.1) hhead, ih hline.2,
        withoutReturn_cons hreturn]
      rfl

/-- A text without a break is its only line. -/
lemma lines_of_no_break (hne : line ≠ []) (hline : '\n' ∉ line) : lines line = [line] := by
  induction line with
  | nil => exact absurd rfl hne
  | cons c line ih =>
    rw [List.mem_cons, not_or] at hline
    have hhead : ¬ (c = '\r' ∧ line.head? = some '\n') :=
      fun h => hline.2 (List.mem_of_head? h.2)
    rw [lines_cons (Ne.symm hline.1) hhead]
    cases line with
    | nil => rfl
    | cons d line =>
      rw [ih (List.cons_ne_nil d line) hline.2]
      rfl

/-- No line has a line feed. -/
lemma not_mem_of_mem_lines {s line : List Char} (h : line ∈ lines s) : '\n' ∉ line := by
  fun_induction lines s generalizing line with
  | case1 => exact absurd h List.not_mem_nil
  | case2 s ih =>
    rcases List.mem_cons.1 h with rfl | hmem
    · exact List.not_mem_nil
    · exact ih hmem
  | case3 s ih =>
    rcases List.mem_cons.1 h with rfl | hmem
    · exact List.not_mem_nil
    · exact ih hmem
  | case4 c s hc _ ih =>
    have hbreak : '\n' ≠ c := fun heq => hc heq.symm
    cases hlines : lines s with
    | nil =>
      rw [hlines, consLine, List.mem_singleton] at h
      rw [h, List.mem_singleton]
      exact hbreak
    | cons first rest =>
      rw [hlines, consLine] at h
      rw [hlines] at ih
      rcases List.mem_cons.1 h with rfl | hmem
      · rw [List.mem_cons, not_or]
        exact ⟨hbreak, ih List.mem_cons_self⟩
      · exact ih (List.mem_cons_of_mem _ hmem)

/-! ## Whole lines before a place -/

/-- A line starts after the text: it is empty or ends in a line feed. -/
inductive StartsLine : List Char → Prop where
  | nil : StartsLine []
  | line {line before : List Char} (hline : '\n' ∉ line) (hbefore : StartsLine before) :
      StartsLine (line ++ '\n' :: before)

lemma exists_startsLine (s : List Char) :
    ∃ before line, s = before ++ line ∧ StartsLine before ∧ '\n' ∉ line := by
  induction s with
  | nil => exact ⟨[], [], rfl, .nil, List.not_mem_nil⟩
  | cons c s ih =>
    obtain ⟨before, line, rfl, hbefore, hline⟩ := ih
    by_cases hc : c = '\n'
    · exact ⟨c :: before, line, rfl, hc ▸ .line List.not_mem_nil hbefore, hline⟩
    · cases hbefore with
      | nil => exact ⟨[], c :: line, rfl, .nil, by simpa [Ne.symm hc] using hline⟩
      | @line first before hfirst hbefore =>
        have hcons : '\n' ∉ c :: first := by simpa [Ne.symm hc] using hfirst
        exact ⟨c :: (first ++ '\n' :: before), line, rfl, .line hcons hbefore, hline⟩

lemma StartsLine.lines_append (h : StartsLine before) :
    lines (before ++ s) = lines before ++ lines s := by
  induction h with
  | nil => rfl
  | line hline _ ih =>
    rw [List.append_assoc, List.cons_append, lines_append_break hline, lines_append_break hline, ih,
      List.cons_append]

lemma StartsLine.length_lines (h : StartsLine before) :
    (lines before).length = before.count '\n' := by
  induction h with
  | nil => rfl
  | line hline _ ih =>
    rw [lines_append_break hline, List.length_cons, ih, List.count_append,
      List.count_eq_zero.2 hline, List.count_cons_self, Nat.zero_add]

lemma StartsLine.eq_nil_or (h : StartsLine before) : before = [] ∨ ∃ s, before = s ++ ['\n'] := by
  induction h with
  | nil => exact .inl rfl
  | @line line before _ _ ih =>
    rcases ih with rfl | ⟨s, rfl⟩
    · exact .inr ⟨line, rfl⟩
    · exact .inr ⟨line ++ '\n' :: s, by simp⟩

lemma bne_break_of_not_mem (hline : '\n' ∉ line) : ∀ c ∈ line, (c != '\n') = true :=
  fun _ hc => bne_iff_ne.2 (ne_of_mem_of_not_mem hc hline)

lemma StartsLine.rtakeWhile_append (h : StartsLine before) (hline : '\n' ∉ line) :
    (before ++ line).rtakeWhile (· != '\n') = line := by
  have hreverse : ∀ c ∈ line.reverse, (c != '\n') = true :=
    bne_break_of_not_mem (mt List.mem_reverse.1 hline)
  rw [List.rtakeWhile, List.reverse_append, List.takeWhile_append_of_pos hreverse]
  rcases h.eq_nil_or with rfl | ⟨s, rfl⟩
  · simp
  · simp

/-! ## The line around a place -/

/-- The line with the number of a place is the one around it. -/
theorem line?_eq_lineAround {number : LineNumber} (hne : text ≠ []) (htext : '\n' ∉ text)
    (hnumber : number.toNat = 1 + before.count '\n') :
    line? (before ++ (text ++ after)) number = some (lineAround before text after) := by
  obtain ⟨before, lead, rfl, hbefore, hlead⟩ := exists_startsLine before
  have hpositive : number ≠ 0 := by
    rintro rfl
    rw [UInt32.toNat_zero] at hnumber
    omega
  have hindex : number.toNat - 1 = (lines before).length := by
    rw [hnumber, hbefore.length_lines, List.count_append, List.count_eq_zero.2 hlead]
    omega
  rw [line?, if_neg hpositive, hindex, List.append_assoc, hbefore.lines_append,
    List.getElem?_append_right (Nat.le_refl _), Nat.sub_self, lineAround,
    hbefore.rtakeWhile_append hlead]
  -- the line is closed by the next line feed, or by the end of the source
  split
  · rename_i hbreak
    obtain ⟨tail, rest, rfl, htail⟩ := List.eq_append_cons_of_mem hbreak
    have hline : '\n' ∉ lead ++ text ++ tail := by simp [hlead, htext, htail]
    have hsplit : lead ++ (text ++ (tail ++ '\n' :: rest)) =
        lead ++ text ++ tail ++ '\n' :: rest := by simp
    rw [hsplit, lines_append_break hline, List.takeWhile_append_of_pos (bne_break_of_not_mem htail)]
    simp
  · rename_i hlast
    have hline : '\n' ∉ lead ++ (text ++ after) := by simp [hlead, htext, hlast]
    rw [lines_of_no_break (by simp [hne]) hline,
      List.takeWhile_eq_self_iff.2 (bne_break_of_not_mem hlast)]
    simp

/-! ## Trimming -/

lemma mem_of_mem_trim {c : Char} {s : List Char} (h : c ∈ trim s) : c ∈ s := by
  have hleft : ∀ t : List Char, trimLeft t ⊆ t := fun t => (List.dropWhile_sublist _).subset
  have hmem : c ∈ trimLeft (trimLeft s).reverse := List.mem_reverse.1 h
  exact hleft _ (List.mem_reverse.1 (hleft _ hmem))

lemma trimLeft_append (hne : s ≠ []) (hs : ∀ c ∈ s, isBlank c = false) :
    trimLeft (before ++ (s ++ after)) = trimLeft before ++ (s ++ after) := by
  obtain ⟨c, s, rfl⟩ := List.exists_cons_of_ne_nil hne
  have hc : ¬ isBlank c = true := by simp [hs c List.mem_cons_self]
  rw [trimLeft, trimLeft]
  induction before with
  | nil => exact List.dropWhile_cons_of_neg hc
  | cons d before ih =>
    by_cases hd : isBlank d = true
    · rw [List.cons_append, List.dropWhile_cons_of_pos hd, List.dropWhile_cons_of_pos hd, ih]
    · rw [List.cons_append, List.dropWhile_cons_of_neg hd, List.dropWhile_cons_of_neg hd]
      rfl

/-- What is not blank is still there when blanks are dropped. -/
lemma trim_append (hne : text ≠ []) (htext : ∀ c ∈ text, isBlank c = false) :
    trim (before ++ (text ++ after)) = trimLeft before ++ (text ++ trimRight after) := by
  have hreverse : ∀ c ∈ text.reverse, isBlank c = false := fun c hc =>
    htext c (List.mem_reverse.1 hc)
  rw [trim, trimLeft_append hne htext, trimRight, List.reverse_append, List.reverse_append,
    List.append_assoc, trimLeft_append (mt List.reverse_eq_nil_iff.1 hne) hreverse]
  simp [trimRight]

lemma withoutReturn_append (hne : text ≠ []) (htext : ∀ c ∈ text, isBlank c = false) :
    withoutReturn (before ++ (text ++ after)) = before ++ (text ++ withoutReturn after) := by
  rcases List.eq_nil_or_concat after with rfl | ⟨tail, c, rfl⟩
  · obtain ⟨front, c, rfl⟩ := (List.eq_nil_or_concat text).resolve_left hne
    have hc : c ≠ '\r' := by
      rintro rfl
      exact absurd (htext '\r' (by simp)) (by decide)
    simp [withoutReturn, hc]
  · by_cases hc : c = '\r'
    · simp [withoutReturn, hc]
    · simp [withoutReturn, hc]

/-- A text without blanks is not touched when the line around it is trimmed. -/
theorem infix_trim_lineAround (hne : text ≠ []) (htext : ∀ c ∈ text, isBlank c = false) :
    text <:+: trim (lineAround before text after) := by
  have hinfix : ∀ lead tail : List Char, text <:+: trim (lead ++ (text ++ tail)) := by
    intro lead tail
    rw [trim_append hne htext, ← List.append_assoc]
    exact List.infix_append _ _ _
  rw [lineAround, List.append_assoc]
  split
  · rw [withoutReturn_append hne htext]
    exact hinfix _ _
  · exact hinfix _ _

end ImpSyntax.Text
