import ImpSyntax.Proofs.FailurePlace
import ImpSyntax.Proofs.Message
import ImpSyntax.Proofs.Text.Lines
import ImpSyntax.Report
import Mathlib.Data.List.Basic

/-!
# What a report shows

A report about a failure of a source has four rows or five, and none of them contains a line feed.
If the failure has a line, then the report quotes it, and the offending text is seen in the
quotation.  Otherwise it shows the end of the input.

Messages have one line whatever they are about.  Advice repeats the text of a token as it stands,
which has one line if the token comes from a source (`oneLine_advice_of_parseSource`).

The main result is `report_quotes_line`.
-/

namespace ImpSyntax

open Grammar Rule

/-! ## Rows -/

namespace Report

variable {failure : Failure} {source file : String}

/-- The text consists of the rows, each with a line feed behind it and none in it. -/
def ConsistsOf (text : String) (rows : List String) : Prop :=
  text = String.join (rows.map (· ++ "\n")) ∧ ∀ row ∈ rows, OneLine row

lemma oneLine_headline {fault : Fault} (h : ∀ advice ∈ fault.advice?, OneLine advice) :
    OneLine (headline fault) := by
  have herror : OneLine "Error: " := by decide
  have hopen : OneLine " (" := by decide
  have hclose : OneLine ")" := by decide
  have hcategory : OneLine fault.category := by
    unfold Fault.category
    split
    · decide
    · decide
  unfold headline
  split
  · rename_i advice hadvice
    exact (((herror.append hcategory).append hopen).append (h advice hadvice)).append hclose
  · exact herror.append hcategory

lemma quotation_of_none (h : failure.line = none) : quotation failure source = [endMark] := by
  rw [quotation, h]

lemma quotation_of_line {line : LineNumber} {text : List Char} (h : failure.line = some line)
    (htext : Text.line? source.toList line = some text) :
    quotation failure source = excerpt line text := by
  rw [quotation, h]
  dsimp only
  rw [htext]

lemma oneLine_of_mem_excerpt {line : LineNumber} {text : List Char} {row : String}
    (htext : '\n' ∉ text) (h : row ∈ excerpt line text) : OneLine row := by
  have hmargin : ∀ n, OneLine (String.ofList (List.replicate n ' ')) := by
    intro n
    rw [oneLine_ofList]
    exact fun hmem => absurd (List.eq_of_mem_replicate hmem) (by decide)
  have hbar : OneLine "|" ∧ OneLine " | " := by decide
  have hnumber : OneLine (String.ofList (Text.decimalDigits line.toNat)) :=
    oneLine_ofList.2 (Text.not_mem_decimalDigits (by decide) _)
  have htrim : OneLine (String.ofList (Text.trim text)) :=
    oneLine_ofList.2 (mt Text.mem_of_mem_trim htext)
  rcases List.mem_cons.1 h with rfl | hmem
  · exact (hmargin _).append hbar.1
  · rw [List.mem_singleton.1 hmem]
    exact (hnumber.append hbar.2).append htrim

lemma oneLine_of_mem_quotation {row : String} (h : row ∈ quotation failure source) :
    OneLine row := by
  have hend : ∀ row ∈ [endMark], OneLine row := by decide
  unfold quotation at h
  split at h
  · exact hend row h
  · split at h
    · exact hend row h
    · rename_i text htext
      obtain ⟨-, hmem⟩ := Option.ite_none_left_eq_some.1 htext
      exact oneLine_of_mem_excerpt (Text.not_mem_of_mem_lines (List.mem_of_getElem? hmem)) h

/-- The rows of a report are its lines. -/
lemma consistsOf_rows (hadvice : ∀ advice ∈ failure.fault.advice?, OneLine advice)
    (hfile : OneLine file) :
    ConsistsOf (render failure source file) (rows failure source file) := by
  have harrow : OneLine "-> " := by decide
  refine ⟨rfl, fun row hrow => ?_⟩
  rcases List.mem_append.1 hrow with hrow | hmessage
  · rcases List.mem_append.1 hrow with hhead | hquotation
    · rcases List.mem_cons.1 hhead with rfl | hname
      · exact oneLine_headline hadvice
      · rw [List.mem_singleton.1 hname]
        exact harrow.append hfile
    · exact oneLine_of_mem_quotation hquotation
  · rw [List.mem_singleton.1 hmessage]
    exact failure.fault.oneLine_message

lemma idxOf_append_bar {s : List Char} (rest : List Char) (hs : '|' ∉ s) :
    (s ++ '|' :: rest).idxOf '|' = s.length := by
  rw [List.idxOf_append_of_notMem hs, List.idxOf_cons_self, Nat.add_zero]

/-- The bars of an excerpt stand one below the other. -/
lemma exists_excerpt (line : LineNumber) (text : List Char) :
    ∃ margin quoted, excerpt line text = [margin, quoted] ∧
      quoted = String.ofList (Text.decimalDigits line.toNat) ++ " | " ++
        String.ofList (Text.trim text) ∧
      '|' ∈ margin.toList ∧ '|' ∈ quoted.toList ∧
      margin.toList.idxOf '|' = quoted.toList.idxOf '|' := by
  let digits := Text.decimalDigits line.toNat
  have hmargin : (String.ofList (List.replicate (digits.length + 1) ' ') ++ "|").toList =
      List.replicate (digits.length + 1) ' ' ++ '|' :: [] := by simp
  have hquoted : (String.ofList digits ++ " | " ++ String.ofList (Text.trim text)).toList =
      (digits ++ [' ']) ++ '|' :: ' ' :: Text.trim text := by simp
  have hspaces : '|' ∉ List.replicate (digits.length + 1) ' ' :=
    fun hmem => absurd (List.eq_of_mem_replicate hmem) (by decide)
  have hnumber : '|' ∉ digits ++ [' '] := by
    simpa using Text.not_mem_decimalDigits (by decide) line.toNat
  refine ⟨_, _, rfl, rfl, ?_⟩
  rw [hmargin, hquoted, idxOf_append_bar _ hspaces, idxOf_append_bar _ hnumber]
  simp

end Report

/-! ## Reports about sources -/

open Report

variable {source file : String} {failure : Failure}

lemma oneLine_advice_of_parseSource (h : parseSource source = .error failure) :
    ∀ advice ∈ failure.fault.advice?, OneLine advice := by
  rcases parseSource_eq_error.1 h with htokenize | ⟨tokens, htokenize, hparse⟩
  · obtain ⟨-, rfl⟩ := tokenize_eq_error.1 htokenize
    exact fun advice hadvice => absurd hadvice (by simp [Fault.advice?])
  · have hlexemes : HasLexemes tokens := lexeme_of_tokenize htokenize
    obtain ⟨rest, hrun⟩ := parse_eq_error.1 hparse
    obtain ⟨⟨us, rfl⟩, -, hfault | ⟨kind, hfault⟩⟩ := failed_at_next hlexemes hrun
    · rw [hfault]
      decide
    · rw [hfault]
      cases rest with
      | nil =>
        have hend : OneLine "The program ended in the middle of a statement" := by decide
        rintro advice ⟨⟩
        exact hend
      | cons token rest =>
        have hlexeme := hlexemes token (by simp)
        have hfound : OneLine token.text := fun hmem =>
          absurd (hlexeme.not_blank _ hmem) (by decide)
        exact fun advice => Fault.oneLine_advice hfound

/-- The line of a failure is the one around the offending text. -/
lemma exists_line?_eq {line : LineNumber} (hbreaks : source.toList.count '\n' < UInt32.size - 1)
    (h : parseSource source = .error failure) (hline : failure.line = some line) :
    ∃ before offending after, FailsAt source failure before offending after ∧
      Text.line? source.toList line = some (Text.lineAround before offending after) := by
  obtain ⟨before, offending, after, hplace⟩ := exists_failsAt hbreaks h hline
  obtain ⟨hne, hblank⟩ := hplace.not_blank
  have hbreak : '\n' ∉ offending := fun hmem => absurd (hblank _ hmem) (by decide)
  obtain ⟨number, hnumber, hcount⟩ := hplace.line_eq hbreaks
  obtain rfl : line = number := Option.some.inj (hline.symm.trans hnumber)
  refine ⟨before, offending, after, hplace, ?_⟩
  rw [hplace.text_eq]
  exact Text.line?_eq_lineAround hne hbreak hcount

/-- A report about a source has the rows that `ConsistsOf` lists.  If the failure has a line, that
is the line around the offending text, the report quotes it below a margin, and the offending text
is in the quotation.  The end of the input is shown if and only if the failure has no line. -/
theorem report_quotes_line (hbreaks : source.toList.count '\n' < UInt32.size - 1)
    (hfile : OneLine file) (h : parseSource source = .error failure) :
    (∀ line, failure.line = some line → ∃ before offending after,
      FailsAt source failure before offending after ∧
      source.toList = before ++ (offending ++ after) ∧
      sourceLine? source line = some (String.ofList (Text.lineAround before offending after)) ∧
      offending <:+: Text.trim (Text.lineAround before offending after) ∧
      ∃ margin quoted,
        ConsistsOf (render failure source file)
          [headline failure.fault, "-> " ++ file, margin, quoted, failure.fault.message] ∧
        quoted = String.ofList (Text.decimalDigits line.toNat) ++ " | " ++
          String.ofList (Text.trim (Text.lineAround before offending after)) ∧
        '|' ∈ margin.toList ∧ '|' ∈ quoted.toList ∧
        margin.toList.idxOf '|' = quoted.toList.idxOf '|') ∧
    (failure.line = none → ConsistsOf (render failure source file)
      [headline failure.fault, "-> " ++ file, endMark, failure.fault.message]) ∧
    (quotation failure source = [endMark] ↔ failure.line = none) := by
  have hrows : ConsistsOf (render failure source file) (rows failure source file) :=
    consistsOf_rows (oneLine_advice_of_parseSource h) hfile
  refine ⟨fun line hline => ?_, fun hnone => ?_, fun hquotation => ?_, quotation_of_none⟩
  · obtain ⟨before, offending, after, hplace, hfound⟩ := exists_line?_eq hbreaks h hline
    obtain ⟨hne, hblank⟩ := hplace.not_blank
    obtain ⟨margin, quoted, hexcerpt, hquoted, hbars⟩ :=
      exists_excerpt line (Text.lineAround before offending after)
    rw [rows, quotation_of_line hline hfound, hexcerpt] at hrows
    refine ⟨before, offending, after, hplace, hplace.text_eq, ?_,
      Text.infix_trim_lineAround hne hblank, margin, quoted, hrows, hquoted, hbars⟩
    rw [sourceLine?, hfound]
    rfl
  · rwa [rows, quotation_of_none hnone] at hrows
  · cases hline : failure.line with
    | none => rfl
    | some line =>
      obtain ⟨_, _, _, _, hfound⟩ := exists_line?_eq hbreaks h hline
      rw [quotation_of_line hline hfound] at hquotation
      exact absurd (congrArg List.length hquotation) (by simp [excerpt])

/-- A variable is missing on the second of two lines that end in carriage returns. -/
theorem report_quotes_line_print :
    let source := "x;\r\n print ;\r\n"
    let failure : Failure := ⟨.unexpected [.identifier] ";", some 2⟩
    source.toList.count '\n' < UInt32.size - 1 ∧ OneLine "a.imp" ∧
      parseSource source = .error failure ∧
      ∃ margin, ConsistsOf (render failure source "a.imp")
        [headline failure.fault, "-> " ++ "a.imp", margin, "2 | print ;",
          failure.fault.message] := by
  intro source failure
  have hbreaks : source.toList.count '\n' < UInt32.size - 1 := by decide
  have hfile : OneLine "a.imp" := by decide
  have htokens : tokenize source = .ok [⟨.identifier, "x", 1⟩, ⟨.semicolon, ";", 1⟩,
      ⟨.printWord, "print", 2⟩, ⟨.semicolon, ";", 2⟩] := by
    decide +kernel
  have hparse : parseSource source = .error failure :=
    parseSource_eq_error.2 (.inr ⟨_, htokens, rfl⟩)
  have hline : sourceLine? source 2 = some " print ;" := by decide +kernel
  obtain ⟨before, offending, after, -, -, htext, -, margin, quoted, hrows, rfl, -⟩ :=
    (report_quotes_line hbreaks hfile hparse).1 2 rfl
  have haround : Text.lineAround before offending after = " print ;".toList := by
    rw [hline] at htext
    rw [Option.some.inj htext, String.toList_ofList]
  rw [haround] at hrows
  exact ⟨hbreaks, hfile, hparse, margin, hrows⟩

end ImpSyntax
