import ImpSyntax.Failure
import Mathlib.Data.List.Basic

/-!
# Messages on one line

A message shows foreign text between quotes, and there every line feed is escaped
(`Text.oneLine_quoted`).  The rest of it is fixed wording and the names of kinds, so that a message
has one line whatever the fault (`Fault.oneLine_message`).  Advice shows foreign text as it is, and
has one line if that text has.
-/

namespace ImpSyntax

/-- The text stays on one line. -/
def OneLine (text : String) : Prop :=
  '\n' ∉ text.toList

instance (text : String) : Decidable (OneLine text) :=
  inferInstanceAs (Decidable (_ ∉ _))

lemma OneLine.append {text other : String} (h : OneLine text) (hother : OneLine other) :
    OneLine (text ++ other) := by
  rw [OneLine, String.toList_append, List.mem_append]
  exact not_or.2 ⟨h, hother⟩

lemma oneLine_ofList {s : List Char} : OneLine (String.ofList s) ↔ '\n' ∉ s := by
  rw [OneLine, String.toList_ofList]

lemma oneLine_intercalate {separator : String} {parts : List String} (h : OneLine separator)
    (hparts : ∀ part ∈ parts, OneLine part) : OneLine (separator.intercalate parts) := by
  induction parts with
  | nil => simp [OneLine]
  | cons part parts ih =>
    rw [List.forall_mem_cons] at hparts
    cases parts with
    | nil => simpa using hparts.1
    | cons next parts =>
      rw [String.intercalate_cons_cons]
      exact (hparts.1.append h).append (ih hparts.2)

namespace Text

lemma isDigit_of_mem_decimalDigits {n : Nat} {c : Char} (h : c ∈ decimalDigits n) :
    c.isDigit = true :=
  Nat.isDigit_of_mem_toDigits (by decide) (by decide) h

lemma not_mem_decimalDigits {c : Char} (hc : c.isDigit = false) (n : Nat) :
    c ∉ decimalDigits n := by
  intro hmem
  rw [isDigit_of_mem_decimalDigits hmem] at hc
  exact absurd hc (by decide)

lemma not_mem_hexDigits (n : Nat) : '\n' ∉ hexDigits n := by
  unfold hexDigits
  induction n using Nat.strongRecOn with
  | _ n ih =>
    rw [Nat.toDigits_eq_if (by decide)]
    split
    · simp
    · rename_i hlarge
      have hrest := ih (n / 16) (by omega)
      simp [hrest]

lemma not_mem_escape (c : Char) : '\n' ∉ escape c := by
  unfold escape
  split
  -- six characters have escapes of their own
  all_goals first | decide | skip
  rename_i hbreak _ _ _
  split
  · simp [not_mem_hexDigits]
  · simpa using Ne.symm hbreak

/-- Quoted text stays on one line, whatever it is. -/
lemma oneLine_quoted (s : String) : OneLine (quoted s) := by
  rw [quoted, oneLine_ofList]
  simp [quote, not_mem_escape]

end Text

namespace Fault

lemma oneLine_listKinds (kinds : List Kind) : OneLine (listKinds kinds) := by
  have hkind : ∀ kind : Kind, OneLine kind.describe := by
    intro kind
    cases kind <;> decide
  have hkinds : OneLine (", ".intercalate (kinds.map Kind.describe)) :=
    oneLine_intercalate (by decide) (List.forall_mem_map.2 fun kind _ => hkind kind)
  have hopen : OneLine "[" := by decide
  have hclose : OneLine "]" := by decide
  exact (hopen.append hkinds).append hclose

lemma oneLine_message (fault : Fault) : OneLine fault.message := by
  cases fault with
  | unrecognised text =>
    have hwords : OneLine "unrecognised token: " := by decide
    exact hwords.append (Text.oneLine_quoted text)
  | unexpected expected found =>
    have hwords : OneLine "expected " := by decide
    have hfound : OneLine ", found " := by decide
    exact ((hwords.append (oneLine_listKinds expected)).append hfound).append
      (Text.oneLine_quoted found)
  | unexpectedEnd expected =>
    have hwords : OneLine "expected " := by decide
    have hend : OneLine ", found end of input" := by decide
    exact (hwords.append (oneLine_listKinds expected)).append hend
  | expectedOperand => decide
  | malformedNumber text =>
    have hwords : OneLine "error parsing number: " := by decide
    exact hwords.append (Text.oneLine_quoted text)

lemma oneLine_advice {kinds : List Kind} {found advice : String} (hfound : OneLine found)
    (h : advice ∈ (unexpected kinds found).advice?) : OneLine advice := by
  have hwords : OneLine "Unexpected token: `" := by decide
  have hend : OneLine "`" := by decide
  have hhint : OneLine ("Unexpected token: `" ++ found ++ "`") := (hwords.append hfound).append hend
  have hquestion : OneLine ", did you miss a semicolon?" := by decide
  obtain rfl := Option.some.inj h
  split
  · exact hhint.append hquestion
  · exact hhint

end Fault

end ImpSyntax
