import ImpSyntax.Proofs.Grammar.Completion
import ImpSyntax.Proofs.Grammar.Exactness

/-!
# Failures are found at the first impossible token

A list of tokens is viable if it can be completed to a program.  Where reading fails, the tokens
before the offending one are viable, and together with it they no longer are: no continuation
repairs it.  The two halves have different reasons.

* The tokens before it are viable because the rules can explain their failures, and what is
  derivable is read.
* With the offending token they are not, because the rules do not look past it, so they fail in the
  same way whatever comes next.  A malformed number is the exception: it is consumed before its text
  is found at fault.  But then no program contains it, since the numbers of a derived program all
  have a value (`DerivesProgram.hasValues`).
-/

namespace ImpSyntax

open Rule

namespace Grammar

/-! ## Numbers in derived programs -/

/-- Every number among the tokens has a value. -/
def HasValues (tokens : List Token) : Prop :=
  ∀ token ∈ tokens, token.kind = .number → (numberValue? token.text).isSome = true

@[simp] lemma hasValues_nil : HasValues [] := by
  simp [HasValues]

@[simp] lemma hasValues_cons {token : Token} {tokens : List Token} :
    HasValues (token :: tokens) ↔
      (token.kind = .number → (numberValue? token.text).isSome = true) ∧ HasValues tokens := by
  simp [HasValues]

@[simp] lemma hasValues_append {us vs : List Token} :
    HasValues (us ++ vs) ↔ HasValues us ∧ HasValues vs := by
  simp [HasValues, or_imp, forall_and]

/-- No operator is a number. -/
lemma hasValues_cons_of_mem {kinds : List Kind} {token : Token} {tokens : List Token}
    (h : token.kind ∈ kinds) (hkinds : .number ∉ kinds) :
    HasValues (token :: tokens) ↔ HasValues tokens := by
  have hne : token.kind ≠ .number := ne_of_mem_of_not_mem h hkinds
  simp [hne]

lemma Derives.hasValues {category : Category} {tokens : List Token} {e : Expr}
    (h : Derives category tokens e) : HasValues tokens := by
  induction h with
  | number _ hvalue => simp [HasValues, hvalue]
  | var hkind => simp [HasValues, hkind]
  | parens hleft _ hright ih =>
    simp [hleft, hright, ih]
  | unstepped _ ih => exact ih
  | step _ hoperator ih =>
    have hstep := Use.step_mem.1 hoperator
    have hoperatorValues := (hasValues_cons_of_mem hstep (by decide)).2 hasValues_nil
    exact hasValues_append.2 ⟨ih, hoperatorValues⟩
  | unsigned _ ih => exact ih
  | sign hoperator _ ih =>
    exact (hasValues_cons_of_mem (Use.sign_mem.1 hoperator) (by decide)).2 ih
  | operand _ ih => exact ih
  | @operation level _ _ _ _ _ _ hoperator _ iha ihb =>
    rw [Use.operation_mem] at hoperator
    have hnumber : .number ∉ level.operators := by cases level <;> decide
    exact hasValues_append.2 ⟨iha, (hasValues_cons_of_mem hoperator hnumber).2 ihb⟩
  | unassigned _ ih => exact ih
  | assignment _ hoperator _ iha ihb =>
    rw [Use.assignment_mem] at hoperator
    exact hasValues_append.2 ⟨iha, (hasValues_cons_of_mem hoperator (by decide)).2 ihb⟩

lemma DerivesList.hasValues {tokens : List Token} {es : List Expr} (h : DerivesList tokens es) :
    HasValues tokens := by
  induction h with
  | one he => exact he.hasValues
  | more he hcomma _ ih => simp [hcomma, he.hasValues, ih]

lemma DerivesCondition.hasValues {tokens : List Token} {e : Expr} (h : DerivesCondition tokens e) :
    HasValues tokens := by
  cases h with
  | parens hleft he hright =>
    simp [hleft, hright, he.hasValues]

lemma DerivesStmt.hasValues {tokens : List Token} {s : Stmt} (h : DerivesStmt tokens s) :
    HasValues tokens := by
  induction h with
  | print hword htarget hsemicolon => simp [HasValues, hword, htarget, hsemicolon]
  | ifThen hword hc _ ih => simp [hword, hc.hasValues, ih]
  | ifElse hword hc _ _ helse _ ihbody ihalternative =>
    simp [hword, helse, hc.hasValues, ihbody, ihalternative]
  | whileLoop hword hc _ ih => simp [hword, hc.hasValues, ih]
  | forLoop hword hleft _ hc hsemicolon hstep hright _ ihfirst ihbody =>
    simp [hword, hleft, hsemicolon, hright, hc.hasValues, hstep.hasValues, ihfirst, ihbody]
  | @block left right parts hleft _ hright ih =>
    have hparts : HasValues (parts.flatMap Prod.fst) := by
      intro token hmem
      obtain ⟨part, hpart, htoken⟩ := List.mem_flatMap.1 hmem
      exact ih part hpart token htoken
    simp [hleft, hright, hparts]
  | eval hes hsemicolon =>
    simp [hsemicolon, hes.hasValues]
  | empty hsemicolon => simp [HasValues, hsemicolon]

/-- The numbers of a program all have a value. -/
theorem DerivesProgram.hasValues {tokens : List Token} {p : Program}
    (h : DerivesProgram tokens p) : HasValues tokens := by
  obtain ⟨parts, hparts, rfl, rfl⟩ := h
  intro token hmem
  obtain ⟨part, hpart, htoken⟩ := List.mem_flatMap.1 hmem
  exact (hparts part hpart).hasValues token htoken

end Grammar

open Grammar

/-! ## Viable tokens -/

/-- The tokens can be completed to a program. -/
def Viable (tokens : List Token) : Prop :=
  ∃ more p, parse (tokens ++ more) = .ok p

lemma Viable.of_completable {tokens : List Token} (h : Completable DerivesProgram tokens) :
    Viable tokens := by
  obtain ⟨more, p, hp⟩ := h
  exact ⟨more, p, parse_of_derives hp⟩

/-- What comes before a viable list of tokens is viable. -/
lemma Viable.of_append {us vs : List Token} (h : Viable (us ++ vs)) : Viable us := by
  obtain ⟨more, p, hp⟩ := h
  exact ⟨vs ++ more, p, by rwa [← List.append_assoc]⟩

/-- No continuation repairs the offending token. -/
lemma not_viable_of_blames {before others rest : List Token} {token : Token} {failure : Failure}
    {V : List Token → Prop} (hrun : program (before ++ token :: others) = .failed failure rest)
    (hblames : Blames V before (token :: others) failure rest) :
    ¬ Viable (before ++ [token]) := by
  rintro ⟨more, p, hp⟩
  have hread : program (before ++ token :: more) = .done p [] := by
    simpa using parse_eq_ok.1 hp
  -- a failure that leaves the offending token does not depend on what follows it
  have hsame : rest ≠ token :: others := by
    rintro rfl
    have hlooks := composed_program.looksAhead before (token :: others) (token :: more)
      (by rw [hrun, Outcome.rest_failed]) rfl
    rw [hrun, hread] at hlooks
    exact absurd hlooks (by simp)
  cases hblames with
  | missing => exact hsame rfl
  | operand => exact hsame rfl
  | malformed hahead hkind hvalue _ =>
    injection hahead with htoken
    have hvalues := (derivesProgram_of_done hread).1.hasValues token (by simp)
    rw [htoken, hvalue] at hvalues
    exact absurd (hvalues hkind) (by simp)

/-! ## What a fault promises -/

/-- What a fault says is true of the tokens that were read before it and of the one it was found at,
if there is one.  In particular each token that it asks for could have come next. -/
def Fault.Describes (before : List Token) (next : Option Token) : Fault → Prop
  | .unrecognised _ => False
  | .unexpected kinds found =>
    next.map Token.text = some found ∧ ∀ kind ∈ kinds, ∀ token : Token, token.kind = kind →
      Viable (before ++ [token])
  | .unexpectedEnd kinds =>
    next = none ∧ ∀ kind ∈ kinds, ∀ token : Token, token.kind = kind → Viable (before ++ [token])
  | .expectedOperand => ∀ token, BeginsOperand token → Viable (before ++ [token])
  | .malformedNumber text =>
    (∃ token, next = some token ∧ token.kind = .number ∧ token.text = text) ∧
      numberValue? text = none ∧ ∀ token, BeginsOperand token → Viable (before ++ [token])

lemma describes_of_blames {before ahead rest : List Token} {failure : Failure}
    (h : Blames (Completable DerivesProgram) before ahead failure rest) :
    failure.fault.Describes before ahead.head? := by
  cases h with
  | missing hnext hviable =>
    have hkinds : ∀ kind ∈ [_], ∀ token : Token, token.kind = kind → Viable (before ++ [token]) :=
      fun kind hkind token htoken =>
        .of_completable (hviable token (htoken.trans (List.mem_singleton.1 hkind)))
    cases ahead with
    | nil => exact ⟨rfl, hkinds⟩
    | cons token others => exact ⟨rfl, hkinds⟩
  | operand hviable => exact fun token h => .of_completable (hviable token h)
  | malformed hahead hkind hvalue hviable =>
    refine ⟨⟨_, by rw [hahead]; rfl, hkind, rfl⟩, hvalue, ?_⟩
    exact fun token h => .of_completable (hviable token h)

lemma viable_of_blames {before ahead rest : List Token} {failure : Failure}
    (h : Blames (Completable DerivesProgram) before ahead failure rest) : Viable before := by
  have hvariable : BeginsOperand (anyToken .identifier) := .inl rfl
  cases h with
  | missing _ hviable =>
    exact (Viable.of_completable (hviable (anyToken _) (kind_anyToken _))).of_append
  | operand hviable => exact (Viable.of_completable (hviable _ hvariable)).of_append
  | malformed _ _ _ hviable => exact (Viable.of_completable (hviable _ hvariable)).of_append

lemma line_of_blames {V : List Token → Prop} {before ahead rest : List Token} {failure : Failure}
    (h : Blames V before ahead failure rest) : failure.line = ahead.head?.map Token.line := by
  cases h with
  | missing => rfl
  | operand => rfl
  | malformed hahead => rw [hahead]; rfl

/-- Reading fails at the first token with which the tokens so far are no program's beginning, or at
the end if there is no such token.  The failure has the line of that token, and what it says is
true. -/
theorem parse_error_first_impossible {tokens : List Token} {failure : Failure}
    (h : parse tokens = .error failure) :
    ∃ i ≤ tokens.length, Viable (tokens.take i) ∧
      (i < tokens.length → ¬ Viable (tokens.take (i + 1))) ∧
      failure.line = tokens[i]?.map Token.line ∧
      (failure.line = none ↔ Viable tokens) ∧
      failure.fault.Describes (tokens.take i) tokens[i]? := by
  obtain ⟨rest, hrun⟩ := parse_eq_error.1 h
  obtain ⟨before, ahead, rfl, hblames⟩ := explains_program hrun
  have htake : (before ++ ahead).take before.length = before := List.take_left
  have hnext : (before ++ ahead)[before.length]? = ahead.head? := by
    rw [List.getElem?_append_right (Nat.le_refl _), Nat.sub_self, List.head?_eq_getElem?]
  have hline := line_of_blames hblames
  refine ⟨before.length, by simp, ?_⟩
  rw [htake, hnext]
  refine ⟨viable_of_blames hblames, ?_, hline, ?_, describes_of_blames hblames⟩
  · intro hlt
    cases ahead with
    | nil => exact absurd hlt (by simp)
    | cons token others =>
      have hstep : (before ++ token :: others).take (before.length + 1) = before ++ [token] := by
        rw [List.take_length_add_append]
        rfl
      rw [hstep]
      exact not_viable_of_blames hrun hblames
  · rw [hline]
    cases ahead with
    | nil => simpa using viable_of_blames hblames
    | cons token others =>
      have hnot : ¬ Viable (before ++ [token] ++ others) :=
        fun hviable => not_viable_of_blames hrun hblames hviable.of_append
      simpa using hnot

/-- A `print` in front of a semicolon lacks its variable. -/
theorem parse_error_first_impossible_print :
    parse [.ofKind .printWord 1, .ofKind .semicolon 2] =
        .error ⟨.unexpected [.identifier] ";", some 2⟩ ∧
      ∃ i ≤ 2, Viable ([.ofKind .printWord 1, .ofKind .semicolon 2].take i) ∧
        (i < 2 → ¬ Viable ([.ofKind .printWord 1, .ofKind .semicolon 2].take (i + 1))) := by
  have hparse : parse [.ofKind .printWord 1, .ofKind .semicolon 2] =
      .error ⟨.unexpected [.identifier] ";", some 2⟩ := rfl
  obtain ⟨i, hle, hviable, hnot, -⟩ := parse_error_first_impossible hparse
  exact ⟨hparse, i, hle, hviable, hnot⟩

end ImpSyntax
