import ImpSyntax.Grammar.Rule
import Mathlib.Logic.Basic

/-!
# Outcomes of rules, read backwards

A rule is built by sequencing from a few basic rules.  Every later argument about the grammar starts
from an outcome and asks how it came about, so this file answers that once for each way of building.

`NextIs kinds tokens` says that the next token is there and of one of the given kinds; it is the
only question that a rule asks about the tokens ahead.  For each basic rule there are lemmas in two
directions: `…_eq_done` and `…_eq_failed` take an outcome apart, the others compute one from what is
known about the next token.  `Outcome.withRest` changes the tokens that an outcome leaves.
-/

namespace ImpSyntax

namespace Outcome

variable {α β : Type}

/-- The outcome with other tokens left. -/
def withRest (rest : List Token) : Outcome α → Outcome α
  | done a _ => done a rest
  | failed failure _ => failed failure rest

@[simp] lemma rest_done (a : α) (rest : List Token) : (done a rest).rest = rest := rfl

@[simp] lemma rest_failed (failure : Failure) (rest : List Token) :
    (failed failure rest : Outcome α).rest = rest := rfl

@[simp] lemma withRest_done (a : α) (rest other : List Token) :
    (done a rest).withRest other = done a other := rfl

@[simp] lemma withRest_failed (failure : Failure) (rest other : List Token) :
    (failed failure rest : Outcome α).withRest other = failed failure other := rfl

end Outcome

namespace Rule

variable {α β : Type} {tokens rest : List Token} {failure : Failure} {kinds : List Kind}

/-- The next token is there and of one of the given kinds. -/
def NextIs (kinds : List Kind) : List Token → Prop
  | [] => False
  | token :: _ => token.kind ∈ kinds

@[simp] lemma not_nextIs_nil : ¬ NextIs kinds [] := id

@[simp] lemma nextIs_cons {token : Token} : NextIs kinds (token :: rest) ↔ token.kind ∈ kinds :=
  Iff.rfl

@[simp] lemma not_nextIs_of_no_kind : ¬ NextIs [] tokens := by
  cases tokens <;> simp

lemma NextIs.mono {others : List Kind} (h : NextIs kinds tokens) (hsub : kinds ⊆ others) :
    NextIs others tokens := by
  cases tokens with
  | nil => exact h
  | cons token rest => exact hsub h

lemma NextIs.exists_cons (h : NextIs kinds tokens) :
    ∃ token rest, tokens = token :: rest ∧ token.kind ∈ kinds := by
  cases tokens with
  | nil => exact absurd h not_nextIs_nil
  | cons token rest => exact ⟨token, rest, rfl, h⟩

lemma not_nextIs_of_kind {token : Token} {kind : Kind} (hkind : token.kind = kind)
    (h : kind ∉ kinds) : ¬ NextIs kinds (token :: rest) := by
  rw [nextIs_cons, hkind]
  exact h

/-- Only the next token matters. -/
lemma nextIs_congr (h : tokens.head? = rest.head?) : NextIs kinds tokens ↔ NextIs kinds rest := by
  cases tokens <;> cases rest <;> simp_all

/-! ## Sequencing -/

lemma bind_apply (rule : Rule α) (next : α → Rule β) (tokens : List Token) :
    (rule >>= next) tokens =
      match rule tokens with
      | .done a rest => next a rest
      | .failed failure rest => .failed failure rest := rfl

lemma bind_of_done {rule : Rule α} {next : α → Rule β} {a : α}
    (h : rule tokens = .done a rest) : (rule >>= next) tokens = next a rest := by
  rw [bind_apply, h]

lemma bind_of_failed {rule : Rule α} {next : α → Rule β}
    (h : rule tokens = .failed failure rest) :
    (rule >>= next) tokens = .failed failure rest := by
  rw [bind_apply, h]

@[simp] lemma pure_apply (a : α) (tokens : List Token) :
    (pure a : Rule α) tokens = .done a tokens := rfl

lemma bind_eq_done {rule : Rule α} {next : α → Rule β} {b : β} :
    (rule >>= next) tokens = .done b rest ↔
      ∃ a middle, rule tokens = .done a middle ∧ next a middle = .done b rest := by
  rw [bind_apply]
  cases rule tokens with
  | failed failure others => simp
  | done a middle =>
    constructor
    · intro h
      exact ⟨a, middle, rfl, h⟩
    · rintro ⟨a', middle', heq, h⟩
      injection heq with ha hmiddle
      rw [ha, hmiddle]
      exact h

lemma bind_eq_failed {rule : Rule α} {next : α → Rule β} :
    (rule >>= next) tokens = .failed failure rest ↔
      rule tokens = .failed failure rest ∨
        ∃ a middle, rule tokens = .done a middle ∧ next a middle = .failed failure rest := by
  rw [bind_apply]
  cases rule tokens with
  | failed other others => simp
  | done a middle =>
    constructor
    · intro h
      exact .inr ⟨a, middle, rfl, h⟩
    · rintro (heq | ⟨a', middle', heq, h⟩)
      · exact absurd heq (by simp)
      · injection heq with ha hmiddle
        rw [ha, hmiddle]
        exact h

lemma bind_pure_eq_done {rule : Rule α} {f : α → β} {b : β} :
    (rule >>= fun a => pure (f a)) tokens = .done b rest ↔
      ∃ a, rule tokens = .done a rest ∧ f a = b := by
  rw [bind_eq_done]
  constructor
  · rintro ⟨a, middle, hrun, hpure⟩
    injection hpure with hb hrest
    exact ⟨a, hrest ▸ hrun, hb⟩
  · rintro ⟨a, hrun, rfl⟩
    exact ⟨a, rest, hrun, rfl⟩

/-- What is done to a construct afterwards does not make its rule fail. -/
lemma bind_pure_eq_failed {rule : Rule α} {f : α → β} :
    (rule >>= fun a => pure (f a)) tokens = .failed failure rest ↔
      rule tokens = .failed failure rest := by
  rw [bind_eq_failed]
  simp

lemma pure_then (a : α) (next : α → Rule β) : (pure a >>= next) = next a := rfl

lemma then_pure (rule : Rule α) : (rule >>= fun a => pure a) = rule := by
  funext tokens
  rw [bind_apply]
  cases rule tokens <;> rfl

lemma bind_bind {γ : Type} (rule : Rule α) (next : α → Rule β) (last : β → Rule γ) :
    ((rule >>= next) >>= last) = rule >>= fun a => next a >>= last := by
  funext tokens
  rw [bind_apply, bind_apply, bind_apply]
  cases rule tokens <;> rfl

/-! ## The next token -/

lemma accept_of_mem {token : Token} (h : token.kind ∈ kinds) :
    accept kinds (token :: rest) = .done (some token) rest := by
  simp [accept, Token.isOneOf, h]

lemma accept_of_not_nextIs (h : ¬ NextIs kinds tokens) :
    accept kinds tokens = .done none tokens := by
  cases tokens with
  | nil => rfl
  | cons token rest =>
    have hkind : token.kind ∉ kinds := h
    simp [accept, Token.isOneOf, hkind]

lemma accept_eq_some {token : Token} :
    accept kinds tokens = .done (some token) rest ↔
      tokens = token :: rest ∧ token.kind ∈ kinds := by
  cases tokens with
  | nil => simp [accept]
  | cons first others =>
    by_cases h : first.kind ∈ kinds
    · rw [accept_of_mem h]
      constructor
      · intro heq
        injection heq with hsome hrest
        injection hsome with htoken
        subst htoken hrest
        exact ⟨rfl, h⟩
      · rintro ⟨heq, -⟩
        injection heq with htoken hrest
        rw [htoken, hrest]
    · rw [accept_of_not_nextIs (by simpa using h)]
      constructor
      · intro heq
        injection heq with hnone
        exact absurd hnone (by simp)
      · rintro ⟨heq, hkind⟩
        injection heq with htoken
        exact absurd (htoken ▸ hkind) h

@[simp] lemma accept_ne_failed : accept kinds tokens ≠ .failed failure rest := by
  by_cases h : NextIs kinds tokens
  · obtain ⟨token, others, rfl, hkind⟩ := h.exists_cons
    rw [accept_of_mem hkind]
    simp
  · rw [accept_of_not_nextIs h]
    simp

lemma require_of_mem {token : Token} (h : token.kind ∈ kinds) :
    require kinds (token :: rest) = .done token rest :=
  bind_of_done (accept_of_mem h)

lemma require_of_not_nextIs (h : ¬ NextIs kinds tokens) :
    require kinds tokens = .failed ⟨mismatch kinds tokens, nextLine? tokens⟩ tokens :=
  bind_of_done (accept_of_not_nextIs h)

lemma require_eq_done {token : Token} :
    require kinds tokens = .done token rest ↔ tokens = token :: rest ∧ token.kind ∈ kinds := by
  by_cases h : NextIs kinds tokens
  · obtain ⟨first, others, rfl, hkind⟩ := h.exists_cons
    rw [require_of_mem hkind]
    simp only [Outcome.done.injEq, List.cons.injEq]
    constructor
    · rintro ⟨rfl, rfl⟩
      exact ⟨⟨rfl, rfl⟩, hkind⟩
    · rintro ⟨⟨rfl, rfl⟩, -⟩
      exact ⟨rfl, rfl⟩
  · rw [require_of_not_nextIs h]
    simp only [reduceCtorEq, false_iff]
    rintro ⟨rfl, hkind⟩
    exact h hkind

lemma require_eq_failed :
    require kinds tokens = .failed failure rest ↔
      ¬ NextIs kinds tokens ∧ failure = ⟨mismatch kinds tokens, nextLine? tokens⟩ ∧
        rest = tokens := by
  by_cases h : NextIs kinds tokens
  · obtain ⟨first, others, rfl, hkind⟩ := h.exists_cons
    rw [require_of_mem hkind]
    simp [hkind]
  · rw [require_of_not_nextIs h]
    simp [h, eq_comm]

lemma atEnd_apply (tokens : List Token) : atEnd tokens = .done tokens.isEmpty tokens := rfl

lemma atEnd_of_nextIs (h : NextIs kinds tokens) : atEnd tokens = .done false tokens := by
  obtain ⟨token, rest, rfl, -⟩ := h.exists_cons
  rfl

/-! ## A choice by the next token -/

variable {taken : Token → Rule α} {otherwise : Rule α}

/-- Go on in one of two ways: after a token of the given kinds, or without one. -/
def choose (kinds : List Kind) (taken : Token → Rule α) (otherwise : Rule α) : Rule α := do
  match ← accept kinds with
  | some token => taken token
  | none => otherwise

lemma choose_of_mem {token : Token} (h : token.kind ∈ kinds) :
    choose kinds taken otherwise (token :: rest) = taken token rest :=
  bind_of_done (accept_of_mem h)

lemma choose_of_not_nextIs (h : ¬ NextIs kinds tokens) :
    choose kinds taken otherwise tokens = otherwise tokens :=
  bind_of_done (accept_of_not_nextIs h)

/-- Whatever depends on an accepted token is a choice. -/
lemma accept_bind (kinds : List Kind) (next : Option Token → Rule α) :
    (accept kinds >>= next) = choose kinds (fun token => next (some token)) (next none) := by
  unfold choose
  congr 1
  funext found
  cases found <;> rfl

lemma accept_eq_choose (kinds : List Kind) :
    accept kinds = choose kinds (fun token => pure (some token)) (pure none) := by
  rw [← accept_bind kinds pure]
  exact (then_pure _).symm

lemma choose_bind (kinds : List Kind) (taken : Token → Rule α) (otherwise : Rule α)
    (next : α → Rule β) :
    (choose kinds taken otherwise >>= next) =
      choose kinds (fun token => taken token >>= next) (otherwise >>= next) := by
  unfold choose
  rw [bind_bind]
  exact accept_bind kinds _

/-- A choice has come about in one of its two ways. -/
lemma choose_cases (kinds : List Kind) (taken : Token → Rule α) (otherwise : Rule α)
    (tokens : List Token) :
    (∃ token others, tokens = token :: others ∧ token.kind ∈ kinds ∧
        choose kinds taken otherwise tokens = taken token others) ∨
      (¬ NextIs kinds tokens ∧ choose kinds taken otherwise tokens = otherwise tokens) := by
  by_cases h : NextIs kinds tokens
  · obtain ⟨token, others, rfl, hkind⟩ := h.exists_cons
    exact .inl ⟨token, others, rfl, hkind, choose_of_mem hkind⟩
  · exact .inr ⟨h, choose_of_not_nextIs h⟩

end Rule

end ImpSyntax
