import ImpSyntax.Proofs.Rule.Composed

/-!
# Recursive rules

`Rule.fix` unfolds a rule once for each token that is left, which makes it total but hides what it
is meant to be: the solution of `rule = body rule`.  `Guarded P body` collects what makes the two
the same, namely that `body` keeps rules composed, and that it uses its argument only after a token
has been taken.  The second half is said through `AgreeBelow`: rules that agree on shorter inputs
cannot be told apart by `body`.  What else `body` needs to know of its argument is the property `P`.

* `Guarded.fix_eq`: the rule is a solution of its equation;
* `Guarded.composed`: it is composed, hence looks one token ahead;
* `Guarded.induction`: what `body` keeps holds of the rule;
* `many_eq`: a repetition whose items consume tokens is a solution of its equation.

`Advances` says that a rule consumes a token whenever it succeeds, which is what makes it an item of
a repetition.
-/

namespace ImpSyntax

namespace Rule

variable {α β : Type} {tokens rest : List Token}

/-! ## Agreement on short inputs -/

/-- The rules have the same outcome on all inputs of fewer than `n` tokens. -/
def AgreeBelow (n : Nat) (rule other : Rule α) : Prop :=
  ∀ tokens, tokens.length < n → rule tokens = other tokens

lemma AgreeBelow.rfl {n : Nat} {rule : Rule α} : AgreeBelow n rule rule :=
  fun _ _ => Eq.refl _

lemma AgreeBelow.mono {m n : Nat} {rule other : Rule α} (h : AgreeBelow n rule other)
    (hle : m ≤ n) : AgreeBelow m rule other :=
  fun tokens hlt => h tokens (Nat.lt_of_lt_of_le hlt hle)

lemma AgreeBelow.bind {n : Nat} {rule other : Rule α} {next otherNext : α → Rule β}
    (hcomposed : Composed rule) (h : AgreeBelow n rule other)
    (hnext : ∀ a, AgreeBelow n (next a) (otherNext a)) :
    AgreeBelow n (rule >>= next) (other >>= otherNext) := by
  intro tokens hlt
  rw [bind_apply, bind_apply, ← h tokens hlt]
  cases hrun : rule tokens with
  | failed failure rest => rfl
  | done a rest =>
    have hle : rest.length ≤ tokens.length := by
      have hsuffix := hcomposed.leavesSuffix tokens
      rw [hrun] at hsuffix
      exact hsuffix.length_le
    exact hnext a rest (Nat.lt_of_le_of_lt hle hlt)

/-- After a token has been taken, agreement is needed on shorter inputs only. -/
lemma AgreeBelow.choose {n : Nat} {kinds : List Kind} {taken otherTaken : Token → Rule α}
    {otherwise otherOtherwise : Rule α}
    (htaken : ∀ token, AgreeBelow n (taken token) (otherTaken token))
    (hother : AgreeBelow (n + 1) otherwise otherOtherwise) :
    AgreeBelow (n + 1) (Rule.choose kinds taken otherwise)
      (Rule.choose kinds otherTaken otherOtherwise) := by
  intro tokens hlt
  by_cases h : NextIs kinds tokens
  · obtain ⟨token, rest, rfl, hkind⟩ := h.exists_cons
    rw [choose_of_mem hkind, choose_of_mem hkind]
    exact htaken token rest (Nat.lt_of_succ_lt_succ hlt)
  · rw [choose_of_not_nextIs h, choose_of_not_nextIs h]
    exact hother tokens hlt

/-! ## The equation of a recursive rule -/

/-- The body of a recursive rule uses its argument only after taking a token.  It may rely on the
argument being a composed rule with the property `P`, which it keeps. -/
structure Guarded (P : Rule α → Prop) (body : Rule α → Rule α) : Prop where
  composed_of : ∀ {rule}, P rule → Composed rule
  base : P (failHere .expectedOperand)
  keeps : ∀ {rule}, P rule → P (body rule)
  agree : ∀ {n rule other}, P rule → AgreeBelow n rule other →
    AgreeBelow (n + 1) (body rule) (body other)

namespace Guarded

variable {P : Rule α → Prop} {body : Rule α → Rule α}

lemma unfold_keeps (h : Guarded P body) (bound : List Token) : P (unfold body bound) := by
  induction bound with
  | nil => exact h.base
  | cons _ bound ih => exact h.keeps ih

/-- Two unfoldings that are both deep enough agree. -/
lemma unfold_agree (h : Guarded P body) (n : Nat) :
    ∀ bound other : List Token, n ≤ bound.length → n ≤ other.length →
      AgreeBelow n (unfold body bound) (unfold body other) := by
  induction n with
  | zero => exact fun _ _ _ _ tokens hlt => absurd hlt (Nat.not_lt_zero _)
  | succ n ih =>
    intro bound other hbound hother
    match bound, other with
    | _ :: bound, _ :: other =>
      exact h.agree (h.unfold_keeps bound)
        (ih bound other (Nat.le_of_succ_le_succ hbound) (Nat.le_of_succ_le_succ hother))

/-- On a given input the rule is any of its unfoldings that is deep enough. -/
lemma fix_eq_body_unfold (h : Guarded P body) {bound : List Token}
    (hle : tokens.length ≤ bound.length) : fix body tokens = body (unfold body bound) tokens :=
  h.agree (h.unfold_keeps tokens) (h.unfold_agree _ tokens bound (Nat.le_refl _) hle) tokens
    (Nat.lt_succ_self _)

lemma unfold_agree_fix (h : Guarded P body) (bound : List Token) :
    AgreeBelow bound.length (unfold body bound) (fix body) := by
  intro tokens hlt
  match bound with
  | _ :: bound => exact (h.fix_eq_body_unfold (Nat.le_of_lt_succ hlt)).symm

/-- The rule solves its equation. -/
theorem fix_eq (h : Guarded P body) : fix body = body (fix body) := by
  funext tokens
  exact h.agree (h.unfold_keeps tokens) (h.unfold_agree_fix tokens) tokens (Nat.lt_succ_self _)

/-- What the body keeps holds of the rule.  Past the bound of an unfolding an operand is missing. -/
theorem induction (h : Guarded P body) {Q : List Token → Outcome α → Prop}
    (hbase : ∀ tokens, Q tokens (failHere .expectedOperand tokens))
    (hstep : ∀ rule : Rule α, P rule → (∀ tokens, Q tokens (rule tokens)) →
      ∀ tokens, Q tokens (body rule tokens)) (tokens : List Token) :
    Q tokens (fix body tokens) := by
  have hunfold : ∀ bound tokens, Q tokens (unfold body bound tokens) := by
    intro bound
    induction bound with
    | nil => exact hbase
    | cons _ bound ih => exact hstep _ (h.unfold_keeps bound) ih
  exact hstep _ (h.unfold_keeps tokens) (hunfold tokens) tokens

/-- The body may rely on anything else that it keeps. -/
lemma and (h : Guarded P body) {R : Rule α → Prop} (hbase : R (failHere .expectedOperand))
    (hkeeps : ∀ {rule}, P rule → R rule → R (body rule)) :
    Guarded (fun rule => P rule ∧ R rule) body where
  composed_of hrule := h.composed_of hrule.1
  base := ⟨h.base, hbase⟩
  keeps hrule := ⟨h.keeps hrule.1, hkeeps hrule.1 hrule.2⟩
  agree hrule := h.agree hrule.1

theorem composed (h : Guarded P body) : Composed (fix body) :=
  .limit (fun bound => body (unfold body bound))
    (fun bound => h.composed_of (h.keeps (h.unfold_keeps bound)))
    (fun _ _ hle => h.fix_eq_body_unfold hle)

end Guarded

/-! ## Progress -/

/-- The rule consumes at least one token whenever it succeeds. -/
def Advances (rule : Rule α) : Prop :=
  ∀ ⦃tokens a rest⦄, rule tokens = .done a rest → rest.length < tokens.length

/-- The rule consumes at least one token whenever it finds something. -/
def ItemAdvances (item? : Rule (Option α)) : Prop :=
  ∀ ⦃tokens a rest⦄, item? tokens = .done (some a) rest → rest.length < tokens.length

lemma Composed.length_le {rule : Rule α} (h : Composed rule) {a : α}
    (hrun : rule tokens = .done a rest) : rest.length ≤ tokens.length := by
  have hsuffix := h.leavesSuffix tokens
  rw [hrun] at hsuffix
  exact hsuffix.length_le

lemma Advances.bind_left {rule : Rule α} {next : α → Rule β} (h : Advances rule)
    (hnext : ∀ a, Composed (next a)) : Advances (rule >>= next) := by
  intro tokens b rest hrun
  obtain ⟨a, middle, hfirst, hsecond⟩ := bind_eq_done.1 hrun
  exact Nat.lt_of_le_of_lt ((hnext a).length_le hsecond) (h hfirst)

lemma Advances.bind_right {rule : Rule α} {next : α → Rule β} (hrule : Composed rule)
    (h : ∀ a, Advances (next a)) : Advances (rule >>= next) := by
  intro tokens b rest hrun
  obtain ⟨a, middle, hfirst, hsecond⟩ := bind_eq_done.1 hrun
  exact Nat.lt_of_lt_of_le (h a hsecond) (hrule.length_le hfirst)

lemma Advances.choose {kinds : List Kind} {taken : Token → Rule α} {otherwise : Rule α}
    (htaken : ∀ token, Composed (taken token)) (hother : Advances otherwise) :
    Advances (Rule.choose kinds taken otherwise) := by
  intro tokens a rest hrun
  rcases choose_cases kinds taken otherwise tokens with ⟨token, others, rfl, -, heq⟩ | ⟨-, heq⟩
  · rw [heq] at hrun
    exact Nat.lt_succ_of_le ((htaken token).length_le hrun)
  · rw [heq] at hrun
    exact hother hrun

lemma Advances.convert {γ : Type} {kinds : List Kind} {value? : String → Option γ}
    {make : γ → Token → α} {otherwise : Rule α} (hother : Advances otherwise) :
    Advances (convert kinds value? make otherwise) := by
  intro tokens a rest hrun
  rcases choose_cases kinds _ otherwise tokens with ⟨token, others, rfl, -, heq⟩ | ⟨-, heq⟩
  · rw [Rule.convert, heq] at hrun
    cases hvalue : value? token.text with
    | none => exact absurd hrun (by simp [hvalue, fail])
    | some value =>
      simp only [hvalue, pure_apply, Outcome.done.injEq] at hrun
      exact hrun.2 ▸ Nat.lt_succ_self _
  · rw [Rule.convert, heq] at hrun
    exact hother hrun

lemma advances_require (kinds : List Kind) : Advances (require kinds) := by
  intro tokens token rest hrun
  obtain ⟨rfl, -⟩ := require_eq_done.1 hrun
  exact Nat.lt_succ_self _

lemma advances_failHere (fault : Fault) : Advances (failHere fault : Rule α) := by
  intro tokens a rest hrun
  exact absurd hrun (by simp [failHere])

lemma advances_unexpected (kinds : List Kind) : Advances (unexpected kinds : Rule α) := by
  intro tokens a rest hrun
  exact absurd hrun (by simp [unexpected])

/-- Taking an item by its first token. -/
lemma ItemAdvances.choose {kinds : List Kind} {taken : Token → Rule (Option α)}
    {otherwise : Rule (Option α)} (htaken : ∀ token, Composed (taken token))
    (hother : ItemAdvances otherwise) : ItemAdvances (Rule.choose kinds taken otherwise) := by
  intro tokens a rest hrun
  rcases choose_cases kinds taken otherwise tokens with ⟨token, others, rfl, -, heq⟩ | ⟨-, heq⟩
  · rw [heq] at hrun
    exact Nat.lt_succ_of_le ((htaken token).length_le hrun)
  · rw [heq] at hrun
    exact hother hrun

lemma itemAdvances_none : ItemAdvances (pure none : Rule (Option α)) := by
  intro tokens a rest hrun
  exact absurd hrun (by simp)

lemma itemAdvances_accept (kinds : List Kind) : ItemAdvances (accept kinds) := by
  intro tokens token rest hrun
  obtain ⟨rfl, -⟩ := accept_eq_some.1 hrun
  exact Nat.lt_succ_self _

lemma ItemAdvances.of_advances {rule : Rule α} (h : Advances rule) :
    ItemAdvances (rule >>= fun a => pure (some a)) := by
  intro tokens a rest hrun
  obtain ⟨a', middle, hfirst, hsecond⟩ := bind_eq_done.1 hrun
  injection hsecond with _ hrest
  subst hrest
  exact h hfirst

/-! ## Repetition -/

/-- One round of a repetition: an item and then all that follow, or nothing. -/
def manyRound (item? : Rule (Option α)) (again : Rule (List α)) : Rule (List α) := do
  match ← item? with
  | none => pure []
  | some a => return a :: (← again)

lemma Composed.manyRound {item? : Rule (Option α)} {again : Rule (List α)} (hitem : Composed item?)
    (hagain : Composed again) : Composed (manyRound item? again) :=
  .bind hitem fun
    | none => .pure []
    | some a => .bind hagain fun more => .pure (a :: more)

lemma guarded_manyRound {item? : Rule (Option α)} (hitem : Composed item?)
    (hadvances : ItemAdvances item?) : Guarded Composed (manyRound item?) where
  composed_of := id
  base := .failHere _
  keeps := hitem.manyRound
  agree := by
    intro n rule other hrule h tokens hlt
    rw [manyRound, manyRound, bind_apply, bind_apply]
    cases hrun : item? tokens with
    | failed failure rest => rfl
    | done found rest =>
      cases found with
      | none => rfl
      | some a =>
        have hshort := hadvances hrun
        exact AgreeBelow.bind hrule h (fun _ => .rfl) rest (by omega)

lemma Composed.many {item? : Rule (Option α)} (hitem : Composed item?)
    (hadvances : ItemAdvances item?) : Composed (many item?) :=
  (guarded_manyRound hitem hadvances).composed

/-- Repetitions agree where their items do. -/
lemma AgreeBelow.many {n : Nat} {item? other? : Rule (Option α)} (hitem : Composed item?)
    (h : AgreeBelow n item? other?) : AgreeBelow n (many item?) (many other?) := by
  have hround : ∀ again other : Rule (List α), Composed again → AgreeBelow n again other →
      AgreeBelow n (manyRound item? again) (manyRound other? other) := by
    intro again other hagain hagree
    refine .bind hitem h ?_
    rintro (_ | a)
    · exact .rfl
    · exact .bind hagain hagree fun _ => .rfl
  have hunfold : ∀ bound, Composed (unfold (manyRound item?) bound) ∧
      AgreeBelow n (unfold (manyRound item?) bound) (unfold (manyRound other?) bound) := by
    intro bound
    induction bound with
    | nil => exact ⟨.failHere _, .rfl⟩
    | cons _ bound ih => exact ⟨hitem.manyRound ih.1, hround _ _ ih.1 ih.2⟩
  intro tokens hlt
  exact hround _ _ (hunfold tokens).1 (hunfold tokens).2 tokens hlt

/-- A repetition is a round of itself. -/
theorem many_eq {item? : Rule (Option α)} (hitem : Composed item?)
    (hadvances : ItemAdvances item?) : many item? = manyRound item? (many item?) :=
  (guarded_manyRound hitem hadvances).fix_eq

/-- A repetition takes a token if what ends it does. -/
lemma Advances.many {item? : Rule (Option α)} (hitem : Composed item?) (h : Advances item?) :
    Advances (many item?) := by
  have hadvances : ItemAdvances item? := fun _ _ _ hrun => h hrun
  rw [many_eq hitem hadvances]
  refine .bind_left h ?_
  rintro (_ | a)
  · exact .pure _
  · exact .bind (.many hitem hadvances) fun _ => .pure _

end Rule

end ImpSyntax
