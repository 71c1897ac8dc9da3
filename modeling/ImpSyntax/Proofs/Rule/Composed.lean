import ImpSyntax.Proofs.Rule.Outcome
import Mathlib.Data.List.Basic

/-!
# Rules made of the basic ones

`Composed rule` says that a rule is put together from the basic rules by sequencing and as the limit
of its approximations, which is how recursion arises.  Whatever the basic rules have in common and
sequencing keeps is then true of every rule of the grammar, by one induction:

* `Composed.leavesSuffix`: what is left is a suffix of what was given;
* `Composed.looksAhead`: nothing past the next token has any influence;
* `Composed.failsForGood`: a failure that has a line stays the same when there are more tokens.

`LooksAhead` compares two runs.  It starts from the tokens a rule consumed and those it left, and
replaces the latter by others that begin with the same token, or are empty as well.  So it does not
say what becomes of a failure at the end when tokens are added.  Such a failure has no line, as
there is none to give (`Composed.line_eq_none`), except for a malformed number, which is at fault
whatever follows.
-/

namespace ImpSyntax

namespace Rule

variable {α β : Type}

/-- Read a token of the given kinds by its text.  A text that has no value makes the number
malformed; without such a token the rule `otherwise` is used. -/
def convert {γ : Type} (kinds : List Kind) (value? : String → Option γ) (make : γ → Token → α)
    (otherwise : Rule α) : Rule α :=
  choose kinds
    (fun token =>
      match value? token.text with
      | some value => pure (make value token)
      | none => fail ⟨.malformedNumber token.text, some token.line⟩)
    otherwise

/-- A rule that is put together from the basic rules. -/
inductive Composed : {α : Type} → Rule α → Prop where
  | pure {α : Type} (a : α) : Composed (pure a : Rule α)
  | accept (kinds : List Kind) : Composed (accept kinds)
  | atEnd : Composed atEnd
  | failHere {α : Type} (fault : Fault) : Composed (failHere fault : Rule α)
  | unexpected {α : Type} (kinds : List Kind) : Composed (unexpected kinds : Rule α)
  | convert {α γ : Type} (kinds : List Kind) (value? : String → Option γ) (make : γ → Token → α)
      {otherwise : Rule α} (hother : Composed otherwise) :
      Composed (convert kinds value? make otherwise)
  | bind {α β : Type} {rule : Rule α} {next : α → Rule β} (hrule : Composed rule)
      (hnext : ∀ a, Composed (next a)) : Composed (rule >>= next)
  /-- A rule that on each input is one of its approximations.  The list that bounds an approximation
  may be any that is long enough. -/
  | limit {α : Type} {rule : Rule α} (approximation : List Token → Rule α)
      (happrox : ∀ bound, Composed (approximation bound))
      (heq : ∀ bound tokens, tokens.length ≤ bound.length →
        rule tokens = approximation bound tokens) : Composed rule

lemma Composed.choose {kinds : List Kind} {taken : Token → Rule α} {otherwise : Rule α}
    (htaken : ∀ token, Composed (taken token)) (hother : Composed otherwise) :
    Composed (Rule.choose kinds taken otherwise) :=
  .bind (.accept kinds) fun
    | some token => htaken token
    | none => hother

lemma Composed.require (kinds : List Kind) : Composed (Rule.require kinds) :=
  .choose .pure (.unexpected kinds)

/-! ## What is left -/

/-- What the rule leaves is a suffix of what it is given. -/
def LeavesSuffix (rule : Rule α) : Prop :=
  ∀ tokens, (rule tokens).rest <:+ tokens

lemma LeavesSuffix.bind {rule : Rule α} {next : α → Rule β} (hrule : LeavesSuffix rule)
    (hnext : ∀ a, LeavesSuffix (next a)) : LeavesSuffix (rule >>= next) := by
  intro tokens
  have hfirst := hrule tokens
  rw [bind_apply]
  cases h : rule tokens with
  | failed failure rest => simpa [h] using hfirst
  | done a rest =>
    rw [h] at hfirst
    exact (hnext a rest).trans hfirst

lemma leavesSuffix_accept (kinds : List Kind) : LeavesSuffix (accept kinds) := by
  intro tokens
  by_cases h : NextIs kinds tokens
  · obtain ⟨token, rest, rfl, hkind⟩ := h.exists_cons
    rw [accept_of_mem hkind]
    exact List.suffix_cons token rest
  · rw [accept_of_not_nextIs h]
    exact List.suffix_rfl

lemma LeavesSuffix.convert {γ : Type} {kinds : List Kind} {value? : String → Option γ}
    {make : γ → Token → α} {otherwise : Rule α} (hother : LeavesSuffix otherwise) :
    LeavesSuffix (convert kinds value? make otherwise) := by
  refine .bind (leavesSuffix_accept kinds) ?_
  rintro (_ | token) tokens
  · exact hother tokens
  · dsimp only
    cases value? token.text <;> exact List.suffix_rfl

theorem Composed.leavesSuffix {rule : Rule α} (h : Composed rule) : LeavesSuffix rule := by
  induction h with
  | accept kinds => exact leavesSuffix_accept kinds
  | convert kinds value? make _ ih => exact .convert ih
  | bind _ _ ihrule ihnext => exact .bind ihrule ihnext
  | limit approximation _ heq ih =>
    intro tokens
    rw [heq tokens tokens (Nat.le_refl _)]
    exact ih tokens tokens
  | _ => exact fun tokens => List.suffix_rfl

/-! ## What is looked at -/

/-- The rule looks no further than at the first of the tokens it leaves. -/
def LooksAhead (rule : Rule α) : Prop :=
  ∀ consumed rest other : List Token, (rule (consumed ++ rest)).rest = rest →
    rest.head? = other.head? →
    rule (consumed ++ other) = (rule (consumed ++ rest)).withRest other

/-- A rule that consumes nothing looks ahead if its outcome depends on the next token only. -/
lemma looksAhead_of_stays {rule : Rule α} (hstays : ∀ tokens, (rule tokens).rest = tokens)
    (hcongr : ∀ tokens other : List Token, tokens.head? = other.head? →
      rule other = (rule tokens).withRest other) : LooksAhead rule := by
  intro consumed rest other hrest hhead
  rw [hstays, List.append_left_eq_self] at hrest
  subst hrest
  exact hcongr rest other hhead

lemma nextLine?_congr {tokens other : List Token} (h : tokens.head? = other.head?) :
    nextLine? tokens = nextLine? other := by
  rw [nextLine?, nextLine?, h]

lemma mismatch_congr {kinds : List Kind} {tokens other : List Token}
    (h : tokens.head? = other.head?) : mismatch kinds tokens = mismatch kinds other := by
  cases tokens <;> cases other <;> simp_all [mismatch]

lemma looksAhead_fail (failure : Failure) : LooksAhead (fail failure : Rule α) :=
  looksAhead_of_stays (fun _ => rfl) (fun _ _ _ => rfl)

lemma looksAhead_accept (kinds : List Kind) : LooksAhead (accept kinds) := by
  intro consumed rest other hrest hhead
  by_cases h : NextIs kinds (consumed ++ rest)
  · cases consumed with
    | nil =>
      -- then the rule would leave the token it took
      cases rest with
      | nil => exact absurd h not_nextIs_nil
      | cons token rest =>
        rw [List.nil_append, accept_of_mem h] at hrest
        exact absurd hrest List.ne_cons_self
    | cons token consumed =>
      have hrun : accept kinds (token :: consumed ++ rest) =
          .done (some token) (consumed ++ rest) := accept_of_mem h
      have hnil : consumed = [] := by
        rw [hrun] at hrest
        exact List.append_left_eq_self.1 hrest
      subst hnil
      rw [hrun, Outcome.withRest_done]
      exact accept_of_mem h
  · rw [accept_of_not_nextIs h] at hrest ⊢
    have hnil : consumed = [] := List.append_left_eq_self.1 hrest
    subst hnil
    exact accept_of_not_nextIs fun hother => h ((nextIs_congr hhead).2 hother)

/-- The two rules meet at a place in the consumed tokens.  Either the first one stops before the
last of them and looks at no other, or it stops at the end of them and looks at the token they
share. -/
lemma LooksAhead.bind {rule : Rule α} {next : α → Rule β} (hsuffix : LeavesSuffix rule)
    (hnextSuffix : ∀ a, LeavesSuffix (next a)) (hrule : LooksAhead rule)
    (hnext : ∀ a, LooksAhead (next a)) : LooksAhead (rule >>= next) := by
  intro consumed rest other hrest hhead
  obtain ⟨before, hbefore⟩ := hsuffix (consumed ++ rest)
  cases h : rule (consumed ++ rest) with
  | failed failure middle =>
    rw [bind_of_failed h, Outcome.rest_failed] at hrest
    subst hrest
    have hfirst := hrule consumed middle other (by rw [h, Outcome.rest_failed]) hhead
    rw [h, Outcome.withRest_failed] at hfirst
    rw [bind_of_failed h, bind_of_failed hfirst, Outcome.withRest_failed]
  | done a middle =>
    rw [h, Outcome.rest_done] at hbefore
    rw [bind_of_done h] at hrest ⊢
    obtain ⟨after, hafter⟩ : ∃ after, middle = after ++ rest := by
      obtain ⟨after, hafter⟩ := hnextSuffix a middle
      exact ⟨after, by rw [← hrest, hafter]⟩
    subst hafter
    have hconsumed : consumed = before ++ after := by
      rw [← List.append_assoc] at hbefore
      exact (List.append_cancel_right hbefore).symm
    subst hconsumed
    rw [List.append_assoc] at h ⊢
    have hshared : (after ++ rest).head? = (after ++ other).head? := by
      cases after with
      | nil => exact hhead
      | cons token after => rfl
    have hfirst := hrule before (after ++ rest) (after ++ other)
      (by rw [h, Outcome.rest_done]) hshared
    rw [h, Outcome.withRest_done] at hfirst
    rw [bind_of_done hfirst]
    exact hnext a after rest other hrest hhead

lemma looksAhead_failHere (fault : Fault) : LooksAhead (failHere fault : Rule α) := by
  refine looksAhead_of_stays (fun _ => rfl) fun tokens other hhead => ?_
  rw [failHere, failHere, nextLine?_congr hhead, Outcome.withRest_failed]

lemma looksAhead_unexpected (kinds : List Kind) : LooksAhead (unexpected kinds : Rule α) := by
  refine looksAhead_of_stays (fun _ => rfl) fun tokens other hhead => ?_
  rw [unexpected, unexpected, nextLine?_congr hhead, mismatch_congr hhead,
    Outcome.withRest_failed]

lemma looksAhead_atEnd : LooksAhead atEnd := by
  refine looksAhead_of_stays (fun _ => rfl) fun tokens other hhead => ?_
  have hempty : tokens.isEmpty = other.isEmpty := by
    cases tokens <;> cases other <;> simp_all
  rw [atEnd, atEnd, hempty, Outcome.withRest_done]

theorem Composed.looksAhead {rule : Rule α} (h : Composed rule) : LooksAhead rule := by
  induction h with
  | pure a => exact looksAhead_of_stays (fun _ => rfl) (fun _ _ _ => rfl)
  | accept kinds => exact looksAhead_accept kinds
  | atEnd => exact looksAhead_atEnd
  | failHere fault => exact looksAhead_failHere fault
  | unexpected kinds => exact looksAhead_unexpected kinds
  | convert kinds value? make hother ih =>
    refine .bind (leavesSuffix_accept kinds) ?_ (looksAhead_accept kinds) ?_
    · rintro (_ | token) tokens
      · exact hother.leavesSuffix tokens
      · dsimp only
        cases value? token.text <;> exact List.suffix_rfl
    · rintro (_ | token)
      · exact ih
      · dsimp only
        cases value? token.text with
        | none => exact looksAhead_fail _
        | some value => exact looksAhead_of_stays (fun _ => rfl) (fun _ _ _ => rfl)
  | bind hrule hnext ihrule ihnext =>
    exact .bind hrule.leavesSuffix (fun a => (hnext a).leavesSuffix) ihrule ihnext
  | limit approximation _ heq ih =>
    intro consumed rest other hrest hhead
    have hrun := heq (consumed ++ rest ++ other) (consumed ++ rest) (by simp)
    have hother := heq (consumed ++ rest ++ other) (consumed ++ other) (by simp)
    rw [hrun] at hrest ⊢
    rw [hother]
    exact ih _ consumed rest other hrest hhead

/-! ## Failures that have a line -/

/-- Where no token is left, a failure has no line. -/
lemma Composed.line_eq_none {rule : Rule α} (h : Composed rule) :
    ∀ {failure rest}, rule [] = .failed failure rest → failure.line = none := by
  induction h with
  | pure a => intro failure rest hrun; exact absurd hrun (by simp)
  | accept kinds => intro failure rest hrun; exact absurd hrun accept_ne_failed
  | atEnd => intro failure rest hrun; exact absurd hrun (by simp [atEnd_apply])
  | failHere _ | unexpected _ =>
    intro failure rest hrun
    injection hrun with hfailure
    rw [← hfailure]
    rfl
  | convert kinds value? make _ ih =>
    intro failure rest hrun
    rw [Rule.convert, choose_of_not_nextIs not_nextIs_nil] at hrun
    exact ih hrun
  | @bind _ _ rule next hrule _ ihrule ihnext =>
    intro failure rest hrun
    rcases bind_eq_failed.1 hrun with hfirst | ⟨a, middle, hfirst, hsecond⟩
    · exact ihrule hfirst
    · have hmiddle : middle <:+ [] := by simpa [hfirst] using hrule.leavesSuffix []
      rw [List.suffix_nil.1 hmiddle] at hsecond
      exact ihnext a hsecond
  | limit approximation _ heq ih =>
    intro failure rest hrun
    rw [heq [] [] (Nat.le_refl _)] at hrun
    exact ih [] hrun

/-- A failure that has a line stays the same when there are more tokens. -/
def FailsForGood (rule : Rule α) : Prop :=
  ∀ ⦃tokens failure rest⦄, rule tokens = .failed failure rest → failure.line ≠ none →
    ∀ more, rule (tokens ++ more) = .failed failure (rest ++ more)

/-- The rule never fails. -/
lemma failsForGood_of_ne_failed {rule : Rule α}
    (h : ∀ tokens failure rest, rule tokens ≠ .failed failure rest) : FailsForGood rule :=
  fun tokens failure rest hrun => absurd hrun (h tokens failure rest)

/-- A rule that fails at the next token, whatever else is ahead. -/
lemma failsForGood_at_next {fault : List Token → Fault}
    (hcongr : ∀ token rest more, fault (token :: rest) = fault (token :: (rest ++ more))) :
    FailsForGood (fun tokens => .failed ⟨fault tokens, nextLine? tokens⟩ tokens : Rule α) := by
  intro tokens failure rest hrun hline more
  injection hrun with hfailure hrest
  subst hfailure hrest
  cases tokens with
  | nil => exact absurd rfl hline
  | cons token tokens =>
    rw [hcongr token tokens more]
    rfl

lemma FailsForGood.convert {γ : Type} {kinds : List Kind} {value? : String → Option γ}
    {make : γ → Token → α} {otherwise : Rule α} (hcomposed : Composed otherwise)
    (hother : FailsForGood otherwise) : FailsForGood (convert kinds value? make otherwise) := by
  intro tokens failure rest hrun hline more
  cases tokens with
  | nil =>
    rw [Rule.convert, choose_of_not_nextIs not_nextIs_nil] at hrun
    exact absurd (hcomposed.line_eq_none hrun) hline
  | cons token tokens =>
    by_cases hkind : token.kind ∈ kinds
    · rw [Rule.convert, choose_of_mem hkind] at hrun
      rw [Rule.convert, List.cons_append, choose_of_mem hkind]
      cases hvalue : value? token.text with
      | none =>
        simp only [hvalue, fail, Outcome.failed.injEq] at hrun ⊢
        exact ⟨hrun.1, by rw [hrun.2]⟩
      | some value => exact absurd hrun (by simp [hvalue])
    · rw [Rule.convert, choose_of_not_nextIs (by simpa using hkind)] at hrun
      rw [Rule.convert, choose_of_not_nextIs (by simpa using hkind)]
      exact hother hrun hline more

/-- The first rule has not come to the end, or else the second one would fail without a line. -/
lemma FailsForGood.bind {rule : Rule α} {next : α → Rule β} (hcomposed : Composed rule)
    (hnextComposed : ∀ a, Composed (next a)) (hrule : FailsForGood rule)
    (hnext : ∀ a, FailsForGood (next a)) : FailsForGood (rule >>= next) := by
  intro tokens failure rest hrun hline more
  rcases bind_eq_failed.1 hrun with hfirst | ⟨a, middle, hfirst, hsecond⟩
  · exact bind_of_failed (hrule hfirst hline more)
  · cases middle with
    | nil => exact absurd ((hnextComposed a).line_eq_none hsecond) hline
    | cons token middle =>
      obtain ⟨consumed, hconsumed⟩ := hcomposed.leavesSuffix tokens
      rw [hfirst, Outcome.rest_done] at hconsumed
      subst hconsumed
      have hmore := hcomposed.looksAhead consumed (token :: middle) (token :: middle ++ more)
        (by rw [hfirst, Outcome.rest_done]) rfl
      rw [hfirst, Outcome.withRest_done, ← List.append_assoc] at hmore
      rw [bind_of_done hmore]
      exact hnext a hsecond hline more

theorem Composed.failsForGood {rule : Rule α} (h : Composed rule) : FailsForGood rule := by
  induction h with
  | pure a => exact failsForGood_of_ne_failed (by simp)
  | accept kinds => exact failsForGood_of_ne_failed fun _ _ _ => accept_ne_failed
  | atEnd => exact failsForGood_of_ne_failed (by simp [atEnd_apply])
  | failHere fault => exact failsForGood_at_next fun _ _ _ => rfl
  | unexpected kinds => exact failsForGood_at_next fun _ _ _ => rfl
  | convert kinds value? make hother ih => exact .convert hother ih
  | bind hrule hnext ihrule ihnext => exact .bind hrule hnext ihrule ihnext
  | limit approximation _ heq ih =>
    intro tokens failure rest hrun hline more
    rw [heq (tokens ++ more) tokens (by simp)] at hrun
    rw [heq (tokens ++ more) (tokens ++ more) (Nat.le_refl _)]
    exact ih _ hrun hline more

end Rule

end ImpSyntax
