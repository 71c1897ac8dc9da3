import ImpSyntax.Proofs.Cursor.Place
import ImpSyntax.Proofs.Grammar.Production

/-!
# What holds along every run of a cursor

Actions may be done in any order, and a failure does not end a run: the next action goes on where the
failing rule stopped, possibly in the middle of a construct.  What one action does is `Cursor.Moves`:
the cursor stays among its tokens and never goes back, a single token is taken or none, and asking
changes nothing.  What holds of two places in a row holds of any two places of a run, because being
later is transitive.

Failures are found at the cursor.  However deep in a construct a rule fails, none of the rules around
it moves the cursor any more, so a failure still describes the place where it left the cursor
(`Failure.DescribesPlace`).  A malformed number is the exception.  It has been taken when its text is
found at fault, and so it stands just before the cursor.

The main result is `Cursor.run_invariant`.
-/

namespace ImpSyntax

open Rule

/-- The action asks about the next token, or describes it as a failure, and takes none. -/
def Action.asksOnly : Action → Bool
  | accept _ | require _ | read _ => false
  | mismatch _ | place _ | line | hasNext => true

/-- What a failure says is true of the place of the cursor: it has the line of the next token, or no
line at the end, and quotes that token if it quotes any.  A malformed number is the token before. -/
def Failure.DescribesPlace (failure : Failure) (cursor : Cursor) : Prop :=
  match failure.fault with
  | .malformedNumber text =>
    cursor.position ≠ 0 ∧ ∃ token, cursor.tokens[cursor.position - 1]? = some token ∧
      token.kind = .number ∧ token.text = text ∧ failure.line = some token.line
  | fault =>
    failure.line = cursor.tokens[cursor.position]?.map Token.line ∧
      (failure.line = none ↔ cursor.position = cursor.tokens.length) ∧
      ∀ kinds found, fault = .unexpected kinds found →
        cursor.tokens[cursor.position]?.map Token.text = some found

namespace Cursor

variable {cursor next : Cursor} {answer : Answer} {kinds : List Kind}

/-! ## Failures -/

/-- A fault that is placed at the next token describes it, if what it quotes is the next token. -/
lemma describesPlace_of_next (h : cursor.InBounds) {fault : Fault}
    (hfault : ∀ text, fault ≠ .malformedNumber text)
    (hfound : ∀ kinds found, fault = .unexpected kinds found →
      cursor.ahead.head?.map Token.text = some found) :
    Failure.DescribesPlace ⟨fault, nextLine? cursor.ahead⟩ cursor := by
  have hline : nextLine? cursor.ahead = cursor.tokens[cursor.position]?.map Token.line := by
    rw [nextLine?, head?_ahead]
  have hnone : nextLine? cursor.ahead = none ↔ cursor.position = cursor.tokens.length := by
    rw [hline, Option.map_eq_none_iff, h.getElem?_eq_none]
  rw [head?_ahead] at hfound
  cases fault with
  | malformedNumber text => exact absurd rfl (hfault text)
  | _ => exact ⟨hline, hnone, hfound⟩

lemma describesPlace_mismatch (h : cursor.InBounds) (kinds : List Kind) :
    Failure.DescribesPlace ⟨mismatch kinds cursor.ahead, nextLine? cursor.ahead⟩ cursor := by
  refine describesPlace_of_next h ?_ ?_
  · cases cursor.ahead <;> simp [mismatch]
  · cases cursor.ahead <;> simp [mismatch]

/-- A failure that blames the tokens from some place on describes the place where it leaves the
cursor. -/
lemma describesPlace_of_blames (h : cursor.InBounds) {V : List Token → Prop}
    {before ahead us rest : List Token} {failure : Failure} (hsplit : cursor.ahead = before ++ ahead)
    (hblames : Blames V before ahead failure rest) (hrest : cursor.ahead = us ++ rest) :
    failure.DescribesPlace (cursor.forward us.length) := by
  have hnext : (cursor.forward us.length).ahead = rest := ahead_forward hrest
  have hbounds : (cursor.forward us.length).InBounds := h.forward hrest
  cases hblames with
  | missing _ _ =>
    rw [← hnext]
    exact describesPlace_mismatch hbounds _
  | operand _ =>
    rw [← hnext]
    exact describesPlace_of_next hbounds (by simp) (by simp)
  | @malformed token _ hahead hkind =>
    -- the number is the last token that was consumed
    have hus : us = before ++ [token] := by
      rw [hrest, hahead, List.append_cons] at hsplit
      exact List.append_cancel_right hsplit
    have hlast : cursor.tokens[cursor.position + before.length]? = some token := by
      rw [← getElem?_ahead, hrest, hus]
      simp
    rw [hus, List.length_append, List.length_singleton]
    exact ⟨Nat.succ_ne_zero _, token, hlast, hkind, rfl, rfl⟩

/-! ## One action -/

/-- The cursor at the same place of its tokens or at a later one. -/
structure Later (cursor next : Cursor) : Prop where
  tokens_eq : next.tokens = cursor.tokens
  position_le : cursor.position ≤ next.position
  inBounds : next.InBounds

lemma Later.refl (h : cursor.InBounds) : Later cursor cursor :=
  ⟨rfl, Nat.le_refl _, h⟩

lemma Later.trans {last : Cursor} (h : Later cursor next) (hnext : Later next last) :
    Later cursor last :=
  ⟨hnext.tokens_eq.trans h.tokens_eq, Nat.le_trans h.position_le hnext.position_le, hnext.inBounds⟩

lemma Later.forward (h : cursor.InBounds) {us rest : List Token}
    (hahead : cursor.ahead = us ++ rest) : Later cursor (cursor.forward us.length) :=
  ⟨rfl, Nat.le_add_right _ _, h.forward hahead⟩

/-- What an action does to a cursor, and what its answer says. -/
structure Moves (cursor : Cursor) (action : Action) (answer : Answer) (next : Cursor) : Prop
    extends Later cursor next where
  /-- A single token is taken if it is of one of the kinds, and otherwise none. -/
  takes : ∀ kinds, action = .accept kinds ∨ action = .require kinds →
    (∃ token, cursor.tokens[cursor.position]? = some token ∧ token.kind ∈ kinds ∧
      answer = .token token ∧ next = cursor.forward 1) ∨
    ((∀ token, cursor.tokens[cursor.position]? = some token → token.kind ∉ kinds) ∧
      (∀ token, answer ≠ .token token) ∧ next = cursor)
  /-- Asking takes no token. -/
  stays : action.asksOnly = true → next = cursor
  /-- A failure that is met describes the place where the cursor is afterwards. -/
  describes : ∀ failure, action.asksOnly = false → answer = .failure failure →
    failure.DescribesPlace next

lemma not_nextIs_ahead : ¬ NextIs kinds cursor.ahead ↔
    ∀ token, cursor.tokens[cursor.position]? = some token → token.kind ∉ kinds := by
  rw [← head?_ahead]
  cases cursor.ahead <;> simp

/-- The next token is taken. -/
lemma Moves.of_taken {action : Action} {token : Token} {rest : List Token} (h : cursor.InBounds)
    (hahead : cursor.ahead = token :: rest) (hasks : action.asksOnly = false)
    (hkind : ∀ kinds, action = .accept kinds ∨ action = .require kinds → token.kind ∈ kinds) :
    Moves cursor action (.token token) (cursor.moveTo rest) := by
  have hsplit : cursor.ahead = [token] ++ rest := hahead
  have hnext : cursor.tokens[cursor.position]? = some token := by
    rw [← head?_ahead, hahead, List.head?_cons]
  rw [moveTo_eq_forward h hsplit, List.length_singleton]
  exact
    { toLater := .forward h hsplit
      takes := fun kinds haction => .inl ⟨token, hnext, hkind kinds haction, rfl, rfl⟩
      stays := fun hasks' => absurd (hasks.symm.trans hasks') Bool.false_ne_true
      describes := fun _ _ hanswer => absurd hanswer (by simp) }

/-- No token is taken. -/
lemma Moves.of_left {action : Action} (h : cursor.InBounds)
    (hkind : ∀ kinds, action = .accept kinds ∨ action = .require kinds →
      ¬ NextIs kinds cursor.ahead)
    (hanswer : ∀ token, answer ≠ .token token)
    (hdescribes : ∀ failure, action.asksOnly = false → answer = .failure failure →
      failure.DescribesPlace cursor) : Moves cursor action answer cursor where
  toLater := .refl h
  takes kinds haction := .inr ⟨not_nextIs_ahead.1 (hkind kinds haction), hanswer, rfl⟩
  stays _ := rfl
  describes := hdescribes

/-- A rule is used. -/
lemma Moves.of_read {production : Production} (hlater : Later cursor next)
    (hdescribes : ∀ failure, answer = .failure failure → failure.DescribesPlace next) :
    Moves cursor (.read production) answer next where
  toLater := hlater
  takes _ haction := absurd haction (by simp)
  stays hasks := absurd hasks Bool.false_ne_true
  describes failure _ := hdescribes failure

lemma moves_accept (h : cursor.InBounds) (kinds : List Kind) :
    Moves cursor (.accept kinds) (cursor.act (.accept kinds)).1
      (cursor.act (.accept kinds)).2 := by
  by_cases hnext : NextIs kinds cursor.ahead
  · obtain ⟨token, rest, hahead, hkind⟩ := hnext.exists_cons
    have hrun : accept kinds cursor.ahead = .done (some token) rest := by
      rw [hahead, accept_of_mem hkind]
    rw [act, answer_of_done hrun]
    exact .of_taken h hahead rfl (by simp [hkind])
  · rw [act, answer_of_done (accept_of_not_nextIs hnext), moveTo_ahead h]
    exact .of_left h (by simp [hnext]) (by simp) (by simp)

lemma moves_require (h : cursor.InBounds) (kinds : List Kind) :
    Moves cursor (.require kinds) (cursor.act (.require kinds)).1
      (cursor.act (.require kinds)).2 := by
  by_cases hnext : NextIs kinds cursor.ahead
  · obtain ⟨token, rest, hahead, hkind⟩ := hnext.exists_cons
    have hrun : require kinds cursor.ahead = .done token rest := by
      rw [hahead, require_of_mem hkind]
    rw [act, answer_of_done hrun]
    exact .of_taken h hahead rfl (by simp [hkind])
  · rw [act, answer_of_failed (require_of_not_nextIs hnext), moveTo_ahead h]
    refine .of_left h (by simp [hnext]) (by simp) fun failure _ hanswer => ?_
    injection hanswer with hfailure
    rw [← hfailure]
    exact describesPlace_mismatch h kinds

lemma moves_read (h : cursor.InBounds) (production : Production) :
    Moves cursor (.read production) (cursor.act (.read production)).1
      (cursor.act (.read production)).2 := by
  obtain ⟨us, hahead, -⟩ := apply_eq_forward production.composed h
  cases hrun : production.rule cursor.ahead with
  | done phrase rest =>
    rw [hrun, Outcome.rest_done] at hahead
    rw [act, answer_of_done hrun, moveTo_eq_forward h hahead]
    exact .of_read (.forward h hahead) (by simp)
  | failed failure rest =>
    rw [hrun, Outcome.rest_failed] at hahead
    rw [act, answer_of_failed hrun, moveTo_eq_forward h hahead]
    refine .of_read (.forward h hahead) fun failure' hanswer => ?_
    injection hanswer with hfailure
    obtain ⟨before, ahead, hsplit, hblames⟩ := production.explains hrun
    rw [← hfailure]
    exact describesPlace_of_blames h hsplit hblames hahead

/-- Whatever an action does, it is a move. -/
theorem moves_act (h : cursor.InBounds) (action : Action) :
    Moves cursor action (cursor.act action).1 (cursor.act action).2 := by
  cases action with
  | accept kinds => exact moves_accept h kinds
  | require kinds => exact moves_require h kinds
  | read production => exact moves_read h production
  | mismatch kinds => exact .of_left h (by simp) (by simp [act]) (by simp [Action.asksOnly])
  | place fault => exact .of_left h (by simp) (by simp [act]) (by simp [Action.asksOnly])
  | line =>
    refine .of_left h (by simp) ?_ (by simp [Action.asksOnly])
    rw [act]
    cases cursor.line? <;> simp
  | hasNext => exact .of_left h (by simp) (by simp [act]) (by simp [Action.asksOnly])

/-! ## Runs -/

/-- The cursors of a run, with the one that it starts from. -/
def places (cursor : Cursor) (actions : List Action) : List Cursor :=
  cursor :: (cursor.run actions).map Prod.snd

lemma run_cons (action : Action) (actions : List Action) : cursor.run (action :: actions) =
    cursor.act action :: (cursor.act action).2.run actions := rfl

lemma length_run (actions : List Action) : (cursor.run actions).length = actions.length := by
  induction actions generalizing cursor with
  | nil => rfl
  | cons action actions ih => rw [run_cons, List.length_cons, List.length_cons, ih]

/-- Each place of a run is later than the ones before it. -/
lemma pairwise_later_places (h : cursor.InBounds) (actions : List Action) :
    (cursor.places actions).Pairwise Later := by
  induction actions generalizing cursor with
  | nil => exact List.pairwise_singleton _ _
  | cons action actions ih =>
    have hmoves := moves_act h action
    have hlater := ih hmoves.inBounds
    refine List.pairwise_cons.2 ⟨?_, hlater⟩
    intro place hplace
    rcases List.mem_cons.1 hplace with rfl | hplace
    · exact hmoves.toLater
    · exact hmoves.toLater.trans ((List.pairwise_cons.1 hlater).1 place hplace)

/-- Each answer of a run, with the cursor after it, comes of the action done at the cursor before. -/
lemma act_of_run {actions : List Action} {i : Nat} {action : Action} {place : Cursor}
    {step : Answer × Cursor} (haction : actions[i]? = some action)
    (hplace : (cursor.places actions)[i]? = some place)
    (hstep : (cursor.run actions)[i]? = some step) : place.act action = step := by
  induction actions generalizing cursor i with
  | nil => exact absurd haction (by simp)
  | cons first actions ih =>
    cases i with
    | zero =>
      obtain rfl : first = action := by simpa using haction
      obtain rfl : cursor = place := by simpa [places] using hplace
      simpa [run_cons] using hstep
    | succ i =>
      exact ih (by simpa using haction) (by simpa [places, run_cons] using hplace)
        (by simpa [run_cons] using hstep)

/-- Along every run of a cursor, whatever is done and whatever fails, the tokens stay the same and
the cursor stays among them and never goes back.  Each action moves it as far as it may, and the
failures of the rules describe the places where they leave it. -/
theorem run_invariant (tokens : List Token) (actions : List Action) :
    ((start tokens).run actions).length = actions.length ∧
      (∀ place ∈ (start tokens).places actions,
        place.tokens = tokens ∧ place.position ≤ tokens.length) ∧
      ((start tokens).places actions).Pairwise (fun place later =>
        place.position ≤ later.position) ∧
      ∀ (i : Nat) (action : Action) (place next : Cursor) (answer : Answer),
        actions[i]? = some action → ((start tokens).places actions)[i]? = some place →
        ((start tokens).run actions)[i]? = some (answer, next) →
        Moves place action answer next := by
  have hstart := inBounds_start tokens
  have hlater := pairwise_later_places hstart actions
  have hplaces : ∀ place ∈ (start tokens).places actions, Later (start tokens) place := by
    rintro place (_ | ⟨_, hplace⟩)
    · exact .refl hstart
    · exact (List.pairwise_cons.1 hlater).1 place hplace
  refine ⟨length_run actions, ?_, hlater.imp Later.position_le, ?_⟩
  · intro place hplace
    have htokens : place.tokens = tokens := (hplaces place hplace).tokens_eq
    have hbounds : place.position ≤ place.tokens.length := (hplaces place hplace).inBounds
    rw [htokens] at hbounds
    exact ⟨htokens, hbounds⟩
  · intro i action place next answer haction hplace hstep
    have hact := act_of_run haction hplace hstep
    have hmoves := moves_act (hplaces place (List.mem_of_getElem? hplace)).inBounds action
    rwa [hact] at hmoves

/-- A run that goes on after a statement without its second operand, and then meets a malformed
number at the end. -/
theorem run_invariant_resumed :
    let tokens : List Token := [⟨.identifier, "x", 1⟩, .ofKind .plus 1, .ofKind .semicolon 1,
      ⟨.number, "one", 2⟩]
    let actions : List Action := [.read .statement, .accept [.semicolon], .read .primary]
    let answer : Answer := .failure ⟨.malformedNumber "one", some 2⟩
    actions[2]? = some (.read .primary) ∧
      ((start tokens).places actions)[2]? = some ⟨tokens, 3⟩ ∧
      ((start tokens).run actions)[2]? = some (answer, ⟨tokens, 4⟩) ∧
      Moves ⟨tokens, 3⟩ (.read .primary) answer ⟨tokens, 4⟩ := by
  intro tokens actions answer
  have hplace : ((start tokens).places actions)[2]? = some ⟨tokens, 3⟩ := by rfl
  have hstep : ((start tokens).run actions)[2]? = some (answer, ⟨tokens, 4⟩) := by rfl
  exact ⟨rfl, hplace, hstep,
    (run_invariant tokens actions).2.2.2 2 _ _ _ _ rfl hplace hstep⟩

end Cursor

end ImpSyntax
