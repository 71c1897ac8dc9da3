import ImpSyntax.Proofs.Rule.Recursion
import Mathlib.Data.Prod.Lex
import Mathlib.Order.WithBot

/-!
# Rules that use one another

`Rule.fix` makes every recursive rule total.  So a rule that used itself for ever would not stand
out: it would come to the bound of its unfolding and fail there like any other.  To say that reading
comes to an end by itself, rules are written down as scripts here.  In a `Script` the use of another
rule is a mark and not an outcome, and nothing bounds how often such marks may be followed.

* `Script.rule` is the rule that a script stands for, given the rules that it uses;
* `Script.Ends` follows a script step by step.  Its derivations are finite, so a script that goes on
  for ever has none, whatever the tokens;
* `Script.Uses` says what is used on the way, and with which tokens ahead.

A family of rules is `Justified` if the scripts stand for the rules, and if every use is of a rule
that is lower, or comes after a token has been taken.  The tokens that are left and the height, in
this order, are then what decreases.  The main results are `Justified.ends`, by recursion on the two
of them, and `Justified.below`.
-/

namespace ImpSyntax

open Rule

namespace Rule

variable {α : Type}

/-- The rules that use no other rule. -/
inductive Basic : {α : Type} → Rule α → Prop where
  | pure {α : Type} (a : α) : Basic (pure a : Rule α)
  | accept (kinds : List Kind) : Basic (accept kinds)
  | require (kinds : List Kind) : Basic (require kinds)
  | atEnd : Basic atEnd
  | failHere {α : Type} (fault : Fault) : Basic (failHere fault : Rule α)
  | unexpected {α : Type} (kinds : List Kind) : Basic (unexpected kinds : Rule α)
  | fail {α : Type} (failure : Failure) : Basic (fail failure : Rule α)

lemma Basic.leavesSuffix {rule : Rule α} (h : Basic rule) : LeavesSuffix rule := by
  cases h with
  | accept kinds => exact leavesSuffix_accept kinds
  | require kinds => exact (Composed.require kinds).leavesSuffix
  | _ => exact fun tokens => List.suffix_rfl

/-- Whenever the rule reads `a`, it has taken a token. -/
def Takes (rule : Rule α) (a : α) : Prop :=
  ∀ ⦃tokens rest⦄, rule tokens = .done a rest → rest.length < tokens.length

end Rule

/-- The steps of a rule that may use routines, one after another or again and again. -/
inductive Script (Routine : Type → Type) : Type → Type 1 where
  | basic {α : Type} (rule : Rule α) (h : Basic rule) : Script Routine α
  | bind {α β : Type} (first : Script Routine α) (next : α → Script Routine β) : Script Routine β
  /-- All items up to the first time that there is none. -/
  | many {α : Type} (item? : Script Routine (Option α)) : Script Routine (List α)
  | use {α : Type} (routine : Routine α) : Script Routine α

namespace Script

variable {Routine : Type → Type} {α β : Type}

instance : Monad (Script Routine) where
  pure a := .basic (pure a) (.pure a)
  bind := .bind

def accept (kinds : List Kind) : Script Routine (Option Token) :=
  .basic (Rule.accept kinds) (.accept kinds)

def require (kinds : List Kind) : Script Routine Token :=
  .basic (Rule.require kinds) (.require kinds)

def atEnd : Script Routine Bool :=
  .basic Rule.atEnd .atEnd

def failHere (fault : Fault) : Script Routine α :=
  .basic (Rule.failHere fault) (.failHere fault)

def unexpected (kinds : List Kind) : Script Routine α :=
  .basic (Rule.unexpected kinds) (.unexpected kinds)

def fail (failure : Failure) : Script Routine α :=
  .basic (Rule.fail failure) (.fail failure)

/-- One round of a repetition: an item and then all that follow, or nothing. -/
def round (item? : Script Routine (Option α)) : Script Routine (List α) := do
  match ← item? with
  | none => pure []
  | some a => return a :: (← many item?)

/-- The script with its first round written out, if it is a repetition. -/
def unroll : Script Routine α → Script Routine α
  | .many item? => round item?
  | script => script

/-! ## The rule of a script -/

/-- The rule that a script stands for, where its routines stand for the given rules. -/
def rule (rules : ⦃α : Type⦄ → Routine α → Rule α) {α : Type} : Script Routine α → Rule α
  | .basic rule _ => rule
  | .bind first next => first.rule rules >>= fun a => (next a).rule rules
  | .many item? => Rule.many (item?.rule rules)
  | .use routine => rules routine

section

variable (rules : ⦃α : Type⦄ → Routine α → Rule α)

lemma rule_bind (first : Script Routine α) (next : α → Script Routine β) :
    (first >>= next).rule rules = first.rule rules >>= fun a => (next a).rule rules := rfl

lemma rule_bind_congr {rules : ⦃α : Type⦄ → Routine α → Rule α} {first : Script Routine α}
    {next : α → Script Routine β} {other : α → Rule β} (h : ∀ a, (next a).rule rules = other a) :
    (first >>= next).rule rules = first.rule rules >>= other :=
  congrArg (first.rule rules >>= ·) (funext h)

lemma rule_accept_bind (kinds : List Kind) (next : Option Token → Script Routine α) :
    (accept kinds >>= next).rule rules =
      choose kinds (fun token => (next (some token)).rule rules) ((next none).rule rules) :=
  accept_bind _ _

lemma rule_round (item? : Script Routine (Option α)) :
    (round item?).rule rules = manyRound (item?.rule rules) (Rule.many (item?.rule rules)) := by
  refine rule_bind_congr fun found => ?_
  cases found <;> rfl

end

/-! ## Following a script -/

variable {scripts : ⦃α : Type⦄ → Routine α → Script Routine α}

/-- From the tokens on the script comes to an end, with this outcome.  Where it uses a routine, the
script of that routine is followed. -/
inductive Ends (scripts : ⦃α : Type⦄ → Routine α → Script Routine α) :
    {α : Type} → Script Routine α → List Token → Outcome α → Prop where
  | basic {α : Type} {rule : Rule α} {h : Basic rule} {tokens : List Token} :
      Ends scripts (.basic rule h) tokens (rule tokens)
  | done {α β : Type} {first : Script Routine α} {next : α → Script Routine β}
      {tokens middle : List Token} {a : α} {outcome : Outcome β}
      (hfirst : Ends scripts first tokens (.done a middle))
      (hnext : Ends scripts (next a) middle outcome) :
      Ends scripts (.bind first next) tokens outcome
  | failed {α β : Type} {first : Script Routine α} {next : α → Script Routine β}
      {tokens rest : List Token} {failure : Failure}
      (hfirst : Ends scripts first tokens (.failed failure rest)) :
      Ends scripts (.bind first next) tokens (.failed failure rest)
  | round {α : Type} {item? : Script Routine (Option α)} {tokens : List Token}
      {outcome : Outcome (List α)} (hround : Ends scripts (round item?) tokens outcome) :
      Ends scripts (.many item?) tokens outcome
  | use {α : Type} {routine : Routine α} {tokens : List Token} {outcome : Outcome α}
      (hscript : Ends scripts (scripts routine) tokens outcome) :
      Ends scripts (.use routine) tokens outcome

/-- From the tokens on the script comes to use the routine, when `ahead` is left.  What the routine
goes on to use is not counted. -/
inductive Uses (scripts : ⦃α : Type⦄ → Routine α → Script Routine α) :
    {α β : Type} → Script Routine α → List Token → Routine β → List Token → Prop where
  | use {β : Type} {routine : Routine β} {tokens : List Token} :
      Uses scripts (.use routine) tokens routine tokens
  | first {α β γ : Type} {first : Script Routine α} {next : α → Script Routine γ}
      {tokens ahead : List Token} {routine : Routine β}
      (hfirst : Uses scripts first tokens routine ahead) :
      Uses scripts (.bind first next) tokens routine ahead
  | next {α β γ : Type} {first : Script Routine α} {next : α → Script Routine γ}
      {tokens middle ahead : List Token} {a : α} {routine : Routine β}
      (hfirst : Ends scripts first tokens (.done a middle))
      (hnext : Uses scripts (next a) middle routine ahead) :
      Uses scripts (.bind first next) tokens routine ahead
  | round {α β : Type} {item? : Script Routine (Option α)} {tokens ahead : List Token}
      {routine : Routine β} (hround : Uses scripts (round item?) tokens routine ahead) :
      Uses scripts (.many item?) tokens routine ahead

section Ends

variable {script : Script Routine α} {tokens : List Token} {outcome other : Outcome α}

lemma Ends.unroll (h : Ends scripts script tokens outcome) :
    Ends scripts script.unroll tokens outcome := by
  cases h with
  | basic => exact .basic
  | done hfirst hnext => exact .done hfirst hnext
  | failed hfirst => exact .failed hfirst
  | round hround => exact hround
  | use hscript => exact .use hscript

/-- A script ends in one way only. -/
theorem Ends.unique (h : Ends scripts script tokens outcome)
    (hother : Ends scripts script tokens other) : outcome = other := by
  induction h with
  | basic => cases hother with | basic => rfl
  | done _ _ ihfirst ihnext =>
    cases hother with
    | done hfirst hnext =>
      injection ihfirst hfirst with ha hmiddle
      subst ha hmiddle
      exact ihnext hnext
    | failed hfirst => exact absurd (ihfirst hfirst) (by simp)
  | failed _ ihfirst =>
    cases hother with
    | done hfirst hnext => exact absurd (ihfirst hfirst) (by simp)
    | failed hfirst =>
      injection ihfirst hfirst with hfailure hrest
      rw [hfailure, hrest]
  -- two types of lists do not tell what they are lists of, so a repetition is not taken apart
  | round _ ih => exact ih hother.unroll
  | use _ ih => cases hother with | use hscript => exact ih hscript

lemma Ends.rest_suffix (h : Ends scripts script tokens outcome) : outcome.rest <:+ tokens := by
  induction h with
  | @basic _ _ hbasic tokens => exact hbasic.leavesSuffix tokens
  | done _ _ ihfirst ihnext => exact ihnext.trans ihfirst
  | failed _ ih => exact ih
  | round _ ih => exact ih
  | use _ ih => exact ih

lemma Ends.length_le {a : α} {rest : List Token} (h : Ends scripts script tokens (.done a rest)) :
    rest.length ≤ tokens.length :=
  h.rest_suffix.length_le

lemma Uses.length_le {routine : Routine β} {ahead : List Token}
    (h : Uses scripts script tokens routine ahead) : ahead.length ≤ tokens.length := by
  induction h with
  | use => exact Nat.le_refl _
  | first _ ih => exact ih
  | next hfirst _ ih => exact ih.trans hfirst.length_le
  | round _ ih => exact ih

end Ends

/-! ## Descent -/

section

variable (height : ⦃α : Type⦄ → Routine α → ℕ) (rules : ⦃α : Type⦄ → Routine α → Rule α)

/-- Using the routine with `ahead` left comes below the bound with `tokens` left: fewer tokens are
left, or as many and the routine is lower. -/
def Below (routine : Routine α) (ahead : List Token) (bound : WithTop ℕ) (tokens : List Token) :
    Prop :=
  ahead.length < tokens.length ∨
    ahead.length = tokens.length ∧ WithTop.some (height routine) < bound

/-- As long as the script has taken no token, it uses routines below the bound only, where the bound
`⊤` allows all of them.  In its repetitions every item takes a token. -/
def Descends {α : Type} : Script Routine α → WithTop ℕ → Prop
  | .basic _ _, _ => True
  -- what has been read may show that a token has been taken, and then nothing bounds what follows
  | .bind first next, bound => Descends first bound ∧
      ∀ a, Descends (next a) bound ∨ Takes (first.rule rules) a ∧ Descends (next a) ⊤
  | .many item?, bound => Descends item? bound ∧ Composed (item?.rule rules) ∧
      ItemAdvances (item?.rule rules)
  | .use routine, bound => WithTop.some (height routine) < bound

/-- The scripts stand for the rules, and no routine uses one of its own height or a higher one
before a token has been taken. -/
structure Justified (scripts : ⦃α : Type⦄ → Routine α → Script Routine α) : Prop where
  rule_eq : ∀ {α : Type} (routine : Routine α), (scripts routine).rule rules = rules routine
  descends : ∀ {α : Type} (routine : Routine α),
    Descends height rules (scripts routine) (.some (height routine))

end

variable {height : ⦃α : Type⦄ → Routine α → ℕ} {rules : ⦃α : Type⦄ → Routine α → Rule α}
  {bound : WithTop ℕ} {tokens ahead : List Token}

section Below

variable {routine : Routine α} {middle : List Token}

lemma Below.length_le (h : Below height routine ahead bound tokens) :
    ahead.length ≤ tokens.length := by
  rcases h with hlt | ⟨heq, -⟩
  · exact hlt.le
  · exact heq.le

lemma Below.of_le (h : Below height routine ahead bound middle)
    (hle : middle.length ≤ tokens.length) : Below height routine ahead bound tokens := by
  rcases h with hlt | ⟨heq, hlt⟩
  · exact .inl (hlt.trans_le hle)
  · rcases hle.lt_or_eq with hshort | hsame
    · exact .inl (heq.trans_lt hshort)
    · exact .inr ⟨heq.trans hsame, hlt⟩

/-- Below a routine, the tokens left and the height decrease in this order. -/
lemma Below.lex {other : Routine β} (h : Below height other ahead (.some (height routine)) tokens) :
    toLex (ahead.length, height other) < toLex (tokens.length, height routine) := by
  rw [Prod.Lex.toLex_lt_toLex]
  exact h.imp_right fun hsame => ⟨hsame.1, WithTop.coe_lt_coe.1 hsame.2⟩

end Below

namespace Descends

variable {first : Script Routine α} {next : α → Script Routine β}

lemma basic {rule : Rule α} {h : Basic rule} : Descends height rules (.basic rule h) bound :=
  trivial

lemma bind (hfirst : Descends height rules first bound)
    (hnext : ∀ a, Descends height rules (next a) bound) :
    Descends height rules (first >>= next) bound :=
  ⟨hfirst, fun a => .inl (hnext a)⟩

/-- After a token that has been taken everything may be used. -/
lemma accept {kinds : List Kind} {next : Option Token → Script Routine β}
    (hsome : ∀ token, Descends height rules (next (some token)) ⊤)
    (hnone : Descends height rules (next none) bound) :
    Descends height rules (Script.accept kinds >>= next) bound := by
  refine ⟨basic, ?_⟩
  rintro (_ | token)
  · exact .inl hnone
  · exact .inr ⟨fun _ _ hrun => itemAdvances_accept kinds hrun, hsome token⟩

lemma require {kinds : List Kind} {next : Token → Script Routine β}
    (hnext : ∀ token, Descends height rules (next token) ⊤) :
    Descends height rules (Script.require kinds >>= next) bound :=
  ⟨basic, fun token => .inr ⟨fun _ _ hrun => advances_require kinds hrun, hnext token⟩⟩

lemma use {routine : Routine α} {other : Routine β} (h : height routine < height other) :
    Descends height rules (.use routine) (.some (height other)) :=
  WithTop.coe_lt_coe.2 h

lemma use_top {routine : Routine α} : Descends height rules (.use routine) ⊤ :=
  WithTop.coe_lt_top _

lemma top {script : Script Routine α} (h : Descends height rules script bound) :
    Descends height rules script ⊤ := by
  induction script with
  | basic => trivial
  | bind first next ihfirst ihnext =>
    refine ⟨ihfirst h.1, fun a => .inl ?_⟩
    rcases h.2 a with hnext | ⟨-, hnext⟩
    · exact ihnext a hnext
    · exact hnext
  | many item? ih => exact ⟨ih h.1, h.2⟩
  | use routine => exact use_top

/-- The rounds after the first one come after a token. -/
lemma round {item? : Script Routine (Option α)} (h : Descends height rules (.many item?) bound) :
    Descends height rules (round item?) bound := by
  refine ⟨h.1, ?_⟩
  rintro (_ | a)
  · exact .inl basic
  · exact .inr ⟨fun _ _ hrun => h.2.2 hrun, .bind ⟨h.1.top, h.2⟩ fun _ => basic⟩

end Descends

/-! ## Scripts that end -/

/-- On the tokens the script ends as its rule says. -/
def Obeys (scripts : ⦃α : Type⦄ → Routine α → Script Routine α)
    (rules : ⦃α : Type⦄ → Routine α → Rule α) (script : Script Routine α) (tokens : List Token) :
    Prop :=
  Ends scripts script tokens (script.rule rules tokens)

lemma Obeys.bind {first : Script Routine α} {next : α → Script Routine β}
    (hfirst : Obeys scripts rules first tokens)
    (hnext : ∀ a middle, first.rule rules tokens = .done a middle →
      Obeys scripts rules (next a) middle) : Obeys scripts rules (first >>= next) tokens := by
  rw [Obeys] at hfirst
  rw [Obeys, rule_bind]
  cases hrun : first.rule rules tokens with
  | done a middle =>
    rw [hrun] at hfirst
    rw [bind_of_done hrun]
    exact .done hfirst (hnext a middle hrun)
  | failed failure rest =>
    rw [hrun] at hfirst
    rw [bind_of_failed hrun]
    exact .failed hfirst

/-- A repetition ends, since each round is followed by fewer tokens. -/
lemma Obeys.many {item? : Script Routine (Option α)} (hcomposed : Composed (item?.rule rules))
    (hadvances : ItemAdvances (item?.rule rules))
    (hitem : ∀ ahead : List Token, ahead.length ≤ tokens.length →
      Obeys scripts rules item? ahead) : Obeys scripts rules (.many item?) tokens := by
  induction hn : tokens.length using Nat.strongRecOn generalizing tokens with
  | ind n ih =>
    subst hn
    have hround : Obeys scripts rules (round item?) tokens := by
      refine .bind (hitem tokens (Nat.le_refl _)) ?_
      rintro (_ | a) middle hrun
      · exact .basic
      · have hlt : middle.length < tokens.length := hadvances hrun
        have hmiddle : Obeys scripts rules (.many item?) middle :=
          ih _ hlt (fun ahead hle => hitem ahead (hle.trans hlt.le)) rfl
        exact .bind hmiddle fun _ _ _ => .basic
    rw [Obeys, rule, many_eq hcomposed hadvances, ← rule_round]
    exact .round hround

/-- A script ends if all that it may use does. -/
lemma Descends.obeys {script : Script Routine α} (h : Descends height rules script bound)
    (hbelow : ∀ {β : Type} (routine : Routine β) (ahead : List Token),
      Below height routine ahead bound tokens → Obeys scripts rules (.use routine) ahead) :
    Obeys scripts rules script tokens := by
  induction script generalizing tokens bound with
  | basic => exact .basic
  | bind first next ihfirst ihnext =>
    have hfirst : Obeys scripts rules first tokens := ihfirst h.1 hbelow
    refine .bind hfirst fun a middle hrun => ?_
    rcases h.2 a with hnext | ⟨htakes, hnext⟩
    · have hle : middle.length ≤ tokens.length := by
        rw [Obeys, hrun] at hfirst
        exact hfirst.length_le
      exact ihnext a hnext fun routine ahead hahead => hbelow routine ahead (hahead.of_le hle)
    · have hlt : middle.length < tokens.length := htakes hrun
      exact ihnext a hnext fun routine ahead hahead =>
        hbelow routine ahead (.inl (hahead.length_le.trans_lt hlt))
  | many item? ih =>
    exact .many h.2.1 h.2.2 fun middle hle =>
      ih h.1 fun routine ahead hahead => hbelow routine ahead (hahead.of_le hle)
  | use routine => exact hbelow routine tokens (.inr ⟨rfl, h⟩)

namespace Justified

/-- Every routine ends, from all tokens, as its rule says. -/
theorem ends (h : Justified height rules scripts) {α : Type} (routine : Routine α)
    (tokens : List Token) : Obeys scripts rules (.use routine) tokens := by
  refine .use ?_
  rw [rule, ← h.rule_eq routine]
  -- what the script may use has fewer tokens left, or as many and a lower height
  exact (h.descends routine).obeys fun other ahead hbelow => h.ends other ahead
termination_by (tokens.length, height routine)
decreasing_by exact Prod.Lex.lt_iff.2 (Prod.Lex.toLex_lt_toLex.1 hbelow.lex)

/-- What a script uses on the way is below the bound that it descends from. -/
theorem below (h : Justified height rules scripts) {script : Script Routine α}
    {routine : Routine β} (hscript : Descends height rules script bound)
    (huses : Uses scripts script tokens routine ahead) :
    Below height routine ahead bound tokens := by
  induction huses generalizing bound with
  | use => exact .inr ⟨rfl, hscript⟩
  | first _ ih => exact ih hscript.1
  | @next _ _ _ first next tokens middle ahead a routine hfirst hnext ih =>
    rcases hscript.2 a with hbound | ⟨htakes, -⟩
    · exact (ih hbound).of_le hfirst.length_le
    · have hobeys : Obeys scripts rules first tokens :=
        hscript.1.obeys fun other ahead _ => h.ends other ahead
      have hlt : middle.length < tokens.length := htakes (hobeys.unique hfirst)
      exact .inl (hnext.length_le.trans_lt hlt)
  | round _ ih => exact ih hscript.round

end Justified

end Script

end ImpSyntax
