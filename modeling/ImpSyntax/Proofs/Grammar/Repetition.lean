import ImpSyntax.Proofs.Grammar.Unfolding

/-!
# The repetitions of the grammar

Signs, operations of a level, lists of expressions, blocks and programs are read by `Rule.many`.
Here each of them is given a recursive equation of its own, which decides by the next token whether
there is another round.  Proofs about a repetition then follow its equation, by induction on the
number of tokens, and no longer see the lists that `many` collects.
-/

namespace ImpSyntax

namespace Grammar

open Rule

variable {tokens rest : List Token} {failure : Failure}

/-- A repetition of items, each of which is a token of the given kinds and what `item` reads after
it. -/
lemma many_choose {α β : Type} {kinds : List Kind} {item : Rule β} {f : Token → β → α}
    {item? : Rule (Option α)} (hitem : Composed item)
    (h : item? = choose kinds (fun token => item >>= fun b => pure (some (f token b)))
      (pure none)) :
    many item? = choose kinds
      (fun token => item >>= fun b => many item? >>= fun more => pure (f token b :: more))
      (pure []) := by
  have hcomposed : Composed item? := by
    rw [h]
    exact .choose (fun _ => .bind hitem fun _ => .pure _) (.pure none)
  have hadvances : ItemAdvances item? := by
    rw [h]
    exact .choose (fun _ => .bind hitem fun _ => .pure _) itemAdvances_none
  have hround : many item? = manyRound item? (many item?) := many_eq hcomposed hadvances
  rw [manyRound] at hround
  conv at hround => rhs; enter [1]; rw [h]
  refine hround.trans ?_
  rw [choose_bind]
  congr 1
  funext token
  rw [bind_bind]
  rfl

/-! ## Signs -/

lemma unary_eq_choose (inner : Rule Expr) :
    unary inner = choose Kind.signs
      (fun operator => unary inner >>= fun e => pure (.unary operator e)) (stepped inner) := by
  have hmany := many_choose (f := fun operator _ => operator) (.pure ())
    (accept_eq_choose Kind.signs)
  rw [unary_eq]
  conv_lhs => rw [hmany, choose_bind]
  congr 1
  · funext operator
    rw [pure_then, bind_bind, bind_bind]
    congr 1
    funext signs
    rw [pure_then, bind_bind]
    rfl
  · exact then_pure (stepped inner)

/-! ## Operations of a level -/

lemma continueRun_eq {kinds : List Kind} {operand : Rule Expr} (hoperand : Composed operand)
    (left : Expr) :
    continueRun kinds operand left = choose kinds
      (fun operator => operand >>= fun e => continueRun kinds operand (.binary operator left e))
      (pure left) := by
  have hmany := many_choose hoperand (operation?_eq kinds operand)
  unfold continueRun
  conv_lhs => rw [hmany, choose_bind]
  congr 1
  funext operator
  rw [bind_bind]
  congr 1
  funext e
  rw [bind_bind]
  rfl

/-! ## Lists of expressions -/

lemma expressionList_eq :
    expressionList = expression >>= fun e =>
      choose [.comma] (fun _ => expressionList >>= fun es => pure (e :: es)) (pure [e]) := by
  have hmany := many_choose composed_expression nextExpression?_eq
  unfold expressionList
  congr 1
  funext e
  conv_lhs => rw [hmany, choose_bind]
  rfl

/-! ## Blocks and programs -/

section Block

variable {inner : Rule Stmt}

/-- The statements of a block and the brace that closes it. -/
def blockBody (inner : Rule Stmt) : Rule (List Stmt) :=
  many (blockItem? inner)

lemma blockRest_eq (inner : Rule Stmt) :
    blockRest inner = blockBody inner >>= fun body => pure (.block body) := rfl

lemma blockBody_eq (hinner : Composed inner) (hadvances : Advances inner) :
    blockBody inner = choose [.rightBrace] (fun _ => pure []) (atEnd >>= fun ended =>
      if ended then unexpected [.rightBrace]
      else inner >>= fun s => blockBody inner >>= fun body => pure (s :: body)) := by
  have hmany := many_eq (composed_blockItem? hinner) (itemAdvances_blockItem? hadvances)
  unfold blockBody
  conv_lhs => rw [hmany, manyRound, blockItem?_eq, choose_bind, bind_bind]
  congr 2
  funext ended
  cases ended with
  | true => rfl
  | false =>
    simp only [Bool.false_eq_true, if_false]
    rw [bind_bind]
    rfl

end Block

lemma program_eq :
    program = atEnd >>= fun ended =>
      if ended then pure []
      else statement >>= fun s => program >>= fun more => pure (s :: more) := by
  have hmany := many_eq composed_programItem? itemAdvances_programItem?
  unfold program
  conv_lhs => rw [hmany, manyRound, programItem?_eq, bind_bind]
  congr 1
  funext ended
  cases ended with
  | true => rfl
  | false =>
    simp only [Bool.false_eq_true, if_false]
    rw [bind_bind]
    rfl

end Grammar

end ImpSyntax
