import ImpSyntax.Proofs.Tree.WellFormed

/-!
# The values in a tree

Each number of a tree has a value besides its token.  `values` lists them, `revalued` gives every
number the value that a function of its token says, and a tree is `unvalued` if all numbers have
been given the same one.  What is unvalued is the tree as it is written, with its tokens and their
lines.

Equality compares values as numbers, so it is not the equality of trees: a NaN differs from itself,
and the two zeros are equal.  In general a tree equals itself just if it has no NaN
(`Stmt.equal_self_iff`), and equal trees are the same when unvalued (`Stmt.revalued_eq_of_equal`).

In a well formed tree the values are those of the texts.  They can be found again from the unvalued
tree (`Stmt.WellFormed.revalued_eq`), and so a well formed tree is determined by that
(`Program.eq_of_unvalued`).  Altogether well formed programs are equal just if they are the
same when unvalued (`Program.equal_iff_unvalued_eq`).
-/

namespace ImpSyntax

/-! ## Values of expressions -/

namespace Expr

/-- The values of the numbers in an expression. -/
def values : Expr → List Binary64
  | number value _ => [value]
  | var _ => []
  | unary _ operand => operand.values
  | binary _ left right => left.values ++ right.values

/-- The expression with the value of each number replaced by that of its token. -/
def revalued (valueOf : Token → Binary64) : Expr → Expr
  | number _ token => number (valueOf token) token
  | var token => var token
  | unary operator operand => unary operator (operand.revalued valueOf)
  | binary operator left right => binary operator (left.revalued valueOf) (right.revalued valueOf)

/-- Of two values that a number is given, the second one counts. -/
lemma revalued_revalued (f g : Token → Binary64) (e : Expr) :
    (e.revalued f).revalued g = e.revalued g := by
  induction e with
  | number value token => rfl
  | var token => rfl
  | unary operator operand ih => exact congrArg (unary operator) ih
  | binary operator left right ihleft ihright =>
    exact congrArg₂ (binary operator) ihleft ihright

end Expr

lemma Binary64.equal_self_iff {value : Binary64} : value.equal value = true ↔ value ≠ .nan := by
  refine ⟨?_, equal_self⟩
  rintro h rfl
  exact absurd h (by decide)

/-- An expression equals itself unless the value of a number is NaN. -/
lemma Expr.equal_self_iff (e : Expr) : e.equal e = true ↔ .nan ∉ e.values := by
  induction e with
  | number value token =>
    rw [equal, Bool.and_eq_true, Binary64.equal_self_iff]
    simp [values, eq_comm]
  | var token => simp [equal, values]
  | unary operator operand ih =>
    rw [equal, Bool.and_eq_true, ih, values]
    simp
  | binary operator left right ihleft ihright =>
    rw [equal, Bool.and_eq_true, Bool.and_eq_true, ihleft, ihright, values, List.mem_append, not_or]
    simp

/-- Equal expressions differ in the values of their numbers at most. -/
lemma Expr.revalued_eq_of_equal {e f : Expr} (valueOf : Token → Binary64)
    (h : e.equal f = true) : e.revalued valueOf = f.revalued valueOf := by
  induction e generalizing f with
  | number value token =>
    cases f with
    | number other u =>
      obtain ⟨-, htoken⟩ := Bool.and_eq_true_iff.1 h
      rw [eq_of_beq htoken]
      rfl
    | _ => exact absurd h Bool.false_ne_true
  | var token =>
    cases f with
    | var u => rw [eq_of_beq h]
    | _ => exact absurd h Bool.false_ne_true
  | unary operator operand ih =>
    cases f with
    | unary p b =>
      obtain ⟨hoperator, hoperand⟩ := Bool.and_eq_true_iff.1 h
      rw [revalued, revalued, eq_of_beq hoperator, ih hoperand]
    | _ => exact absurd h Bool.false_ne_true
  | binary operator left right ihleft ihright =>
    cases f with
    | binary p a b =>
      obtain ⟨hfront, hright⟩ := Bool.and_eq_true_iff.1 h
      obtain ⟨hoperator, hleft⟩ := Bool.and_eq_true_iff.1 hfront
      rw [revalued, revalued, eq_of_beq hoperator, ihleft hleft, ihright hright]
    | _ => exact absurd h Bool.false_ne_true

/-! ## Values of statements -/

namespace Stmt

mutual

/-- The values of the numbers in a statement. -/
def values : Stmt → List Binary64
  | print _ => []
  | ifThen c body => c.values ++ body.values
  | ifElse c body alternative => c.values ++ (body.values ++ alternative.values)
  | whileLoop c body => c.values ++ body.values
  | forLoop first c step body =>
    first.values ++ (c.values ++ (step.flatMap Expr.values ++ body.values))
  | block body => valuesAll body
  | eval es => es.flatMap Expr.values
  | empty => []

/-- The values of the numbers in the statements of a block. -/
def valuesAll : List Stmt → List Binary64
  | [] => []
  | s :: rest => s.values ++ valuesAll rest

end

mutual

/-- The statement with the value of each number replaced by that of its token. -/
def revalued (valueOf : Token → Binary64) : Stmt → Stmt
  | print target => print target
  | ifThen c body => ifThen (c.revalued valueOf) (body.revalued valueOf)
  | ifElse c body alternative =>
    ifElse (c.revalued valueOf) (body.revalued valueOf) (alternative.revalued valueOf)
  | whileLoop c body => whileLoop (c.revalued valueOf) (body.revalued valueOf)
  | forLoop first c step body =>
    forLoop (first.revalued valueOf) (c.revalued valueOf) (step.map (Expr.revalued valueOf))
      (body.revalued valueOf)
  | block body => block (revaluedAll valueOf body)
  | eval es => eval (es.map (Expr.revalued valueOf))
  | empty => empty

/-- The statements of a block with the value of each number replaced. -/
def revaluedAll (valueOf : Token → Binary64) : List Stmt → List Stmt
  | [] => []
  | s :: rest => s.revalued valueOf :: revaluedAll valueOf rest

end

lemma valuesAll_eq (body : List Stmt) : valuesAll body = body.flatMap values := by
  induction body with
  | nil => rfl
  | cons s body ih => rw [valuesAll, ih, List.flatMap_cons]

lemma revaluedAll_eq (valueOf : Token → Binary64) (body : List Stmt) :
    revaluedAll valueOf body = body.map (revalued valueOf) := by
  induction body with
  | nil => rfl
  | cons s body ih => rw [revaluedAll, ih, List.map_cons]

lemma revalued_revalued (f g : Token → Binary64) (s : Stmt) :
    (s.revalued f).revalued g = s.revalued g := by
  have hexpr : ∀ e : Expr, (e.revalued f).revalued g = e.revalued g := Expr.revalued_revalued f g
  induction s using Stmt.induction with
  | ifThen c body ih => simp only [revalued, hexpr, ih]
  | ifElse c body alternative ihbody ihalternative =>
    simp only [revalued, hexpr, ihbody, ihalternative]
  | whileLoop c body ih => simp only [revalued, hexpr, ih]
  | forLoop first c step body ihfirst ihbody =>
    simp only [revalued, List.map_map, Function.comp_def, hexpr, ihfirst, ihbody]
  | block body ih =>
    simp only [revalued, revaluedAll_eq, List.map_map]
    exact congrArg block (List.map_congr_left ih)
  | eval es => simp only [revalued, List.map_map, Function.comp_def, hexpr]
  | print | empty => rfl

end Stmt

/-! ## Equality -/

lemma Expr.equalAll_iff_forall₂ {es fs : List Expr} :
    equalAll es fs = true ↔ List.Forall₂ (fun e f => e.equal f = true) es fs := by
  induction es generalizing fs with
  | nil => cases fs <;> simp [equalAll]
  | cons e es ih => cases fs <;> simp [equalAll, ih]

lemma Stmt.equalAll_iff_forall₂ {body other : List Stmt} :
    equalAll body other = true ↔ List.Forall₂ (fun s t => s.equal t = true) body other := by
  induction body generalizing other with
  | nil => cases other <;> simp [equalAll]
  | cons s body ih => cases other <;> simp [equalAll, ih]

lemma Expr.equalAll_self_iff (es : List Expr) :
    equalAll es es = true ↔ .nan ∉ es.flatMap values := by
  simp [equalAll_iff_forall₂, List.forall₂_same, equal_self_iff]

/-- A statement equals itself unless the value of a number is NaN. -/
theorem Stmt.equal_self_iff (s : Stmt) : s.equal s = true ↔ .nan ∉ s.values := by
  induction s using Stmt.induction with
  | print target => simp [equal, values]
  | ifThen c body ih => simp [equal, values, c.equal_self_iff, ih]
  | ifElse c body alternative ihbody ihalternative =>
    simp [equal, values, c.equal_self_iff, ihbody, ihalternative, and_assoc]
  | whileLoop c body ih => simp [equal, values, c.equal_self_iff, ih]
  | forLoop first c step body ihfirst ihbody =>
    rw [equal, Bool.and_eq_true, Bool.and_eq_true, Bool.and_eq_true, ihfirst, c.equal_self_iff,
      Expr.equalAll_self_iff, ihbody, values]
    simp only [List.mem_append, not_or, and_assoc]
  | block body ih =>
    rw [equal, equalAll_iff_forall₂, List.forall₂_same, values, valuesAll_eq]
    simpa using forall₂_congr ih
  | eval es => rw [equal, Expr.equalAll_self_iff, values]
  | empty => simp [equal, values]

/-- Functions that agree on related members agree on related lists. -/
lemma map_eq_map_of_forall₂ {α β : Type} {R : α → α → Prop} {f : α → β} {as bs : List α}
    (h : List.Forall₂ R as bs) (heq : ∀ a ∈ as, ∀ b, R a b → f a = f b) :
    as.map f = bs.map f := by
  induction h with
  | nil => rfl
  | cons hab _ ih =>
    rw [List.forall_mem_cons] at heq
    rw [List.map_cons, List.map_cons, heq.1 _ hab, ih heq.2]

lemma Expr.map_revalued_eq_of_equal {es fs : List Expr} (valueOf : Token → Binary64)
    (h : equalAll es fs = true) : es.map (revalued valueOf) = fs.map (revalued valueOf) :=
  map_eq_map_of_forall₂ (equalAll_iff_forall₂.1 h) fun _ _ _ => revalued_eq_of_equal valueOf

/-- Equal statements differ in the values of their numbers at most. -/
theorem Stmt.revalued_eq_of_equal {s t : Stmt} (valueOf : Token → Binary64)
    (h : s.equal t = true) : s.revalued valueOf = t.revalued valueOf := by
  have hexpr : ∀ {e f : Expr}, e.equal f = true → e.revalued valueOf = f.revalued valueOf :=
    Expr.revalued_eq_of_equal valueOf
  -- statements of two kinds are never equal
  induction s using Stmt.induction generalizing t with
  | print target =>
    cases t with
    | print u => rw [eq_of_beq h]
    | _ => exact absurd h Bool.false_ne_true
  | ifThen c body ih =>
    cases t with
    | ifThen d other =>
      obtain ⟨hc, hbody⟩ := Bool.and_eq_true_iff.1 h
      rw [revalued, revalued, hexpr hc, ih hbody]
    | _ => exact absurd h Bool.false_ne_true
  | ifElse c body alternative ihbody ihalternative =>
    cases t with
    | ifElse d other otherAlternative =>
      obtain ⟨hfront, halternative⟩ := Bool.and_eq_true_iff.1 h
      obtain ⟨hc, hbody⟩ := Bool.and_eq_true_iff.1 hfront
      rw [revalued, revalued, hexpr hc, ihbody hbody, ihalternative halternative]
    | _ => exact absurd h Bool.false_ne_true
  | whileLoop c body ih =>
    cases t with
    | whileLoop d other =>
      obtain ⟨hc, hbody⟩ := Bool.and_eq_true_iff.1 h
      rw [revalued, revalued, hexpr hc, ih hbody]
    | _ => exact absurd h Bool.false_ne_true
  | forLoop first c step body ihfirst ihbody =>
    cases t with
    | forLoop otherFirst d otherStep other =>
      obtain ⟨hfront, hbody⟩ := Bool.and_eq_true_iff.1 h
      obtain ⟨hfront, hstep⟩ := Bool.and_eq_true_iff.1 hfront
      obtain ⟨hfirst, hc⟩ := Bool.and_eq_true_iff.1 hfront
      rw [revalued, revalued, ihfirst hfirst, hexpr hc,
        Expr.map_revalued_eq_of_equal valueOf hstep, ihbody hbody]
    | _ => exact absurd h Bool.false_ne_true
  | block body ih =>
    cases t with
    | block other =>
      rw [revalued, revalued, revaluedAll_eq, revaluedAll_eq,
        map_eq_map_of_forall₂ (equalAll_iff_forall₂.1 h) fun s hs t => ih s hs]
    | _ => exact absurd h Bool.false_ne_true
  | eval es =>
    cases t with
    | eval fs => rw [revalued, revalued, Expr.map_revalued_eq_of_equal valueOf h]
    | _ => exact absurd h Bool.false_ne_true
  | empty =>
    cases t with
    | empty => rfl
    | _ => exact absurd h Bool.false_ne_true

/-! ## Well formed trees -/

/-- The value that the text of a token has, which is zero if it has none. -/
def Token.textValue (token : Token) : Binary64 :=
  (numberValue? token.text).getD (.zero false)

/-- The numbers of a well formed expression have the values of their texts. -/
lemma Expr.WellFormed.revalued_eq {e : Expr} (h : e.WellFormed) :
    e.revalued Token.textValue = e := by
  induction h with
  | number _ hvalue => rw [revalued, Token.textValue, hvalue, Option.getD_some]
  | var _ => rfl
  | unary _ _ _ ih => rw [revalued, ih]
  | binary _ _ _ _ ihleft ihright => rw [revalued, ihleft, ihright]

/-- Each value in a well formed expression is that of a lexeme. -/
lemma Expr.WellFormed.exists_lexeme {e : Expr} (h : e.WellFormed) :
    ∀ value ∈ e.values, ∃ text : String, Lexeme .number text.toList ∧
      numberValue? text = some value := by
  induction h with
  | number htoken hvalue =>
    intro value hmem
    rw [List.mem_singleton.1 hmem]
    exact ⟨_, htoken.2, hvalue⟩
  | var _ => exact fun value hmem => absurd hmem List.not_mem_nil
  | unary _ _ _ ih => exact ih
  | binary _ _ _ _ ihleft ihright =>
    intro value hmem
    exact (List.mem_append.1 hmem).elim (ihleft value) (ihright value)

lemma Expr.map_revalued_eq {es : List Expr} (h : ∀ e ∈ es, e.WellFormed) :
    es.map (revalued Token.textValue) = es :=
  (List.map_congr_left fun e he => (h e he).revalued_eq).trans (List.map_id' es)

lemma Expr.exists_lexeme_of_mem {es : List Expr} (h : ∀ e ∈ es, e.WellFormed) :
    ∀ value ∈ es.flatMap values, ∃ text : String, Lexeme .number text.toList ∧
      numberValue? text = some value := by
  intro value hmem
  obtain ⟨e, he, hvalue⟩ := List.mem_flatMap.1 hmem
  exact (h e he).exists_lexeme value hvalue

/-- The numbers of a well formed statement have the values of their texts. -/
lemma Stmt.WellFormed.revalued_eq {s : Stmt} (h : s.WellFormed) :
    s.revalued Token.textValue = s := by
  induction h with
  | print _ => rfl
  | ifThen hc _ ih => rw [revalued, hc.revalued_eq, ih]
  | ifElse hc _ _ ihbody ihalternative =>
    rw [revalued, hc.revalued_eq, ihbody, ihalternative]
  | whileLoop hc _ ih => rw [revalued, hc.revalued_eq, ih]
  | forLoop _ hc _ hstep _ ihfirst ihbody =>
    rw [revalued, ihfirst, hc.revalued_eq, Expr.map_revalued_eq hstep, ihbody]
  | @block body _ ih =>
    rw [revalued, revaluedAll_eq]
    exact congrArg Stmt.block ((List.map_congr_left ih).trans (List.map_id' body))
  | eval _ hes => rw [revalued, Expr.map_revalued_eq hes]
  | empty => rfl

/-- Each value in a well formed statement is that of a lexeme. -/
lemma Stmt.WellFormed.exists_lexeme {s : Stmt} (h : s.WellFormed) :
    ∀ value ∈ s.values, ∃ text : String, Lexeme .number text.toList ∧
      numberValue? text = some value := by
  induction h with
  | print _ => exact fun value hmem => absurd hmem List.not_mem_nil
  | ifThen hc _ ih =>
    intro value hmem
    exact (List.mem_append.1 hmem).elim (hc.exists_lexeme value) (ih value)
  | ifElse hc _ _ ihbody ihalternative =>
    intro value hmem
    simp only [values, List.mem_append] at hmem
    rcases hmem with hmem | hmem | hmem
    · exact hc.exists_lexeme value hmem
    · exact ihbody value hmem
    · exact ihalternative value hmem
  | whileLoop hc _ ih =>
    intro value hmem
    exact (List.mem_append.1 hmem).elim (hc.exists_lexeme value) (ih value)
  | forLoop _ hc _ hstep _ ihfirst ihbody =>
    intro value hmem
    simp only [values, List.mem_append] at hmem
    rcases hmem with hmem | hmem | hmem | hmem
    · exact ihfirst value hmem
    · exact hc.exists_lexeme value hmem
    · exact Expr.exists_lexeme_of_mem hstep value hmem
    · exact ihbody value hmem
  | block _ ih =>
    intro value hmem
    rw [values, valuesAll_eq] at hmem
    obtain ⟨s, hs, hvalue⟩ := List.mem_flatMap.1 hmem
    exact ih s hs value hvalue
  | eval _ hes => exact Expr.exists_lexeme_of_mem hes
  | empty => exact fun value hmem => absurd hmem List.not_mem_nil

/-! ## Programs -/

namespace Program

/-- The values of the numbers in a program. -/
def values (program : Program) : List Binary64 :=
  program.flatMap Stmt.values

/-- The program as it is written: with the same value for all numbers, whatever it was. -/
def unvalued (program : Program) : Program :=
  program.map (Stmt.revalued fun _ => .zero false)

variable {p q : Program}

/-- Each value in a well formed program is that of a lexeme. -/
lemma exists_lexeme (h : ∀ s ∈ p, s.WellFormed) :
    ∀ value ∈ p.values, ∃ text : String, Lexeme .number text.toList ∧
      numberValue? text = some value := by
  intro value hmem
  obtain ⟨s, hs, hvalue⟩ := List.mem_flatMap.1 hmem
  exact (h s hs).exists_lexeme value hvalue

/-- A program equals itself unless the value of a number is NaN. -/
lemma equal_self_iff (p : Program) : p.equal p = true ↔ .nan ∉ p.values := by
  rw [equal, Stmt.equalAll_iff_forall₂, List.forall₂_same]
  simp [values, Stmt.equal_self_iff]

/-- The values of a well formed program can be found again when they are lost. -/
lemma eq_of_unvalued (hp : ∀ s ∈ p, s.WellFormed) (hq : ∀ s ∈ q, s.WellFormed)
    (h : p.unvalued = q.unvalued) : p = q := by
  have hagain : ∀ {r : Program}, (∀ s ∈ r, s.WellFormed) →
      r.unvalued.map (Stmt.revalued Token.textValue) = r := by
    intro r hr
    rw [unvalued, List.map_map]
    refine (List.map_congr_left fun s hs => ?_).trans (List.map_id' r)
    exact (s.revalued_revalued _ _).trans (hr s hs).revalued_eq
  rw [← hagain hp, h, hagain hq]

/-- Well formed programs are equal if and only if they are written in the same way. -/
theorem equal_iff_unvalued_eq (hp : ∀ s ∈ p, s.WellFormed) (hq : ∀ s ∈ q, s.WellFormed) :
    p.equal q = true ↔ p.unvalued = q.unvalued := by
  constructor
  · intro h
    exact map_eq_map_of_forall₂ (Stmt.equalAll_iff_forall₂.1 h) fun _ _ _ =>
      Stmt.revalued_eq_of_equal _
  · intro h
    obtain rfl := eq_of_unvalued hp hq h
    rw [equal_self_iff]
    intro hnan
    obtain ⟨text, hlexeme, hvalue⟩ := exists_lexeme hp _ hnan
    exact numberValue?_ne_nan hlexeme hvalue rfl

end Program

end ImpSyntax
