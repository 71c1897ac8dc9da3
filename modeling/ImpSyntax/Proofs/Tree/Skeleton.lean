import ImpSyntax.Proofs.Grammar.Derivation
import ImpSyntax.Proofs.Source.Scan
import ImpSyntax.Proofs.Tree.Tokens

/-!
# A tree as a skeleton with tokens

The `skeleton` of a tree keeps of each token its kind only.  Together with the tokens in the order
of the source it is the whole tree (`Program.eq_of_skeleton`): the skeleton says how many tokens
there are and where each of them goes.

Which tokens a tree has is known without reading it.  The tokens that it is derived from are all
`kept`, apart from punctuation and reserved words, and in the order in which they come
(`DerivesProgram.tokens_eq`).  `keptPlaces` lists the places where they stand.
-/

namespace ImpSyntax

/-- The token without its text and its line. -/
def Token.bare (token : Token) : Token :=
  ⟨token.kind, "", 0⟩

lemma Token.bare_eq_bare_iff {token other : Token} :
    token.bare = other.bare ↔ token.kind = other.kind := by
  simp [bare]

/-! ## Skeletons -/

/-- The expression with its tokens bare. -/
def Expr.skeleton (e : Expr) : Expr :=
  e.mapTokens Token.bare

/-- The statement with its tokens bare. -/
def Stmt.skeleton (s : Stmt) : Stmt :=
  s.mapTokens Token.bare

/-- The program with its tokens bare. -/
def Program.skeleton (program : Program) : Program :=
  program.map Stmt.skeleton

/-- The tokens in a program, in the order in which they were written. -/
def Program.tokens (program : Program) : List Token :=
  program.flatMap Stmt.tokens

section Equations

@[simp] lemma Expr.skeleton_number (value : Binary64) (token : Token) :
    (number value token).skeleton = number value token.bare := rfl

@[simp] lemma Expr.skeleton_var (token : Token) : (var token).skeleton = var token.bare := rfl

@[simp] lemma Expr.skeleton_unary (operator : Token) (operand : Expr) :
    (unary operator operand).skeleton = unary operator.bare operand.skeleton := rfl

@[simp] lemma Expr.skeleton_binary (operator : Token) (left right : Expr) :
    (binary operator left right).skeleton =
      binary operator.bare left.skeleton right.skeleton := rfl

@[simp] lemma Stmt.skeleton_print (target : Token) :
    (print target).skeleton = print target.bare := rfl

@[simp] lemma Stmt.skeleton_ifThen (c : Expr) (body : Stmt) :
    (ifThen c body).skeleton = ifThen c.skeleton body.skeleton := rfl

@[simp] lemma Stmt.skeleton_ifElse (c : Expr) (body alternative : Stmt) :
    (ifElse c body alternative).skeleton =
      ifElse c.skeleton body.skeleton alternative.skeleton := rfl

@[simp] lemma Stmt.skeleton_whileLoop (c : Expr) (body : Stmt) :
    (whileLoop c body).skeleton = whileLoop c.skeleton body.skeleton := rfl

@[simp] lemma Stmt.skeleton_forLoop (first body : Stmt) (c : Expr) (step : List Expr) :
    (forLoop first c step body).skeleton =
      forLoop first.skeleton c.skeleton (step.map Expr.skeleton) body.skeleton := rfl

@[simp] lemma Stmt.skeleton_block (body : List Stmt) :
    (block body).skeleton = block (body.map skeleton) :=
  congrArg block (mapTokensAll_eq Token.bare body)

@[simp] lemma Stmt.skeleton_eval (es : List Expr) :
    (eval es).skeleton = eval (es.map Expr.skeleton) := rfl

@[simp] lemma Stmt.skeleton_empty : empty.skeleton = empty := rfl

end Equations

/-! ## A tree is its skeleton and its tokens -/

lemma Expr.tokens_skeleton (e : Expr) : e.skeleton.tokens = e.tokens.map Token.bare := by
  induction e with
  | number value token => rfl
  | var token => rfl
  | unary operator operand ih =>
    rw [skeleton_unary, tokens, tokens, ih]
    by_cases hstep : operator.kind.isStep
    · simp [Token.bare, hstep]
    · simp [Token.bare, hstep]
  | binary operator left right ihleft ihright =>
    simp [tokens, ihleft, ihright]

lemma Stmt.tokens_block (body : List Stmt) : (block body).tokens = body.flatMap tokens := by
  rw [tokens, tokensAll_eq]

lemma Expr.flatMap_tokens_skeleton (es : List Expr) :
    (es.map skeleton).flatMap tokens = (es.flatMap tokens).map Token.bare := by
  simp [List.flatMap_map, List.map_flatMap, tokens_skeleton]

lemma Stmt.tokens_skeleton (s : Stmt) : s.skeleton.tokens = s.tokens.map Token.bare := by
  induction s using Stmt.induction with
  | print target => rfl
  | ifThen c body ih => simp [tokens, Expr.tokens_skeleton, ih]
  | ifElse c body alternative ihbody ihalternative =>
    simp [tokens, Expr.tokens_skeleton, ihbody, ihalternative]
  | whileLoop c body ih => simp [tokens, Expr.tokens_skeleton, ih]
  | forLoop first c step body ihfirst ihbody =>
    simp [tokens, Expr.tokens_skeleton, ihfirst, ihbody, Expr.flatMap_tokens_skeleton]
  | block body ih =>
    rw [skeleton_block, tokens_block, tokens_block, List.flatMap_map, List.map_flatMap]
    exact List.flatMap_congr ih
  | eval es => simp [tokens, Expr.flatMap_tokens_skeleton]
  | empty => rfl

lemma Expr.length_tokens_of_skeleton {e f : Expr} (h : e.skeleton = f.skeleton) :
    e.tokens.length = f.tokens.length := by
  rw [← List.length_map Token.bare, ← tokens_skeleton, h, tokens_skeleton, List.length_map]

lemma Stmt.length_tokens_of_skeleton {s t : Stmt} (h : s.skeleton = t.skeleton) :
    s.tokens.length = t.tokens.length := by
  rw [← List.length_map Token.bare, ← tokens_skeleton, h, tokens_skeleton, List.length_map]

lemma Expr.eq_of_skeleton {e f : Expr} (hskeleton : e.skeleton = f.skeleton)
    (htokens : e.tokens = f.tokens) : e = f := by
  induction e generalizing f with
  | number value token =>
    cases f with
    | number other u => simp_all [tokens]
    | _ => exact absurd hskeleton (by simp)
  | var token =>
    cases f with
    | var u => simp_all [tokens]
    | _ => exact absurd hskeleton (by simp)
  | unary operator operand ih =>
    cases f with
    | unary p b =>
      obtain ⟨hkind, hoperand⟩ : operator.bare = p.bare ∧ operand.skeleton = b.skeleton := by
        simpa using hskeleton
      rw [Token.bare_eq_bare_iff] at hkind
      rw [tokens, tokens, hkind] at htokens
      split at htokens
      · obtain ⟨hsame, hlast⟩ := List.append_inj htokens (length_tokens_of_skeleton hoperand)
        rw [ih hoperand hsame, (List.cons.inj hlast).1]
      · obtain ⟨hfirst, hsame⟩ := List.cons.inj htokens
        rw [ih hoperand hsame, hfirst]
    | _ => exact absurd hskeleton (by simp)
  | binary operator left right ihleft ihright =>
    cases f with
    | binary p a b =>
      obtain ⟨-, hleft, hright⟩ :
          operator.bare = p.bare ∧ left.skeleton = a.skeleton ∧ right.skeleton = b.skeleton := by
        simpa using hskeleton
      obtain ⟨hsame, hrest⟩ := List.append_inj htokens (length_tokens_of_skeleton hleft)
      obtain ⟨hoperator, hlast⟩ := List.cons.inj hrest
      rw [ihleft hleft hsame, ihright hright hlast, hoperator]
    | _ => exact absurd hskeleton (by simp)

lemma Expr.length_flatMap_of_skeleton {es fs : List Expr}
    (h : es.map skeleton = fs.map skeleton) :
    (es.flatMap tokens).length = (fs.flatMap tokens).length := by
  rw [← List.length_map Token.bare, ← flatMap_tokens_skeleton, h, flatMap_tokens_skeleton,
    List.length_map]

/-- What is determined by a skeleton and tokens is so in a list, too. -/
lemma eq_of_map_of_flatMap {α : Type} {skeleton : α → α} {tokens : α → List Token} {as bs : List α}
    (hlength : ∀ a b, skeleton a = skeleton b → (tokens a).length = (tokens b).length)
    (heq : ∀ a ∈ as, ∀ b, skeleton a = skeleton b → tokens a = tokens b → a = b)
    (hskeletons : as.map skeleton = bs.map skeleton)
    (htokens : as.flatMap tokens = bs.flatMap tokens) : as = bs := by
  induction as generalizing bs with
  | nil => exact (List.map_eq_nil_iff.1 hskeletons.symm).symm
  | cons a as ih =>
    cases bs with
    | nil => exact absurd hskeletons (by simp)
    | cons b bs =>
      obtain ⟨hfirst, hrest⟩ := List.cons.inj hskeletons
      rw [List.flatMap_cons, List.flatMap_cons] at htokens
      obtain ⟨hsame, hmore⟩ := List.append_inj htokens (hlength a b hfirst)
      rw [List.forall_mem_cons] at heq
      rw [heq.1 b hfirst hsame, ih heq.2 hrest hmore]

lemma Expr.list_eq_of_skeleton {es fs : List Expr} (hskeletons : es.map skeleton = fs.map skeleton)
    (htokens : es.flatMap tokens = fs.flatMap tokens) : es = fs :=
  eq_of_map_of_flatMap (fun _ _ => length_tokens_of_skeleton) (fun _ _ _ => eq_of_skeleton)
    hskeletons htokens

lemma Stmt.eq_of_skeleton {s t : Stmt} (hskeleton : s.skeleton = t.skeleton)
    (htokens : s.tokens = t.tokens) : s = t := by
  induction s using Stmt.induction generalizing t with
  | print target =>
    cases t with
    | print u => simp_all [tokens]
    | _ => exact absurd hskeleton (by simp)
  | ifThen c body ih =>
    cases t with
    | ifThen d t =>
      obtain ⟨hc, hbody⟩ : c.skeleton = d.skeleton ∧ body.skeleton = t.skeleton := by
        simpa using hskeleton
      obtain ⟨hfirst, hrest⟩ := List.append_inj htokens (Expr.length_tokens_of_skeleton hc)
      rw [Expr.eq_of_skeleton hc hfirst, ih hbody hrest]
    | _ => exact absurd hskeleton (by simp)
  | ifElse c body alternative ihbody ihalternative =>
    cases t with
    | ifElse d t a =>
      obtain ⟨hc, hbody, halternative⟩ : c.skeleton = d.skeleton ∧ body.skeleton = t.skeleton ∧
          alternative.skeleton = a.skeleton := by
        simpa using hskeleton
      obtain ⟨hfirst, hrest⟩ := List.append_inj htokens (Expr.length_tokens_of_skeleton hc)
      obtain ⟨hsecond, hlast⟩ := List.append_inj hrest (length_tokens_of_skeleton hbody)
      rw [Expr.eq_of_skeleton hc hfirst, ihbody hbody hsecond, ihalternative halternative hlast]
    | _ => exact absurd hskeleton (by simp)
  | whileLoop c body ih =>
    cases t with
    | whileLoop d t =>
      obtain ⟨hc, hbody⟩ : c.skeleton = d.skeleton ∧ body.skeleton = t.skeleton := by
        simpa using hskeleton
      obtain ⟨hfirst, hrest⟩ := List.append_inj htokens (Expr.length_tokens_of_skeleton hc)
      rw [Expr.eq_of_skeleton hc hfirst, ih hbody hrest]
    | _ => exact absurd hskeleton (by simp)
  | forLoop first c step body ihfirst ihbody =>
    cases t with
    | forLoop i d fs t =>
      obtain ⟨hfirst, hc, hstep, hbody⟩ : first.skeleton = i.skeleton ∧ c.skeleton = d.skeleton ∧
          step.map Expr.skeleton = fs.map Expr.skeleton ∧ body.skeleton = t.skeleton := by
        simpa using hskeleton
      have hstepLength : (step.flatMap Expr.tokens).length = (fs.flatMap Expr.tokens).length :=
        Expr.length_flatMap_of_skeleton hstep
      obtain ⟨htokensFirst, hrest⟩ := List.append_inj htokens (length_tokens_of_skeleton hfirst)
      obtain ⟨htokensC, hrest⟩ := List.append_inj hrest (Expr.length_tokens_of_skeleton hc)
      obtain ⟨htokensStep, htokensBody⟩ := List.append_inj hrest hstepLength
      rw [ihfirst hfirst htokensFirst, Expr.eq_of_skeleton hc htokensC,
        Expr.list_eq_of_skeleton hstep htokensStep, ihbody hbody htokensBody]
    | _ => exact absurd hskeleton (by simp)
  | block body ih =>
    cases t with
    | block other =>
      rw [skeleton_block, skeleton_block, block.injEq] at hskeleton
      rw [tokens_block, tokens_block] at htokens
      rw [eq_of_map_of_flatMap (fun _ _ => length_tokens_of_skeleton) (fun s hs _ => ih s hs)
        hskeleton htokens]
    | _ => exact absurd hskeleton (by simp)
  | eval es =>
    cases t with
    | eval fs =>
      rw [Expr.list_eq_of_skeleton (by simpa using hskeleton) htokens]
    | _ => exact absurd hskeleton (by simp)
  | empty =>
    cases t with
    | empty => rfl
    | _ => exact absurd hskeleton (by simp)

/-- A program is determined by its skeleton and its tokens. -/
theorem Program.eq_of_skeleton {p q : Program} (hskeleton : p.skeleton = q.skeleton)
    (htokens : p.tokens = q.tokens) : p = q :=
  eq_of_map_of_flatMap (fun _ _ => Stmt.length_tokens_of_skeleton)
    (fun _ _ _ => Stmt.eq_of_skeleton) hskeleton htokens

/-! ## The tokens that are kept -/

/-- Whether trees keep the tokens of a kind: it is neither punctuation nor a reserved word. -/
def Kind.isKept (kind : Kind) : Bool :=
  !(punctuation ++ reservedWords).contains kind

/-- The tokens that trees keep. -/
def kept (tokens : List Token) : List Token :=
  tokens.filter (·.kind.isKept)

@[simp] lemma kept_nil : kept [] = [] := rfl

@[simp] lemma kept_append (us vs : List Token) : kept (us ++ vs) = kept us ++ kept vs :=
  List.filter_append us vs

lemma kept_cons_of_isKept {token : Token} {tokens : List Token} (h : token.kind.isKept = true) :
    kept (token :: tokens) = token :: kept tokens :=
  List.filter_cons_of_pos h

lemma kept_cons_of_kind {token : Token} {tokens : List Token} {kind : Kind}
    (hkind : token.kind = kind) (h : kind.isKept = false) : kept (token :: tokens) = kept tokens :=
  List.filter_cons_of_neg (by simp [hkind, h])

namespace Grammar

variable {tokens : List Token}

/-- An expression has the tokens that it is derived from, without the parentheses. -/
lemma Derives.tokens_eq {category : Category} {e : Expr} (h : Derives category tokens e) :
    e.tokens = kept tokens := by
  have hkept : ∀ {kind : Kind} {kinds : List Kind}, kind ∈ kinds →
      kinds.all Kind.isKept = true → kind.isKept = true :=
    fun hkind hall => List.all_eq_true.1 hall _ hkind
  induction h with
  | number hkind _ => rw [kept_cons_of_isKept (by rw [hkind]; rfl)]; rfl
  | var hkind => rw [kept_cons_of_isKept (by rw [hkind]; rfl)]; rfl
  | parens hleft _ hright ih =>
    rw [kept_cons_of_kind hleft rfl, kept_append, kept_cons_of_kind hright rfl, ih, kept_nil,
      List.append_nil]
  | unstepped _ ih => exact ih
  | step _ hoperator ih =>
    rw [Use.step_mem] at hoperator
    have hstep : _ = true := List.contains_iff_mem.2 hoperator
    rw [Expr.tokens, Kind.isStep, if_pos hstep, kept_append, ih,
      kept_cons_of_isKept (hkept hoperator rfl), kept_nil]
  | unsigned _ ih => exact ih
  | @sign operator _ _ hoperator _ ih =>
    rw [Use.sign_mem] at hoperator
    have hstep : operator.kind.isStep = false := by
      revert hoperator
      generalize operator.kind = kind
      revert kind
      decide
    rw [Expr.tokens, if_neg (by simp [hstep]), kept_cons_of_isKept (hkept hoperator rfl), ih]
  | operand _ ih => exact ih
  | @operation level _ _ _ _ _ _ hoperator _ iha ihb =>
    rw [Use.operation_mem] at hoperator
    have hlevel : level.operators.all Kind.isKept = true := by cases level <;> rfl
    rw [Expr.tokens, kept_append, kept_cons_of_isKept (hkept hoperator hlevel), iha, ihb]
  | unassigned _ ih => exact ih
  | assignment _ hoperator _ iha ihb =>
    rw [Use.assignment_mem] at hoperator
    rw [Expr.tokens, kept_append, kept_cons_of_isKept (hkept hoperator rfl), iha, ihb]

lemma DerivesList.tokens_eq {es : List Expr} (h : DerivesList tokens es) :
    es.flatMap Expr.tokens = kept tokens := by
  induction h with
  | one he => simp [he.tokens_eq]
  | more he hcomma _ ih =>
    rw [List.flatMap_cons, kept_append, kept_cons_of_kind hcomma rfl, he.tokens_eq, ih]

lemma DerivesCondition.tokens_eq {c : Expr} (h : DerivesCondition tokens c) :
    c.tokens = kept tokens := by
  cases h with
  | parens hleft he hright =>
    rw [kept_cons_of_kind hleft rfl, kept_append, kept_cons_of_kind hright rfl, he.tokens_eq,
      kept_nil, List.append_nil]

/-- Statements one after another have the tokens that each of them has. -/
lemma flatMap_tokens_eq {parts : List (List Token × Stmt)}
    (h : ∀ part ∈ parts, part.2.tokens = kept part.1) :
    (parts.map Prod.snd).flatMap Stmt.tokens = kept (parts.flatMap Prod.fst) := by
  rw [List.flatMap_map, kept, List.filter_flatMap]
  exact List.flatMap_congr h

/-- A statement has the tokens that it is derived from, without punctuation and reserved words. -/
lemma DerivesStmt.tokens_eq {s : Stmt} (h : DerivesStmt tokens s) : s.tokens = kept tokens := by
  induction h with
  | print hword htarget hsemicolon =>
    rw [kept_cons_of_kind hword rfl, kept_cons_of_isKept (by rw [htarget]; rfl),
      kept_cons_of_kind hsemicolon rfl]
    rfl
  | ifThen hword hc _ ih =>
    rw [kept_cons_of_kind hword rfl, kept_append, ← hc.tokens_eq, ← ih]
    rfl
  | ifElse hword hc _ _ helse _ ihbody ihalternative =>
    rw [kept_cons_of_kind hword rfl, kept_append, kept_append, kept_cons_of_kind helse rfl,
      ← hc.tokens_eq, ← ihbody, ← ihalternative]
    rfl
  | whileLoop hword hc _ ih =>
    rw [kept_cons_of_kind hword rfl, kept_append, ← hc.tokens_eq, ← ih]
    rfl
  | forLoop hword hleft _ hc hsemicolon hstep hright _ ihfirst ihbody =>
    rw [kept_cons_of_kind hword rfl, kept_cons_of_kind hleft rfl, kept_append, kept_append,
      kept_cons_of_kind hsemicolon rfl, kept_append, kept_cons_of_kind hright rfl, ← ihfirst,
      ← hc.tokens_eq, ← hstep.tokens_eq, ← ihbody]
    rfl
  | @block left right parts hleft _ hright ih =>
    rw [kept_cons_of_kind hleft rfl, kept_append, kept_cons_of_kind hright rfl, kept_nil,
      List.append_nil, Stmt.tokens_block, flatMap_tokens_eq ih]
  | eval hes hsemicolon =>
    rw [kept_append, kept_cons_of_kind hsemicolon rfl, kept_nil, List.append_nil, ← hes.tokens_eq]
    rfl
  | empty hsemicolon =>
    rw [kept_cons_of_kind hsemicolon rfl]
    rfl

theorem DerivesProgram.tokens_eq {p : Program} (h : DerivesProgram tokens p) :
    p.tokens = kept tokens := by
  obtain ⟨parts, hparts, rfl, rfl⟩ := h
  exact flatMap_tokens_eq fun part hpart => (hparts part hpart).tokens_eq

end Grammar

/-! ## The places of the tokens that are kept -/

/-- The places in a list of tokens where those stand that trees keep. -/
def keptPlaces : List Token → List Nat
  | [] => []
  | token :: tokens =>
    if token.kind.isKept then 0 :: (keptPlaces tokens).map Nat.succ
    else (keptPlaces tokens).map Nat.succ

lemma keptPlaces_pairwise (tokens : List Token) : (keptPlaces tokens).Pairwise (· < ·) := by
  induction tokens with
  | nil => exact .nil
  | cons token tokens ih =>
    have hmore : ((keptPlaces tokens).map Nat.succ).Pairwise (· < ·) :=
      List.pairwise_map.2 (ih.imp Nat.succ_lt_succ)
    rw [keptPlaces]
    split
    · exact .cons (by simp) hmore
    · exact hmore

/-- The tokens that are kept stand in their places. -/
lemma map_some_kept (tokens : List Token) :
    (kept tokens).map some = (keptPlaces tokens).map (tokens[·]?) := by
  induction tokens with
  | nil => rfl
  | cons token tokens ih =>
    have hmore : ((keptPlaces tokens).map Nat.succ).map ((token :: tokens)[·]?) =
        (kept tokens).map some := by
      rw [ih, List.map_map]
      rfl
    rw [keptPlaces]
    by_cases hkept : token.kind.isKept = true
    · rw [if_pos hkept, kept_cons_of_isKept hkept, List.map_cons, List.map_cons, hmore]
      rfl
    · rw [if_neg hkept, hmore, kept_cons_of_kind rfl (by simpa using hkept)]

end ImpSyntax
