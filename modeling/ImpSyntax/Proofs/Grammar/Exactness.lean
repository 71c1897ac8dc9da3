import ImpSyntax.Program
import ImpSyntax.Proofs.Grammar.Completeness
import ImpSyntax.Proofs.Grammar.Soundness
import Mathlib.Data.Set.Subsingleton

/-!
# The parser and the grammar

`parse` finds exactly the programs that the grammar derives.  As it is a function, no list of tokens
is derived as two programs: the grammar is unambiguous, which its productions alone do not show.
The relation is thereby decidable as well.

Programs are put together like their tokens (`parse_append`): what has been read stays as it is
whatever comes next, unless that is an `else`, and what comes next is read as if it stood alone.
Between braces the tokens of a program are read as a block of its statements, and nothing else is
(`parse_braces`).
-/

namespace ImpSyntax

open Grammar Rule

variable {tokens : List Token} {p q : Program}

lemma parse_eq_ok : parse tokens = .ok p ↔ program tokens = .done p [] := by
  constructor
  · intro h
    unfold parse at h
    cases hrun : program tokens with
    | failed failure rest =>
      rw [hrun] at h
      exact absurd h (by simp [Outcome.result])
    | done q rest =>
      rw [hrun] at h
      injection h with hq
      rw [hq, (derivesProgram_of_done hrun).2]
  · intro h
    rw [parse, h]
    rfl

lemma parse_eq_error {failure : Failure} :
    parse tokens = .error failure ↔ ∃ rest, program tokens = .failed failure rest := by
  unfold parse
  cases program tokens <;> simp [Outcome.result]

lemma derivesProgram_of_parse (h : parse tokens = .ok p) : DerivesProgram tokens p :=
  (derivesProgram_of_done (parse_eq_ok.1 h)).1

lemma parse_of_derives (h : DerivesProgram tokens p) : parse tokens = .ok p :=
  parse_eq_ok.2 (program_of_derives h)

/-- A list of tokens is derived as one program at most. -/
lemma derivesProgram_unique (hp : DerivesProgram tokens p) (hq : DerivesProgram tokens q) :
    p = q := by
  have hparse : parse tokens = .ok p := parse_of_derives hp
  rw [parse_of_derives hq] at hparse
  injection hparse with heq
  exact heq.symm

/-- The programs that are found are those that the grammar derives, and there is one at most. -/
theorem parse_exact (tokens : List Token) :
    (∀ p, parse tokens = .ok p ↔ DerivesProgram tokens p) ∧
      {p | DerivesProgram tokens p}.Subsingleton :=
  ⟨fun _ => ⟨derivesProgram_of_parse, parse_of_derives⟩,
    fun _ hp _ hq => derivesProgram_unique hp hq⟩

instance (tokens : List Token) : Decidable (∃ p, DerivesProgram tokens p) :=
  match h : parse tokens with
  | .ok p => isTrue ⟨p, derivesProgram_of_parse h⟩
  | .error _ => isFalse fun ⟨_, hp⟩ => by
      rw [parse_of_derives hp] at h
      exact absurd h (by simp)

/-- A conditional takes one `else`, and a second one is left over. -/
example : ¬ ∃ p, DerivesProgram ([Kind.ifWord, .leftParen, .identifier, .rightParen, .semicolon,
    .elseWord, .semicolon, .elseWord, .semicolon].map fun kind => .ofKind kind 1) p := by
  decide

/-! ## One program after another -/

/-- Tokens behind those of a program add their own statements to it, or fail as they do alone. -/
theorem parse_append {us vs : List Token} (hp : parse us = .ok p)
    (helse : ¬ NextIs [.elseWord] vs) : parse (us ++ vs) = (parse vs).map (p ++ ·) := by
  have happend := program_append (derivesProgram_of_parse hp) helse
  rw [parse, parse, happend, bind_apply]
  cases program vs with
  | done q rest => rfl
  | failed failure rest => rfl

/-- A loop that ends in a conditional without an alternative stays so before a failing `print`. -/
theorem parse_append_failed_print :
    let loop : List Token := [.ofKind .whileWord 1, .ofKind .leftParen 1, ⟨.identifier, "x", 1⟩,
      .ofKind .rightParen 1, .ofKind .ifWord 1, .ofKind .leftParen 1, ⟨.identifier, "y", 1⟩,
      .ofKind .rightParen 1, .ofKind .semicolon 1]
    let print : List Token := [.ofKind .printWord 2, .ofKind .semicolon 3]
    parse loop = .ok [.whileLoop (.var ⟨.identifier, "x", 1⟩)
        (.ifThen (.var ⟨.identifier, "y", 1⟩) .empty)] ∧
      ¬ NextIs [.elseWord] print ∧
      parse (loop ++ print) = .error ⟨.unexpected [.identifier] ";", some 3⟩ := by
  intro loop print
  have hloop : parse loop = .ok [.whileLoop (.var ⟨.identifier, "x", 1⟩)
      (.ifThen (.var ⟨.identifier, "y", 1⟩) .empty)] := rfl
  have helse : ¬ NextIs [.elseWord] print := by simp [print, Token.ofKind]
  have hprint : parse print = .error ⟨.unexpected [.identifier] ";", some 3⟩ := rfl
  refine ⟨hloop, helse, ?_⟩
  rw [parse_append hloop helse, hprint]
  rfl

/-! ## A program between braces -/

lemma derivesProgram_singleton {s : Stmt} : DerivesProgram tokens [s] ↔ DerivesStmt tokens s := by
  constructor
  · rintro ⟨parts, hparts, rfl, hs⟩
    obtain ⟨part, rfl, rfl⟩ := List.map_eq_singleton_iff.1 hs.symm
    simpa using hparts part (List.mem_singleton_self part)
  · intro h
    simpa using DerivesProgram.cons h .nil

/-- The outer braces of a block are its first and its last token. -/
lemma derivesProgram_of_block {left right : Token} {body : Program}
    (h : DerivesStmt (left :: (tokens ++ [right])) (.block body)) : DerivesProgram tokens body := by
  generalize hall : left :: (tokens ++ [right]) = all at h
  cases h with
  | @block left' right' parts _ hparts _ =>
    obtain ⟨-, hinside⟩ := List.cons.inj hall
    obtain ⟨rfl, -⟩ := List.append_inj' hinside rfl
    exact ⟨parts, hparts, rfl, rfl⟩

/-- Tokens between braces are one block exactly if they are a program themselves, and the statements
of the block are those of the program.  A closing brace among the tokens does not end the block. -/
theorem parse_braces {left right : Token} (hleft : left.kind = .leftBrace)
    (hright : right.kind = .rightBrace) (tokens : List Token) (body : Program) :
    parse (left :: (tokens ++ [right])) = .ok [.block body] ↔ parse tokens = .ok body := by
  constructor
  · intro h
    have hblock : DerivesStmt (left :: (tokens ++ [right])) (.block body) :=
      derivesProgram_singleton.1 (derivesProgram_of_parse h)
    exact parse_of_derives (derivesProgram_of_block hblock)
  · intro h
    have hblock : DerivesStmt (left :: (tokens ++ [right])) (.block body) :=
      .of_program hleft (derivesProgram_of_parse h) hright
    exact parse_of_derives (derivesProgram_singleton.2 hblock)

/-- A conditional without an alternative is the last thing in a program and in a block. -/
theorem parse_braces_conditional :
    let left : Token := .ofKind .leftBrace 1
    let right : Token := .ofKind .rightBrace 3
    let conditional : List Token := [.ofKind .ifWord 2, .ofKind .leftParen 2, ⟨.identifier, "x", 2⟩,
      .ofKind .rightParen 2, .ofKind .semicolon 2]
    let body : Program := [.ifThen (.var ⟨.identifier, "x", 2⟩) .empty]
    left.kind = .leftBrace ∧ right.kind = .rightBrace ∧ parse conditional = .ok body ∧
      parse (left :: (conditional ++ [right])) = .ok [.block body] := by
  intro left right conditional body
  have hbody : parse conditional = .ok body := rfl
  exact ⟨rfl, rfl, hbody, (parse_braces rfl rfl conditional body).2 hbody⟩

/-- Tokens that close a block and open another one are no program, and between braces they are two
blocks. -/
example : parse ([Kind.leftBrace, .rightBrace, .leftBrace, .rightBrace].map fun kind =>
    .ofKind kind 1) = .ok [.block [], .block []] := rfl

end ImpSyntax
