import ImpSyntax.Proofs.Grammar.Exactness
import ImpSyntax.Proofs.Tree.Canonical

/-!
# Rendering a program and reading it again

A program that was read from a source is rendered with one statement on each line, and reading that
text gives the same program, with the tokens of each statement on the line of that statement.  Three
things come together: the program is well formed, because its tokens are lexemes; its text has the
canonical tokens, line by line; and these are derived as the program on its new lines, which the
parser therefore finds.

The main result is `parseSource_render`.
-/

namespace ImpSyntax

open Grammar

variable {p : Program} {lines : Nat → LineNumber}

/-! ## Lines of a program -/

/-- Each statement but the first stands behind a line feed. -/
lemma Program.toList_render (s : Stmt) (p : Program) :
    (Program.render (s :: p)).toList =
      s.render.toList ++ p.flatMap fun t => '\n' :: t.render.toList := by
  induction p generalizing s with
  | nil => simp [render]
  | cons next p ih =>
    have hrest : (String.intercalate "\n" (next.render :: p.map Stmt.render)).toList =
        next.render.toList ++ p.flatMap fun t => '\n' :: t.render.toList := ih next
    rw [render, List.map_cons, List.map_cons, String.intercalate_cons_cons, String.toList_append,
      String.toList_append, hrest, List.flatMap_cons]
    simp

lemma Program.canonicalBy_cons (s : Stmt) (p : Program) :
    canonicalBy lines (s :: p) =
      s.canonical (lines 0) ++ canonicalBy (fun k => lines (k + 1)) p := by
  rw [canonicalBy, List.mapIdx_cons, List.flatten_cons]
  rfl

/-- Each statement behind a line feed stands on the next line. -/
lemma Program.scans_lines (h : ∀ s ∈ p, s.WellFormed) {line : LineNumber}
    (hline : lines 0 = line + 1) (hlines : ∀ k, lines (k + 1) = lines k + 1) :
    Scans line (p.flatMap fun s => '\n' :: s.render.toList) (p.canonicalBy lines) := by
  induction p generalizing line lines with
  | nil => exact scans_nil line
  | cons s p ih =>
    rw [List.forall_mem_cons] at h
    have hrest : Scans (lines 0) (p.flatMap fun s => '\n' :: s.render.toList)
        (canonicalBy (fun k => lines (k + 1)) p) :=
      ih h.2 (hlines 0) fun k => hlines (k + 1)
    rw [canonicalBy_cons, List.flatMap_cons, List.cons_append]
    refine Scans.lineFeed ?_
    rw [← hline]
    exact h.1.scans hrest

/-- The text of a program has its canonical tokens. -/
lemma Program.scans_render (h : ∀ s ∈ p, s.WellFormed) {line : LineNumber}
    (hline : lines 0 = line) (hlines : ∀ k, lines (k + 1) = lines k + 1) :
    Scans line p.render.toList (p.canonicalBy lines) := by
  cases p with
  | nil => exact scans_nil line
  | cons s p =>
    rw [List.forall_mem_cons] at h
    rw [toList_render, canonicalBy_cons, ← hline]
    exact h.1.scans (scans_lines h.2 (hlines 0) fun k => hlines (k + 1))

lemma Program.relinedBy_cons (s : Stmt) (p : Program) :
    relinedBy lines (s :: p) = s.relined (lines 0) :: relinedBy (fun k => lines (k + 1)) p :=
  List.mapIdx_cons

/-- The lines of the tokens do not show in the text of a program. -/
lemma Program.render_relinedBy (lines : Nat → LineNumber) (p : Program) :
    (p.relinedBy lines).render = p.render := by
  have hmap : (p.relinedBy lines).map Stmt.render = p.map Stmt.render := by
    induction p generalizing lines with
    | nil => rfl
    | cons s p ih => rw [relinedBy_cons, List.map_cons, List.map_cons, Stmt.render_relined, ih]
  rw [render, render, hmap]

/-- A program equals itself on other lines just if each token is on the line of its statement. -/
lemma Program.equal_relinedBy (h : ∀ s ∈ p, s.WellFormed) :
    Program.equal p (p.relinedBy lines) = true ↔
      ∀ k s, p[k]? = some s → ∀ token ∈ s.tokens, token.line = lines k := by
  unfold equal
  induction p generalizing lines with
  | nil => simp [relinedBy, Stmt.equalAll]
  | cons s p ih =>
    rw [List.forall_mem_cons] at h
    rw [relinedBy_cons, Stmt.equalAll, Bool.and_eq_true, h.1.equal_relined, ih h.2]
    constructor
    · rintro ⟨hfirst, hrest⟩ k t hk
      cases k with
      | zero =>
        obtain rfl : s = t := by simpa using hk
        exact hfirst
      | succ k => exact hrest k t (by simpa using hk)
    · intro hall
      exact ⟨hall 0 s rfl, fun k t hk => hall (k + 1) t (by simpa using hk)⟩

/-! ## The round trip -/

lemma parseSource_eq_ok {source : String} : parseSource source = .ok p ↔
    ∃ tokens, tokenize source = .ok tokens ∧ parse tokens = .ok p := by
  unfold parseSource
  cases tokenize source with
  | error failure => simp [bind, Except.bind]
  | ok tokens => simp [bind, Except.bind]

/-- Each statement of a program that was read is derived from its canonical tokens. -/
lemma wellFormed_of_parseSource {source : String} (h : parseSource source = .ok p) :
    ∀ s ∈ p, s.WellFormed ∧ ∀ line, DerivesStmt (s.canonical line) (s.relined line) := by
  obtain ⟨tokens, htokenize, hparse⟩ := parseSource_eq_ok.1 h
  have hlexemes : HasLexemes tokens := lexeme_of_tokenize htokenize
  obtain ⟨parts, hparts, rfl, rfl⟩ := derivesProgram_of_parse hparse
  intro s hs
  obtain ⟨part, hpart, rfl⟩ := List.mem_map.1 hs
  have hpartLexemes : HasLexemes part.1 := fun token htoken =>
    hlexemes token (List.mem_flatMap.2 ⟨part, hpart, htoken⟩)
  have hderives := hparts part hpart
  have hwf := hderives.wellFormed hpartLexemes
  exact ⟨hwf, fun _ => hwf.derives_canonical hderives.noneDangles⟩

/-- Reading the text of a program gives the program with its statements on the lines 1, 2 and so on.
It is rendered as the same text, and it equals the program if and only if the tokens of every
statement were on the line of that statement already. -/
theorem parseSource_render {source : String} (h : parseSource source = .ok p) :
    parseSource p.render = .ok p.relined ∧ p.relined.render = p.render ∧
      (Program.equal p p.relined = true ↔ ∀ k s, p[k]? = some s → ∀ token ∈ s.tokens,
        token.line = UInt32.ofNat (k + 1)) := by
  have hparts := wellFormed_of_parseSource h
  have hwf : ∀ s ∈ p, s.WellFormed := fun s hs => (hparts s hs).1
  have hscans : Scans 1 p.render.toList (p.canonicalBy fun k => UInt32.ofNat (k + 1)) :=
    Program.scans_render hwf rfl fun k => UInt32.ofNat_add (k + 1) 1
  have hderives : DerivesProgram (p.canonicalBy fun k => UInt32.ofNat (k + 1)) p.relined :=
    Program.derives_canonicalBy (fun s hs => (hparts s hs).2) _
  exact ⟨parseSource_eq_ok.2 ⟨_, tokenize_of_scans hscans, parse_of_derives hderives⟩,
    Program.render_relinedBy _ p, Program.equal_relinedBy hwf⟩

/-- A statement on two lines is written on the first, and the one after it on the second. -/
theorem parseSource_render_assignment :
    parseSource "x\n= y;print x;" = .ok
        [.eval [.binary ⟨.assign, "=", 2⟩ (.var ⟨.identifier, "x", 1⟩)
          (.var ⟨.identifier, "y", 2⟩)], .print ⟨.identifier, "x", 2⟩] ∧
      parseSource "(x = y);\nprint x;" = .ok
        [.eval [.binary ⟨.assign, "=", 1⟩ (.var ⟨.identifier, "x", 1⟩)
          (.var ⟨.identifier, "y", 1⟩)], .print ⟨.identifier, "x", 2⟩] := by
  have htokens : tokenize "x\n= y;print x;" = .ok
      [⟨.identifier, "x", 1⟩, ⟨.assign, "=", 2⟩, ⟨.identifier, "y", 2⟩, ⟨.semicolon, ";", 2⟩,
        ⟨.printWord, "print", 2⟩, ⟨.identifier, "x", 2⟩, ⟨.semicolon, ";", 2⟩] := by
    decide +kernel
  have hparse : parseSource "x\n= y;print x;" = .ok
      [.eval [.binary ⟨.assign, "=", 2⟩ (.var ⟨.identifier, "x", 1⟩)
        (.var ⟨.identifier, "y", 2⟩)], .print ⟨.identifier, "x", 2⟩] :=
    parseSource_eq_ok.2 ⟨_, htokens, rfl⟩
  exact ⟨hparse, (parseSource_render hparse).1⟩

end ImpSyntax
