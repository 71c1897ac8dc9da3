import ImpSyntax.Proofs.Message
import ImpSyntax.Proofs.Source.Lexeme
import ImpSyntax.Proofs.Text.PrefixCode

/-!
# What messages tell

Nothing that a failure says is lost in its wording.  Kinds can be told apart from what follows their
names, by the apostrophe behind a spelling; so can lists of kinds, by the closing bracket, although
one of the kinds is a comma; and so can the five faults (`Fault.isPrefixCode_message`), three of
which begin with the same word.  The line stands behind the message and is found again as well.

The main result is `Failure.wording_faithful`.
-/

namespace ImpSyntax

/-! ## Kinds -/

namespace Kind

lemma apostrophe_not_mem {kind : Kind} {lexeme : String} (h : kind.lexeme? = some lexeme) :
    '\x27' ∉ lexeme.toList := by
  have hall : ∀ kind ∈ symbols ++ reservedWords, ∀ lexeme ∈ kind.lexeme?,
      '\x27' ∉ lexeme.toList := by
    decide
  exact hall kind (mem_of_lexeme?_eq_some h) lexeme h

lemma toList_describe {kind : Kind} {lexeme : String} (h : kind.lexeme? = some lexeme) :
    kind.describe.toList = '\x27' :: (lexeme.toList ++ ['\x27']) := by
  rw [describe, h]
  simp

/-- How a kind is named: by its spelling between apostrophes, or by a word. -/
inductive Name : Kind → List Char → Prop where
  | spelled {kind : Kind} {lexeme : String} (h : kind.lexeme? = some lexeme) :
      Name kind ('\x27' :: (lexeme.toList ++ ['\x27']))
  | number : Name number ('n' :: "umber".toList)
  | identifier : Name identifier ('i' :: "dentifier".toList)

lemma name_describe (kind : Kind) : Name kind kind.describe.toList := by
  cases hkind : kind.lexeme? with
  | some lexeme =>
    rw [toList_describe hkind]
    exact .spelled hkind
  | none =>
    cases kind with
    | number =>
      have hname : number.describe.toList = 'n' :: "umber".toList := by decide
      exact hname ▸ .number
    | identifier =>
      have hname : identifier.describe.toList = 'i' :: "dentifier".toList := by decide
      exact hname ▸ .identifier
    | _ => exact absurd hkind (by simp [lexeme?])

lemma Name.eq_of_append {kind other : Kind} {name text s t : List Char} (h : Name kind name)
    (hother : Name other text) (heq : name ++ s = text ++ t) : kind = other ∧ s = t := by
  cases h with
  | @spelled kind lexeme hkind =>
    cases hother with
    | @spelled other text hother =>
      have htexts : lexeme.toList ++ '\x27' :: s = text.toList ++ '\x27' :: t := by
        simpa using heq
      obtain ⟨htext, hrest⟩ := IsPrefixCode.eq_of_append_mark (apostrophe_not_mem hkind)
        (apostrophe_not_mem hother) htexts
      rw [← String.toList_injective htext] at hother
      exact ⟨lexeme?_injective hkind hother, hrest⟩
    | number | identifier => exact absurd (List.cons.inj heq).1 (by decide)
  | number =>
    cases hother with
    | number => exact ⟨rfl, List.append_cancel_left heq⟩
    | spelled | identifier => exact absurd (List.cons.inj heq).1 (by decide)
  | identifier =>
    cases hother with
    | identifier => exact ⟨rfl, List.append_cancel_left heq⟩
    | spelled | number => exact absurd (List.cons.inj heq).1 (by decide)

/-- The name of a kind can be told apart from what follows it. -/
lemma isPrefixCode_describe : IsPrefixCode fun kind : Kind => kind.describe.toList :=
  fun kind other _ _ => (name_describe kind).eq_of_append (name_describe other)

/-- No name begins with the bracket that closes a list. -/
lemma Name.exists_cons {kind : Kind} {name : List Char} (h : Name kind name) :
    ∃ c s, name = c :: s ∧ c ≠ ']' := by
  cases h with
  | spelled | number | identifier => exact ⟨_, _, rfl, by decide⟩

end Kind

namespace Fault

/-! ## Lists of kinds -/

/-- The kinds of a list after the first, each behind a comma, and the bracket that closes it. -/
def otherKinds (kinds : List Kind) : List Char :=
  kinds.flatMap (fun kind => [',', ' '] ++ kind.describe.toList) ++ [']']

lemma toList_intercalate_cons (kind : Kind) (kinds : List Kind) :
    (", ".intercalate ((kind :: kinds).map Kind.describe)).toList ++ [']'] =
      kind.describe.toList ++ otherKinds kinds := by
  induction kinds generalizing kind with
  | nil => simp [otherKinds]
  | cons next kinds ih =>
    rw [List.map_cons, List.map_cons, String.intercalate_cons_cons, String.toList_append,
      String.toList_append, List.append_assoc, ← List.map_cons, ih]
    simp [otherKinds]

lemma toList_listKinds_cons (kind : Kind) (kinds : List Kind) :
    (listKinds (kind :: kinds)).toList = '[' :: (kind.describe.toList ++ otherKinds kinds) := by
  rw [← toList_intercalate_cons, listKinds]
  simp

lemma exists_toList_listKinds (kinds : List Kind) : ∃ s, (listKinds kinds).toList = '[' :: s := by
  cases kinds with
  | nil => exact ⟨[']'], by decide⟩
  | cons kind kinds => exact ⟨_, toList_listKinds_cons kind kinds⟩

lemma isPrefixCode_otherKinds : IsPrefixCode otherKinds :=
  (Kind.isPrefixCode_describe.behind [',', ' ']).many fun _ => ⟨_, _, rfl, by decide⟩

/-- A list of kinds can be told apart from what follows it. -/
lemma isPrefixCode_listKinds : IsPrefixCode fun kinds : List Kind => (listKinds kinds).toList := by
  have hnil : (listKinds []).toList = ['[', ']'] := by decide
  have hne : ∀ kind kinds s t,
      (listKinds []).toList ++ s ≠ (listKinds (kind :: kinds)).toList ++ t := by
    intro kind kinds s t heq
    obtain ⟨c, name, hname, hc⟩ := (Kind.name_describe kind).exists_cons
    rw [hnil, toList_listKinds_cons, hname] at heq
    exact hc (List.cons.inj (List.cons.inj heq).2).1.symm
  intro kinds others s t heq
  dsimp only at heq
  cases kinds with
  | nil =>
    cases others with
    | nil => exact ⟨rfl, List.append_cancel_left heq⟩
    | cons other others => exact absurd heq (hne other others s t)
  | cons kind kinds =>
    cases others with
    | nil => exact absurd heq.symm (hne kind kinds t s)
    | cons other others =>
      rw [toList_listKinds_cons, toList_listKinds_cons] at heq
      have hrest : (kind, kinds) = (other, others) ∧ s = t :=
        Kind.isPrefixCode_describe.pair isPrefixCode_otherKinds (List.cons.inj heq).2
      exact ⟨(List.cons_eq_cons.2 (Prod.mk.inj hrest.1)), hrest.2⟩

/-! ## Messages -/

/-- What a message says was found: a text, or the end. -/
def foundText : Option String → List Char
  | some found => (Text.quoted found).toList
  | none => 'e' :: "nd of input".toList

/-- What a message says was expected: kinds, after which it shows what was found, or an operand. -/
def expectation : Option (List Kind × Option String) → List Char
  | some (expected, found) =>
    (listKinds expected).toList ++ (", found ".toList ++ foundText found)
  | none => 'n' :: "umber or identifier".toList

/-- How a fault is worded. -/
inductive Wording : Fault → List Char → Prop where
  | unrecognised (text : String) :
      Wording (.unrecognised text)
        ('u' :: ("nrecognised token: ".toList ++ (Text.quoted text).toList))
  | unexpected (expected : List Kind) (found : String) :
      Wording (.unexpected expected found)
        ('e' :: 'x' :: ("pected ".toList ++ expectation (some (expected, some found))))
  | unexpectedEnd (expected : List Kind) :
      Wording (.unexpectedEnd expected)
        ('e' :: 'x' :: ("pected ".toList ++ expectation (some (expected, none))))
  | expectedOperand :
      Wording .expectedOperand ('e' :: 'x' :: ("pected ".toList ++ expectation none))
  | malformedNumber (text : String) :
      Wording (.malformedNumber text)
        ('e' :: 'r' :: ("ror parsing number: ".toList ++ (Text.quoted text).toList))

lemma toList_append_of_toList {front back : String} {first rest : List Char}
    (h : front.toList = first ++ rest) :
    (front ++ back).toList = first ++ (rest ++ back.toList) := by
  rw [String.toList_append, h, List.append_assoc]

lemma wording_message (fault : Fault) : Wording fault fault.message.toList := by
  have hexpected : "expected ".toList = ['e', 'x'] ++ "pected ".toList := by decide +kernel
  cases fault with
  | unrecognised text =>
    have hwords : "unrecognised token: ".toList = ['u'] ++ "nrecognised token: ".toList := by
      decide +kernel
    change Wording _ ("unrecognised token: " ++ Text.quoted text).toList
    rw [toList_append_of_toList hwords]
    exact .unrecognised text
  | unexpected expected found =>
    change Wording _ ("expected " ++ listKinds expected ++ ", found " ++ Text.quoted found).toList
    rw [String.append_assoc, String.append_assoc, toList_append_of_toList hexpected,
      String.toList_append, String.toList_append]
    exact .unexpected expected found
  | unexpectedEnd expected =>
    have hwords : ", found end of input".toList =
        ", found ".toList ++ 'e' :: "nd of input".toList := by
      decide +kernel
    change Wording _ ("expected " ++ listKinds expected ++ ", found end of input").toList
    rw [String.append_assoc, toList_append_of_toList hexpected, String.toList_append, hwords]
    exact .unexpectedEnd expected
  | expectedOperand =>
    have hwords : "expected number or identifier".toList =
        'e' :: 'x' :: ("pected ".toList ++ 'n' :: "umber or identifier".toList) := by
      decide +kernel
    change Wording _ "expected number or identifier".toList
    rw [hwords]
    exact .expectedOperand
  | malformedNumber text =>
    have hwords : "error parsing number: ".toList =
        ['e', 'r'] ++ "ror parsing number: ".toList := by
      decide +kernel
    change Wording _ ("error parsing number: " ++ Text.quoted text).toList
    rw [toList_append_of_toList hwords]
    exact .malformedNumber text

lemma isPrefixCode_foundText : IsPrefixCode foundText := by
  have hquote : ∀ found : String, ∃ s, (Text.quoted found).toList = '"' :: s := fun found =>
    ⟨_, by rw [Text.quoted, String.toList_ofList]; rfl⟩
  intro found other s t heq
  cases found with
  | some found =>
    cases other with
    | some other =>
      obtain ⟨rfl, rfl⟩ := Text.isPrefixCode_quoted heq
      exact ⟨rfl, rfl⟩
    | none =>
      obtain ⟨more, hmore⟩ := hquote found
      rw [foundText, foundText, hmore] at heq
      exact absurd (List.cons.inj heq).1 (by decide)
  | none =>
    cases other with
    | some other =>
      obtain ⟨more, hmore⟩ := hquote other
      rw [foundText, foundText, hmore] at heq
      exact absurd (List.cons.inj heq).1 (by decide)
    | none => exact ⟨rfl, List.append_cancel_left heq⟩

lemma isPrefixCode_expectation : IsPrefixCode expectation := by
  have hkinds := isPrefixCode_listKinds.pair (isPrefixCode_foundText.behind ", found ".toList)
  have hne : ∀ missing s t, expectation (some missing) ++ s ≠ expectation none ++ t := by
    rintro ⟨expected, found⟩ s t heq
    obtain ⟨list, hlist⟩ := exists_toList_listKinds expected
    rw [expectation, expectation, hlist] at heq
    exact absurd (List.cons.inj heq).1 (by decide)
  intro wanted other s t heq
  cases wanted with
  | some missing =>
    cases other with
    | some other =>
      obtain ⟨rfl, rfl⟩ := hkinds heq
      exact ⟨rfl, rfl⟩
    | none => exact absurd heq (hne missing s t)
  | none =>
    cases other with
    | some other => exact absurd heq.symm (hne other t s)
    | none => exact ⟨rfl, List.append_cancel_left heq⟩

lemma Wording.eq_of_append {fault other : Fault} {text more s t : List Char}
    (h : Wording fault text) (hother : Wording other more) (heq : text ++ s = more ++ t) :
    fault = other ∧ s = t := by
  have hquoted := Text.isPrefixCode_quoted
  have hexpectation := isPrefixCode_expectation.behind "pected ".toList
  -- the first two letters leave only what is expected to be compared
  cases h with
  | unrecognised text =>
    cases hother with
    | unrecognised more =>
      obtain ⟨rfl, rfl⟩ := hquoted.behind _ (List.cons.inj heq).2
      exact ⟨rfl, rfl⟩
    | _ => exact absurd (List.cons.inj heq).1 (by decide)
  | malformedNumber text =>
    cases hother with
    | malformedNumber more =>
      obtain ⟨rfl, rfl⟩ := hquoted.behind _ (List.cons.inj (List.cons.inj heq).2).2
      exact ⟨rfl, rfl⟩
    | unrecognised => exact absurd (List.cons.inj heq).1 (by decide)
    | _ => exact absurd (List.cons.inj (List.cons.inj heq).2).1 (by decide)
  | unexpected | unexpectedEnd | expectedOperand =>
    cases hother with
    | unrecognised => exact absurd (List.cons.inj heq).1 (by decide)
    | malformedNumber => exact absurd (List.cons.inj (List.cons.inj heq).2).1 (by decide)
    | _ => simpa using hexpectation (List.cons.inj (List.cons.inj heq).2).2

/-- A message can be told apart from what follows it, whatever the fault. -/
theorem isPrefixCode_message : IsPrefixCode fun fault : Fault => fault.message.toList :=
  fun fault other _ _ => (wording_message fault).eq_of_append (wording_message other)

end Fault

/-! ## Failures -/

namespace Failure

/-- The line of a failure as it stands behind the message. -/
def lineText : Option LineNumber → List Char
  | some line => '\n' :: (" line: ".toList ++ Text.decimalDigits line.toNat)
  | none => []

lemma lineText_injective : Function.Injective lineText := by
  intro line other heq
  cases line with
  | none =>
    cases other with
    | none => rfl
    | some other => exact absurd heq (List.cons_ne_nil _ _).symm
  | some line =>
    cases other with
    | none => exact absurd heq (List.cons_ne_nil _ _)
    | some other =>
      have hdigits := congrArg (Nat.ofDigitChars 10 · 0)
        (List.append_cancel_left (List.cons.inj heq).2)
      simp only [Text.decimalDigits, Nat.ofDigitChars_ten_toDigits] at hdigits
      rw [UInt32.toNat_inj.1 hdigits]

lemma toList_display (failure : Failure) :
    failure.display.toList = failure.fault.message.toList ++ lineText failure.line := by
  obtain ⟨fault, _ | line⟩ := failure
  · exact (List.append_nil _).symm
  · have hwords : "\n line: ".toList = '\n' :: " line: ".toList := by decide +kernel
    change (fault.message ++ "\n line: " ++
      String.ofList (Text.decimalDigits line.toNat)).toList = _
    have hnumber : (String.ofList (Text.decimalDigits line.toNat)).toList =
        Text.decimalDigits line.toNat :=
      String.toList_ofList
    rw [String.toList_append, String.toList_append, hwords, hnumber, List.append_assoc]
    rfl

/-- Two messages are the same just if the faults are, and each is one line.  Two failures are shown
in the same way just if they are the same. -/
theorem wording_faithful (failure other : Failure) :
    (failure.fault.message = other.fault.message ↔ failure.fault = other.fault) ∧
      OneLine failure.fault.message ∧
      (failure.display = other.display ↔ failure = other) := by
  refine ⟨⟨fun h => ?_, congrArg _⟩, failure.fault.oneLine_message, fun h => ?_, congrArg _⟩
  · exact Fault.isPrefixCode_message.injective (congrArg String.toList h)
  · have hlists := congrArg String.toList h
    rw [toList_display, toList_display] at hlists
    obtain ⟨hfault, hline⟩ := Fault.isPrefixCode_message hlists
    obtain ⟨fault, line⟩ := failure
    obtain rfl : fault = other.fault := hfault
    obtain rfl : line = other.line := lineText_injective hline
    rfl

end Failure

end ImpSyntax
