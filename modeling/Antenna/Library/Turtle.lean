import Antenna.Library.Text

/-! Turtle statements about one subject: the tokens a statement is written with, the triples they
denote, and the reading of text into tokens. Nested property lists and collections are left out. -/

namespace Turtle

def rdfType : Text := "http://www.w3.org/1999/02/22-rdf-syntax-ns#type".toList

def xsd (datatype : String) : Text :=
  "http://www.w3.org/2001/XMLSchema#".toList ++ datatype.toList

def isSpace (c : Char) : Bool := c ∈ [' ', '\t', '\r', '\n']

theorem isWhitespace_of_isSpace {c : Char} (space : isSpace c = true) : Text.isWhitespace c = true := by
  simp only [isSpace, List.mem_cons, List.not_mem_nil, or_false, decide_eq_true_eq] at space
  rcases space with rfl | rfl | rfl | rfl <;> rfl

section Characters

def inRanges (ranges : List (Nat × Nat)) (c : Char) : Bool :=
  ranges.any fun range => range.1 ≤ c.toNat && c.toNat ≤ range.2

/-- `PN_CHARS_BASE` -/
def isLetter (c : Char) : Bool :=
  inRanges [(0x41, 0x5A), (0x61, 0x7A), (0xC0, 0xD6), (0xD8, 0xF6), (0xF8, 0x2FF), (0x370, 0x37D),
    (0x37F, 0x1FFF), (0x200C, 0x200D), (0x2070, 0x218F), (0x2C00, 0x2FEF), (0x3001, 0xD7FF),
    (0xF900, 0xFDCF), (0xFDF0, 0xFFFD), (0x10000, 0xEFFFF)] c

/-- `PN_CHARS` -/
def isNameChar (c : Char) : Bool :=
  isLetter c || c == '_' || c == '-' || c.isDigit ||
    inRanges [(0xB7, 0xB7), (0x300, 0x36F), (0x203F, 0x2040)] c

def isIriChar (c : Char) : Bool := 0x20 < c.toNat && c ∉ "<>\"\x7b\x7d|^\x60\\".toList

def hexValue (c : Char) : Option Nat :=
  if c.isDigit then some (c.toNat - 0x30)
  else if 'A' ≤ c ∧ c ≤ 'F' then some (c.toNat - 0x41 + 10)
  else if 'a' ≤ c ∧ c ≤ 'f' then some (c.toNat - 0x61 + 10)
  else none

theorem hexValues_known {digits : Text} {values : List Nat}
    (mapped : digits.mapM hexValue = some values) : ∀ c ∈ digits, (hexValue c).isSome = true := by
  induction digits generalizing values with
  | nil => simp
  | cons digit digits ih =>
      rw [List.mapM_cons] at mapped
      obtain ⟨value, read, mapped⟩ := Option.bind_eq_some_iff.mp mapped
      obtain ⟨others, later, -⟩ := Option.bind_eq_some_iff.mp mapped
      intro c member
      rcases List.mem_cons.mp member with rfl | behind
      · rw [read]
        rfl
      · exact ih later c behind

/-- The character with the given hexadecimal code point, unless that is no Unicode scalar. -/
def charOfHex (digits : Text) : Option Char := do
  let values ← digits.mapM hexValue
  let code := values.foldl (fun code value => 16 * code + value) 0
  if code < 0xD800 ∨ (0xDFFF < code ∧ code < 0x110000) then some (Char.ofNat code) else none

end Characters

section Escapes

/-- `ECHAR`: the character a backslash and `c` stand for in a string literal. -/
def escapedChar (c : Char) : Option Char :=
  match c with
  | 't' => some '\t'
  | 'b' => some (Char.ofNat 8)
  | 'n' => some '\n'
  | 'r' => some '\r'
  | 'f' => some (Char.ofNat 12)
  | '"' => some '"'
  | '\\' => some '\\'
  | other => if other.toNat = 39 then some other else none

/-- The text a string literal denotes. -/
def unescape : Text → Option Text
  | [] => some []
  | '\\' :: 'u' :: a :: b :: c :: d :: rest =>
      (charOfHex [a, b, c, d]).bind fun char => (unescape rest).map (char :: ·)
  | '\\' :: 'U' :: a :: b :: c :: d :: e :: f :: g :: h :: rest =>
      (charOfHex [a, b, c, d, e, f, g, h]).bind fun char => (unescape rest).map (char :: ·)
  | ['\\'] => none
  | '\\' :: c :: rest => (escapedChar c).bind fun char => (unescape rest).map (char :: ·)
  | c :: rest => (unescape rest).map (c :: ·)

def iriChar (c : Char) : Option Char := if isIriChar c then some c else none

/-- The IRI that stands between angle brackets. -/
def unescapeIri : Text → Option Text
  | [] => some []
  | '\\' :: 'u' :: a :: b :: c :: d :: rest =>
      ((charOfHex [a, b, c, d]).bind iriChar).bind fun char => (unescapeIri rest).map (char :: ·)
  | '\\' :: 'U' :: a :: b :: c :: d :: e :: f :: g :: h :: rest =>
      ((charOfHex [a, b, c, d, e, f, g, h]).bind iriChar).bind fun char =>
        (unescapeIri rest).map (char :: ·)
  | c :: rest => (iriChar c).bind fun char => (unescapeIri rest).map (char :: ·)

def isLocalEscape (c : Char) : Bool := c ∈ Char.ofNat 39 :: "_~.-!$&()*+,;=/?#@%".toList

/-- The characters of a local name behind its first one. A last dot ends the statement instead. -/
def unescapeLocal : Text → Option Text
  | [] => some []
  | ['.'] => none
  | '\\' :: c :: rest => if isLocalEscape c then (unescapeLocal rest).map (c :: ·) else none
  | '%' :: a :: b :: rest =>
      if (hexValue a).isSome && (hexValue b).isSome then
        (unescapeLocal rest).map ('%' :: a :: b :: ·)
      else none
  | c :: rest =>
      if isNameChar c || c == ':' || c == '.' then (unescapeLocal rest).map (c :: ·) else none

theorem unescape_plain {c : Char} (plain : c ≠ '\\') (rest : Text) :
    unescape (c :: rest) = (unescape rest).map (c :: ·) := by
  rw [unescape]
  · rintro a b d e f rfl
    exact absurd rfl plain
  · rintro a b d e f g h i j rfl
    exact absurd rfl plain
  · rintro rfl
    exact absurd rfl plain
  · rintro a b rfl
    exact absurd rfl plain

/-- An IRI without escapes denotes itself. -/
theorem unescapeIri_plain {raw value : Text} (plain : '\\' ∉ raw)
    (denotes : unescapeIri raw = some value) :
    value = raw ∧ ∀ c ∈ raw, isIriChar c = true := by
  induction raw generalizing value with
  | nil =>
      cases denotes
      simp
  | cons c rest ih =>
      have head : c ≠ '\\' := by
        rintro rfl
        simp at plain
      rw [unescapeIri] at denotes
      · simp only [Option.bind_eq_some_iff, Option.map_eq_some_iff] at denotes
        obtain ⟨char, valid, more, later, rfl⟩ := denotes
        obtain ⟨rfl, others⟩ := ih (fun member => plain (List.mem_cons_of_mem c member)) later
        unfold iriChar at valid
        split at valid
        · rename_i allowed
          cases valid
          exact ⟨rfl, by simpa [allowed] using others⟩
        · contradiction
      · rintro a b d e f rfl
        exact absurd rfl head
      · rintro a b d e f g h i j rfl
        exact absurd rfl head

def isLocalChar (c : Char) : Bool :=
  isNameChar c || c == ':' || c == '.' || c == '%' || (hexValue c).isSome

/-- A local name without backslashes denotes itself. -/
theorem unescapeLocal_plain {raw value : Text} (plain : '\\' ∉ raw)
    (denotes : unescapeLocal raw = some value) :
    value = raw ∧ ∀ c ∈ raw, isLocalChar c = true := by
  fun_induction unescapeLocal raw generalizing value with
  | case1 =>
      cases denotes
      simp
  | case2 => contradiction
  | case3 c rest => simp at plain
  | case4 c rest => simp at plain
  | case5 a b rest hex ih =>
      simp only [Option.map_eq_some_iff] at denotes
      obtain ⟨more, later, rfl⟩ := denotes
      obtain ⟨rfl, others⟩ := ih (by simp_all) later
      simp only [Bool.and_eq_true] at hex
      refine ⟨rfl, ?_⟩
      intro c member
      simp only [List.mem_cons] at member
      rcases member with rfl | rfl | rfl | member
      · rfl
      · simp [isLocalChar, hex.1]
      · simp [isLocalChar, hex.2]
      · exact others c member
  | case6 => contradiction
  | case7 c rest _ _ _ allowed ih =>
      simp only [Option.map_eq_some_iff] at denotes
      obtain ⟨more, later, rfl⟩ := denotes
      obtain ⟨rfl, others⟩ := ih (fun member => plain (List.mem_cons_of_mem c member)) later
      refine ⟨rfl, ?_⟩
      intro d member
      rcases List.mem_cons.mp member with rfl | member
      · simp only [Bool.or_eq_true] at allowed
        simp only [isLocalChar, Bool.or_eq_true]
        tauto
      · exact others d member
  | case8 => contradiction

def startsLocal : Text → Bool
  | [] => true
  | c :: _ => isLetter c || c == '_' || c == ':' || c.isDigit || c == '%' || c == '\\'

end Escapes

inductive Name where
  | iriRef (raw : Text)
  | prefixed (label localName : Text)
deriving Repr, DecidableEq

/-- The four ways to quote a string; the long ones may hold line breaks. -/
inductive Quote where
  | single
  | double
  | longSingle
  | longDouble
deriving Repr, DecidableEq

inductive Suffix where
  | plain
  | language (tag : Text)
  | typed (datatype : Name)
deriving Repr, DecidableEq

inductive Token where
  | name (name : Name)
  | isA
  | blankLabel (label : Text)
  | anonymous
  | literal (quote : Quote) (raw : Text) (suffix : Suffix)
  | bare (raw : Text)
  | semicolon
  | comma
  | dot
deriving Repr, DecidableEq

section Writing

def Name.text : Name → Text
  | .iriRef raw => '<' :: raw ++ ['>']
  | .prefixed label localName => label ++ ':' :: localName

def Quote.text : Quote → Text
  | .single => [Char.ofNat 39]
  | .double => ['"']
  | .longSingle => List.replicate 3 (Char.ofNat 39)
  | .longDouble => List.replicate 3 '"'

def Suffix.text : Suffix → Text
  | .plain => []
  | .language tag => '@' :: tag
  | .typed datatype => '^' :: '^' :: datatype.text

def Token.text : Token → Text
  | .name written => written.text
  | .isA => ['a']
  | .blankLabel label => '_' :: ':' :: label
  | .anonymous => ['[', ']']
  | .literal quote raw suffix => quote.text ++ raw ++ quote.text ++ suffix.text
  | .bare raw => raw
  | .semicolon => [';']
  | .comma => [',']
  | .dot => ['.']

/-- A token with the white space behind it. -/
abbrev Written := Token × Text

def render (written : List Written) : Text := written.flatMap fun part => part.1.text ++ part.2

@[simp] theorem render_nil : render [] = [] := rfl

@[simp] theorem render_cons (token : Token) (gap : Text) (rest : List Written) :
    render ((token, gap) :: rest) = token.text ++ gap ++ render rest := rfl

@[simp] theorem render_append (front back : List Written) :
    render (front ++ back) = render front ++ render back := List.flatMap_append

end Writing

section Meaning

inductive LiteralKind where
  | string
  | language (tag : Text)
  | typed (datatype : Text)
deriving Repr, DecidableEq

/-- `anonymous` terms are numbered in the order in which they are written. -/
inductive Term where
  | iri (value : Text)
  | blank (label : Text)
  | anonymous (index : Nat)
  | literal (value : Text) (kind : LiteralKind)
deriving Repr, DecidableEq

abbrev Prefixes := Text → Option Text

def Name.iri (prefixes : Prefixes) : Name → Option Text
  | .iriRef raw => unescapeIri raw
  | .prefixed label localName =>
      (prefixes label).bind fun space =>
        if startsLocal localName then (unescapeLocal localName).map (space ++ ·) else none

def Quote.allows (quote : Quote) (raw : Text) : Bool :=
  match quote with
  | .single | .double => '\n' ∉ raw && '\r' ∉ raw
  | .longSingle | .longDouble => true

def Suffix.kind (prefixes : Prefixes) : Suffix → Option LiteralKind
  | .plain => some .string
  | .language tag => some (.language tag)
  | .typed datatype => (datatype.iri prefixes).map .typed

def dropSign : Text → Text
  | '+' :: rest => rest
  | '-' :: rest => rest
  | text => text

def isDigits (text : Text) : Bool := !text.isEmpty && text.all Char.isDigit

def isDecimal (text : Text) : Bool :=
  match Text.splitOnce '.' text with
  | none => false
  | some (whole, fraction) => whole.all Char.isDigit && isDigits fraction

def isMantissa (text : Text) : Bool :=
  isDigits text || isDecimal text ||
    match Text.splitOnce '.' text with
    | none => false
    | some (whole, fraction) => isDigits whole && fraction.isEmpty

def isDouble (text : Text) : Bool :=
  isMantissa (text.takeWhile (· ∉ ['e', 'E'])) &&
    isDigits (dropSign ((text.dropWhile (· ∉ ['e', 'E'])).drop 1))

/-- A boolean or a number written without quotes. -/
def bareKind (raw : Text) : Option LiteralKind :=
  if raw = "true".toList ∨ raw = "false".toList then some (.typed (xsd "boolean"))
  else if isDigits (dropSign raw) then some (.typed (xsd "integer"))
  else if isDecimal (dropSign raw) then some (.typed (xsd "decimal"))
  else if isDouble (dropSign raw) then some (.typed (xsd "double"))
  else none

/-- The term a token denotes where `index` anonymous nodes stand before it. -/
def Token.term (prefixes : Prefixes) (index : Nat) : Token → Option Term
  | .name written => (written.iri prefixes).map .iri
  | .blankLabel label => some (.blank label)
  | .anonymous => some (.anonymous index)
  | .literal quote raw suffix =>
      if quote.allows raw then
        (unescape raw).bind fun value => (suffix.kind prefixes).map (.literal value)
      else none
  | .bare raw => (bareKind raw).map (.literal raw)
  | _ => none

/-- What the grammar expects next. -/
inductive Phase where
  | subject
  | verb
  | nextVerb
  | object (predicate : Text)
  | afterObject (predicate : Text)
  | finished
deriving Repr, DecidableEq

structure Statement where
  subject : Term
  facts : List (Text × Term)
deriving Repr, DecidableEq

structure Parse where
  phase : Phase
  anonymous : Nat
  statement : Statement
deriving Repr, DecidableEq

def Parse.start : Parse :=
  { phase := .subject, anonymous := 0, statement := { subject := .anonymous 0, facts := [] } }

def Token.anonymousCount : Token → Nat
  | .anonymous => 1
  | _ => 0

def verb (prefixes : Prefixes) : Token → Option Text
  | .isA => some rdfType
  | .name written => written.iri prefixes
  | _ => none

def isSubject : Token → Bool
  | .name _ | .blankLabel _ | .anonymous => true
  | _ => false

/-- One token of `subject verb object (, object)* (; verb object (, object)*)* .` -/
def Parse.step (prefixes : Prefixes) (parse : Parse) (token : Token) : Option Parse :=
  match parse.phase with
  | .subject =>
      if isSubject token then
        (token.term prefixes parse.anonymous).map fun subject =>
          { phase := .verb, anonymous := parse.anonymous + token.anonymousCount,
            statement := { subject, facts := [] } }
      else none
  | .verb => (verb prefixes token).map fun predicate => { parse with phase := .object predicate }
  | .nextVerb =>
      match token with
      | .semicolon => some parse
      | .dot => some { parse with phase := .finished }
      | _ => (verb prefixes token).map fun predicate => { parse with phase := .object predicate }
  | .object predicate =>
      (token.term prefixes parse.anonymous).map fun object =>
        { phase := .afterObject predicate,
          anonymous := parse.anonymous + token.anonymousCount,
          statement := { parse.statement with
            facts := parse.statement.facts ++ [(predicate, object)] } }
  | .afterObject predicate =>
      match token with
      | .comma => some { parse with phase := .object predicate }
      | .semicolon => some { parse with phase := .nextVerb }
      | .dot => some { parse with phase := .finished }
      | _ => none
  | .finished => none

def Parse.steps (prefixes : Prefixes) (parse : Parse) (tokens : List Token) : Option Parse :=
  tokens.foldlM (Parse.step prefixes) parse

/-- The statement that a whole token list is, if it is exactly one. -/
def statement (prefixes : Prefixes) (tokens : List Token) : Option Statement :=
  (Parse.start.steps prefixes tokens).bind fun parse =>
    if parse.phase = .finished then some parse.statement else none

def Statement.HasType (statement : Statement) (type : Text) : Prop :=
  (rdfType, Term.iri type) ∈ statement.facts

instance (statement : Statement) (type : Text) : Decidable (statement.HasType type) :=
  inferInstanceAs (Decidable (_ ∈ _))

@[simp] theorem Parse.steps_nil (prefixes : Prefixes) (parse : Parse) :
    parse.steps prefixes [] = some parse := rfl

@[simp] theorem Parse.steps_cons (prefixes : Prefixes) (parse : Parse) (token : Token)
    (tokens : List Token) :
    parse.steps prefixes (token :: tokens) =
      (parse.step prefixes token).bind fun next => next.steps prefixes tokens := rfl

theorem Parse.steps_append (prefixes : Prefixes) (parse : Parse) (front back : List Token) :
    parse.steps prefixes (front ++ back) =
      (parse.steps prefixes front).bind fun next => next.steps prefixes back :=
  List.foldlM_append

/-- Behind the subject a token only adds facts. -/
theorem Parse.step_facts {prefixes : Prefixes} {parse next : Parse} {token : Token}
    (past : parse.phase ≠ .subject) (stepped : parse.step prefixes token = some next) :
    next.phase ≠ .subject ∧ next.statement.subject = parse.statement.subject ∧
      parse.statement.facts <+: next.statement.facts := by
  unfold Parse.step at stepped
  split at stepped
  · contradiction
  · simp only [Option.map_eq_some_iff] at stepped
    obtain ⟨predicate, -, rfl⟩ := stepped
    simp
  · split at stepped
    · cases stepped
      exact ⟨past, rfl, List.prefix_rfl⟩
    · cases stepped
      simp
    · simp only [Option.map_eq_some_iff] at stepped
      obtain ⟨predicate, -, rfl⟩ := stepped
      simp
  · simp only [Option.map_eq_some_iff] at stepped
    obtain ⟨object, -, rfl⟩ := stepped
    simp
  · split at stepped <;> cases stepped <;> simp
  · contradiction

theorem Parse.steps_facts {prefixes : Prefixes} {tokens : List Token} {parse next : Parse}
    (past : parse.phase ≠ .subject) (stepped : parse.steps prefixes tokens = some next) :
    parse.statement.facts <+: next.statement.facts := by
  induction tokens generalizing parse with
  | nil =>
      cases stepped
      exact List.prefix_rfl
  | cons token tokens ih =>
      rw [Parse.steps_cons, Option.bind_eq_some_iff] at stepped
      obtain ⟨middle, first, others⟩ := stepped
      obtain ⟨later, -, grows⟩ := Parse.step_facts past first
      exact grows.trans (ih later others)

theorem Parse.step_isA {prefixes : Prefixes} {parse next : Parse}
    (stepped : parse.step prefixes .isA = some next) : next.phase = .object rdfType := by
  unfold Parse.step at stepped
  split at stepped
  · simp [isSubject] at stepped
  · simp only [verb, Option.map_some, Option.some.injEq] at stepped
    rw [← stepped]
  · simp only [verb, Option.map_some, Option.some.injEq] at stepped
    rw [← stepped]
  · simp [Token.term] at stepped
  · simp at stepped
  · contradiction

/-- Behind an object the statement goes on with a comma, a semicolon or its dot. -/
theorem Parse.next_of_afterObject {prefixes : Prefixes} {parse final : Parse} {predicate : Text}
    {tokens : List Token} (phase : parse.phase = .afterObject predicate)
    (rest : parse.steps prefixes tokens = some final) (ended : final.phase = .finished) :
    ∃ token ∈ tokens.head?, token = .comma ∨ token = .semicolon ∨ token = .dot := by
  cases tokens with
  | nil =>
      cases rest
      rw [phase] at ended
      contradiction
  | cons token tokens =>
      rw [Parse.steps_cons, Option.bind_eq_some_iff] at rest
      obtain ⟨next, stepped, -⟩ := rest
      refine ⟨token, rfl, ?_⟩
      simp only [Parse.step, phase] at stepped
      split at stepped <;> simp_all

/-- A type verb and the name behind it are a triple of the statement. -/
theorem own_type {prefixes : Prefixes} {front back : List Token} {name : Name}
    {result : Statement}
    (read : statement prefixes (front ++ .isA :: .name name :: back) = some result) :
    ∃ type, name.iri prefixes = some type ∧ result.HasType type ∧
      ∃ token ∈ back.head?, token = .comma ∨ token = .semicolon ∨ token = .dot := by
  simp only [statement, Parse.steps_append, Parse.steps_cons, Option.bind_eq_some_iff] at read
  obtain ⟨final, ⟨before, -, atVerb, verbStep, atObject, objectStep, rest⟩, ended⟩ := read
  simp only [Parse.step, Parse.step_isA verbStep, Token.term, Option.map_map,
    Option.map_eq_some_iff] at objectStep
  obtain ⟨type, names, rfl⟩ := objectStep
  split at ended
  · rename_i finished
    cases ended
    refine ⟨type, names, (Parse.steps_facts (by simp) rest).subset (by simp), ?_⟩
    exact Parse.next_of_afterObject rfl rest finished
  · contradiction

end Meaning

end Turtle
