import Antenna.CarrierEvents
import Antenna.EscapeChecks
import Antenna.Library.TurtleQuoting
import Antenna.RoutingChecks
import Mathlib.Tactic.IntervalCases

/-!
The line of an event as Turtle tokens: each predicate with its value is a readable entry that adds
one fact to the statement.
-/

namespace LeanAntenna

open Text Turtle

/-- A predicate as it is written on an event's line, and the object it denotes. -/
structure Entry where
  name : Text
  token : Token
  term : Term

def Entry.text (entry : Entry) : Text :=
  " ; carrier:".toList ++ entry.name ++ ' ' :: entry.token.text

def carrierName (name : Text) : Token := .name (.prefixed "carrier".toList name)

def Entry.written (entry : Entry) : List Written :=
  [(.semicolon, [' ']), (carrierName entry.name, [' ']), (entry.token, [' '])]

def Entry.fact (entry : Entry) : Text × Term := (carrierNs ++ entry.name, entry.term)

def Entry.property (entry : Entry) : Property where
  verb := .prefixed "carrier".toList entry.name
  object := entry.token
  predicate := carrierNs ++ entry.name
  term := entry.term

def quotedToken (value : Text) : Token := .literal .double (eventEscape value) .plain

def quotedEntry (name value : Text) : Entry :=
  { name, token := quotedToken value, term := .literal value .string }

/-- The literal that denotes a decoded value. -/
def FieldValue.term : FieldValue → Term
  | .text value => .literal value .string
  | .integer value => .literal (decimal value) (.typed (xsd "integer"))

def FieldValue.token : FieldValue → Token
  | .text value => quotedToken value
  | .integer value => .bare (decimal value)

def Field.entry (field : Field) : Entry :=
  { name := field.name, token := field.value.token, term := field.value.term }

def dateTimeToken (timestamp : Int64) : Token :=
  .literal .double (formatTimestamp timestamp) (.typed (.prefixed "xsd".toList "dateTime".toList))

def timestampEntry (timestamp : Int64) : Entry :=
  { name := "at".toList
    token := dateTimeToken timestamp
    term := .literal (formatTimestamp timestamp) (.typed (xsd "dateTime")) }

def CarrierEvent.account (event : CarrierEvent) : Text := cstrFromBuf event.accountId

def CarrierEvent.accountEntries (event : CarrierEvent) : List Entry :=
  if event.account = [] then [] else [quotedEntry "account".toList event.account]

def CarrierEvent.entries (event : CarrierEvent) : List Entry :=
  event.accountEntries ++ (event.data.fields.filter Field.present).map Field.entry ++
    [timestampEntry event.timestamp]

def CarrierEvent.written (event : CarrierEvent) : List Written :=
  [(.anonymous, [' ']), (.isA, [' ']), (carrierName event.data.type.className, [' '])] ++
    event.entries.flatMap Entry.written ++ [(.dot, [])]

section Rendering

theorem quotedField_eq (name value : Text) :
    quotedField name value = Entry.text (quotedEntry name value) := by
  unfold quotedField Entry.text quotedEntry quotedToken
  rw [Token.text, Quote.text, Suffix.text, List.append_nil]
  simp only [List.append_assoc]
  rfl

theorem field_text (field : Field) : field.text = Entry.text field.entry := by
  obtain ⟨name, value, present⟩ := field
  cases value with
  | text value => exact quotedField_eq name value
  | integer value => rfl

theorem timestampText_eq (timestamp : Int64) :
    timestampText timestamp = Entry.text (timestampEntry timestamp) := by
  unfold timestampText Entry.text timestampEntry dateTimeToken
  rw [Token.text, Quote.text, Suffix.text, Name.text]
  simp only [List.append_assoc]
  rfl

theorem header_eq (event : CarrierEvent) :
    header event.data.type.className event.accountId =
      "[] a carrier:".toList ++ event.data.type.className ++
        event.accountEntries.flatMap Entry.text := by
  unfold header CarrierEvent.accountEntries CarrierEvent.account
  by_cases empty : cstrFromBuf event.accountId = []
  · simp only [empty, if_true, List.flatMap_nil]
  · simp only [empty, if_false, List.flatMap_singleton, quotedField_eq]

theorem eventToTurtle_eq (event : CarrierEvent) :
    eventToTurtle event = "[] a carrier:".toList ++ (event.data.type.className ++
      (event.entries.flatMap Entry.text ++ " .".toList)) := by
  have fields : (event.data.fields.filter Field.present).flatMap Field.text =
      ((event.data.fields.filter Field.present).map Field.entry).flatMap Entry.text := by
    rw [List.flatMap_map]
    congr 1
    funext field
    exact field_text field
  unfold eventToTurtle
  rw [header_eq, fields, timestampText_eq, CarrierEvent.entries, List.flatMap_append,
    List.flatMap_append, List.flatMap_singleton]
  simp only [List.append_assoc]

theorem written_describe (event : CarrierEvent) :
    event.written = describeWritten (.prefixed "carrier".toList event.data.type.className)
      (event.entries.map Entry.property) := by
  rw [describeWritten, List.flatMap_map, CarrierEvent.written, List.append_assoc]
  rfl

theorem render_written (event : CarrierEvent) : render event.written = eventToTurtle event := by
  have texts : (event.entries.map Entry.property).flatMap Property.text =
      event.entries.flatMap Entry.text := by
    rw [List.flatMap_map]
    rfl
  rw [written_describe, render_describe]
  unfold describe
  simp only [texts, eventToTurtle_eq, Name.text, List.append_assoc]
  rfl

end Rendering

/-- A value that can stand on an event's line: it is read back, holds no line break and denotes
`term`. -/
structure Writes (token : Token) (term : Term) : Prop where
  readable : token.Readable
  oneLine : ∀ c ∈ token.text, c ∉ ['\n', '\r']
  denotes : ∀ index, token.term storePrefixes index = some term
  constant : token.anonymousCount = 0

section Values

theorem eventEscape_oneLine (text : Text) : ∀ c ∈ eventEscape text, c ∉ ['\n', '\r'] := by
  induction text with
  | nil => simp
  | cons d text ih =>
      intro c member
      rw [eventEscape_cons, List.mem_append] at member
      rcases member with here | later
      · by_cases special : d ∈ ['"', '\\', '\n', '\r']
        · simp only [List.mem_cons, List.not_mem_nil, or_false] at special
          rcases special with rfl | rfl | rfl | rfl
          all_goals
            simp only [escapeChar, List.mem_cons, List.not_mem_nil, or_false] at here
            rcases here with rfl | rfl <;> decide
        · rw [escapeChar_plain special, List.mem_singleton] at here
          subst here
          simp only [List.mem_cons, List.not_mem_nil, or_false, not_or] at special ⊢
          exact ⟨special.2.2.1, special.2.2.2⟩
      · exact ih c later

theorem quotedToken_term (prefixes : Prefixes) (index : Nat) (value : Text) :
    (quotedToken value).term prefixes index = some (.literal value .string) := by
  have allowed := allows_oneLine (eventEscape_oneLine value)
  simp [quotedToken, Token.term, allowed, unescape_eventEscape, Suffix.kind]

theorem quotedToken_writes (value : Text) :
    Writes (quotedToken value) (.literal value .string) where
  readable := ⟨rfl, enclosed_eventEscape value, trivial⟩
  oneLine := by
    intro c member
    rw [quotedToken, Token.text, Quote.text, Suffix.text, List.append_nil] at member
    simp only [List.mem_append, List.mem_singleton] at member
    rcases member with (rfl | inside) | rfl
    · decide
    · exact eventEscape_oneLine value c inside
    · decide
  denotes := fun index => quotedToken_term storePrefixes index value
  constant := rfl

theorem digits_toDigits (value : Nat) : ∀ c ∈ Nat.toDigits 10 value, c.isDigit = true :=
  fun _ member => Nat.isDigit_of_mem_toDigits (by decide) (by decide) member

theorem isDigit_cases {c : Char} (digit : c.isDigit = true) :
    c ∈ ['0', '1', '2', '3', '4', '5', '6', '7', '8', '9'] := by
  have bounds : 48 ≤ c.toNat ∧ c.toNat ≤ 57 := by
    simpa [Char.isDigit, UInt32.le_iff_toNat_le] using digit
  have same : c = Char.ofNat c.toNat := (Char.ofNat_toNat c).symm
  obtain ⟨least, most⟩ := bounds
  generalize c.toNat = code at least most same
  subst same
  interval_cases code <;> decide

/-- What a number or a date on an event's line consists of. -/
def isNumeral (c : Char) : Bool := c.isDigit || c ∈ ['-', ':', 'T']

theorem isNumeral_plain {c : Char} (numeral : isNumeral c = true) :
    isStop c = false ∧ c ∉ ['.', '\\', '"', '\n', '\r', '+'] := by
  have cases : c ∈ ['0', '1', '2', '3', '4', '5', '6', '7', '8', '9'] ++ ['-', ':', 'T'] := by
    rw [List.mem_append]
    simp only [isNumeral, Bool.or_eq_true, decide_eq_true_eq] at numeral
    exact numeral.imp_left isDigit_cases
  have every : ∀ d ∈ ['0', '1', '2', '3', '4', '5', '6', '7', '8', '9'] ++ ['-', ':', 'T'],
      isStop d = false ∧ d ∉ ['.', '\\', '"', '\n', '\r', '+'] := by
    decide
  exact every c cases

theorem unescape_numeral {text : Text} (numeral : ∀ c ∈ text, isNumeral c = true) :
    unescape text = some text ∧ Enclosed text ∧ ∀ c ∈ text, c ∉ ['\n', '\r'] := by
  have plain : ∀ c ∈ text, c ∉ ['"', '\\', '\n', '\r'] := by
    intro c member
    have unlike := (isNumeral_plain (numeral c member)).2
    simp only [List.mem_cons, List.not_mem_nil, or_false, not_or] at unlike ⊢
    obtain ⟨-, backslash, quote, newline, carriage, -⟩ := unlike
    exact ⟨quote, backslash, newline, carriage⟩
  obtain ⟨enclosed, denotes, -⟩ := plain_content plain
  exact ⟨denotes, enclosed, fun c member listed =>
    plain c member (List.mem_append_right ['"', '\\'] listed)⟩

theorem decimal_parts (value : Int) :
    ∃ digits, digits ≠ [] ∧ (∀ c ∈ digits, c.isDigit = true) ∧
      (decimal value = digits ∨ decimal value = '-' :: digits) := by
  refine ⟨Nat.toDigits 10 value.natAbs, Nat.toDigits_ne_nil, digits_toDigits _, ?_⟩
  unfold decimal
  split
  · exact Or.inr rfl
  · exact Or.inl rfl

theorem dropSign_digits {digits : Text} (nonempty : digits ≠ [])
    (digit : ∀ c ∈ digits, c.isDigit = true) : dropSign digits = digits := by
  cases digits with
  | nil => contradiction
  | cons c digits =>
      have first := isDigit_cases (digit c (by simp))
      simp only [List.mem_cons, List.not_mem_nil, or_false] at first
      rcases first with rfl | rfl | rfl | rfl | rfl | rfl | rfl | rfl | rfl | rfl <;> rfl

theorem decimal_injective : Function.Injective decimal := by
  intro left right same
  have digits : ∀ value : Nat, Nat.ofDigitChars 10 (Nat.toDigits 10 value) 0 = value := fun value =>
    Nat.ofDigitChars_toDigits (by decide) (by decide)
  have unsigned : ∀ value : Nat, ∀ rest, Nat.toDigits 10 value ≠ '-' :: rest := by
    intro value rest starts
    have digit := digits_toDigits value '-' (by simp [starts])
    contradiction
  unfold decimal at same
  split at same <;> split at same
  · have size := congrArg (Nat.ofDigitChars 10 · 0) (List.cons.inj same).2
    simp only [digits] at size
    omega
  · exact absurd same.symm (unsigned _ _)
  · exact absurd same (unsigned _ _)
  · have size := congrArg (Nat.ofDigitChars 10 · 0) same
    simp only [digits] at size
    omega

theorem bareKind_decimal (value : Int) :
    bareKind (decimal value) = some (.typed (xsd "integer")) := by
  obtain ⟨digits, nonempty, digit, written⟩ := decimal_parts value
  have unsigned : dropSign (decimal value) = digits := by
    rcases written with same | same <;> rw [same]
    · exact dropSign_digits nonempty digit
    · rfl
  have word : ∀ word : Text, (∀ c ∈ word.head?, c ∈ ['t', 'f']) → word ≠ [] →
      decimal value ≠ word := by
    rintro word starts filled rfl
    rcases written with same | same
    · cases digits with
      | nil => contradiction
      | cons c digits =>
          have first := starts c (by rw [same]; rfl)
          have digit := digit c (by simp)
          simp only [List.mem_cons, List.not_mem_nil, or_false] at first
          rcases first with rfl | rfl <;> contradiction
    · have first := starts '-' (by rw [same]; rfl)
      simp at first
  have whole : isDigits digits = true := by
    simpa [isDigits, nonempty] using digit
  rw [bareKind, if_neg, if_pos (by rw [unsigned, whole])]
  rintro (same | same)
  · exact word _ (by decide) (by decide) same
  · exact word _ (by decide) (by decide) same

theorem toString_decimal (size : Nat) : (toString size).toList = decimal size := by
  simp [decimal, toString, Nat.repr]

theorem decimal_numeral (value : Int) : ∀ c ∈ decimal value, isNumeral c = true := by
  obtain ⟨digits, -, digit, written⟩ := decimal_parts value
  intro c member
  rcases written with same | same <;> rw [same] at member
  · simp [isNumeral, digit c member]
  · rcases List.mem_cons.mp member with rfl | member
    · decide
    · simp [isNumeral, digit c member]

theorem decimal_writes (value : Int) :
    Writes (.bare (decimal value)) (.literal (decimal value) (.typed (xsd "integer"))) where
  readable := by
    obtain ⟨digits, nonempty, digit, written⟩ := decimal_parts value
    have numeral := decimal_numeral value
    refine ⟨fun c member => ?_, fun member => ?_, ?_, ?_⟩
    · obtain ⟨go, unlike⟩ := isNumeral_plain (numeral c member)
      simp only [List.mem_cons, List.not_mem_nil, or_false, not_or] at unlike ⊢
      exact ⟨go, unlike.1, unlike.2.1⟩
    · rcases written with same | same <;> rw [same] at member
      · have bad := digit _ member
        contradiction
      · have bad := digit ':' (by simpa using member)
        contradiction
    · rcases written with same | same <;> simp [same, nonempty]
    · intro same
      have bad := numeral 'a' (by simp [same])
      contradiction
  oneLine := (unescape_numeral (decimal_numeral value)).2.2
  denotes := by
    intro index
    rw [Token.term, bareKind_decimal, Option.map_some]
  constant := rfl

theorem padded_numeral (width : Nat) (value : Int) :
    ∀ c ∈ padded width value, isNumeral c = true := by
  intro c member
  simp only [padded, List.mem_append, List.mem_replicate] at member
  rcases member with (sign | ⟨-, rfl⟩) | digit
  · split at sign
    · rw [List.mem_singleton] at sign
      subst sign
      decide
    · simp at sign
  · decide
  · simp [isNumeral, digits_toDigits _ c digit]

theorem formatTimestamp_numeral (timestamp : Int64) :
    ∀ c ∈ formatTimestamp timestamp, isNumeral c = true := by
  intro c member
  simp only [formatTimestamp, List.mem_append, List.mem_cons] at member
  rcases member with ((((year | rfl | month) | rfl | day) | rfl | hour) | rfl | minute) | rfl | second
  all_goals first | decide | exact padded_numeral _ _ c ‹_›

theorem dateTimeToken_writes (timestamp : Int64) :
    Writes (dateTimeToken timestamp)
      (.literal (formatTimestamp timestamp) (.typed (xsd "dateTime"))) := by
  obtain ⟨denotes, enclosed, oneLine⟩ := unescape_numeral (formatTimestamp_numeral timestamp)
  refine ⟨⟨rfl, enclosed, ?_⟩, ?_, ?_, rfl⟩
  · exact ⟨fun c member => by revert c; decide, by decide, by decide⟩
  · intro c member
    rw [dateTimeToken, Token.text, Quote.text] at member
    simp only [List.mem_append, List.mem_singleton] at member
    rcases member with ((rfl | inside) | rfl) | suffix
    · decide
    · exact oneLine c inside
    · decide
    · revert c
      decide
  · intro index
    have datatype : Suffix.kind storePrefixes (.typed (.prefixed "xsd".toList "dateTime".toList)) =
        some (.typed (xsd "dateTime")) := by
      decide
    rw [dateTimeToken, Token.term, if_pos (allows_oneLine oneLine), denotes,
      Option.bind_some, datatype, Option.map_some]

end Values

/-- A name of one or more ASCII letters, as all classes and predicates of the events are. -/
def IsVocabulary (name : Text) : Prop := name ≠ [] ∧ ∀ c ∈ name, c.isAlpha = true

instance (name : Text) : Decidable (IsVocabulary name) := inferInstanceAs (Decidable (_ ∧ _))

def Entry.Sound (entry : Entry) : Prop := IsVocabulary entry.name ∧ Writes entry.token entry.term

section Names

theorem isAlpha_cases {c : Char} (letter : c.isAlpha = true) :
    isLetter c = true ∧ isStop c = false ∧
      c ∉ ['.', '\\', '%', '\n', '\r', ':', ' ', ';', '<'] ∧ isWhitespace c = false := by
  have bounds : (65 ≤ c.toNat ∧ c.toNat ≤ 90) ∨ (97 ≤ c.toNat ∧ c.toNat ≤ 122) := by
    delta Char.isAlpha Char.isUpper Char.isLower at letter
    simpa [UInt32.le_iff_toNat_le] using letter
  have same : c = Char.ofNat c.toNat := (Char.ofNat_toNat c).symm
  generalize c.toNat = code at bounds same
  subst same
  rcases bounds with ⟨least, most⟩ | ⟨least, most⟩ <;> interval_cases code <;> decide

theorem isAlpha_nameChar {name : Text} (vocabulary : IsVocabulary name) :
    ∀ c ∈ name, isNameChar c = true := by
  intro c member
  simp [isNameChar, (isAlpha_cases (vocabulary.2 c member)).1]

theorem carrierName_iri {name : Text} (vocabulary : IsVocabulary name) :
    (Name.prefixed "carrier".toList name).iri storePrefixes = some (carrierNs ++ name) := by
  have starts : startsLocal name = true := by
    obtain ⟨nonempty, letters⟩ := vocabulary
    cases name with
    | nil => contradiction
    | cons c name => simp [startsLocal, (isAlpha_cases (letters c (by simp))).1]
  exact prefixed_iri (by decide) starts (isAlpha_nameChar vocabulary)

theorem carrierName_readable {name : Text} (vocabulary : IsVocabulary name) :
    (Name.prefixed "carrier".toList name).Readable :=
  prefixed_readable (by decide) (isAlpha_nameChar vocabulary) (by decide)

/-- A sound entry is read back as its fact. -/
theorem Entry.Sound.property {entry : Entry} (sound : entry.Sound) :
    entry.property.Sound storePrefixes where
  verbReadable := carrierName_readable sound.1
  objectReadable := sound.2.readable
  names := carrierName_iri sound.1
  denotes := sound.2.denotes
  constant := sound.2.constant

end Names

section Reading

theorem vocabulary_oneLine {name : Text} (vocabulary : IsVocabulary name) :
    ∀ c ∈ name, c ∉ ['\n', '\r'] := by
  intro c member
  have unlike := (isAlpha_cases (vocabulary.2 c member)).2.2.1
  simp only [List.mem_cons, List.not_mem_nil, or_false, not_or] at unlike ⊢
  exact ⟨unlike.2.2.2.1, unlike.2.2.2.2.1⟩

theorem oneLine_entries {entries : List Entry} (sound : ∀ entry ∈ entries, entry.Sound) :
    ∀ c ∈ entries.flatMap Entry.text, c ∉ ['\n', '\r'] := by
  intro c member
  obtain ⟨entry, inside, written⟩ := List.mem_flatMap.mp member
  obtain ⟨vocabulary, writes⟩ := sound entry inside
  have start : ∀ d ∈ " ; carrier:".toList, d ∉ ['\n', '\r'] := by decide
  unfold Entry.text at written
  rw [List.append_assoc, List.mem_append, List.mem_append, List.mem_cons] at written
  rcases written with before | name | rfl | token
  · exact start c before
  · exact vocabulary_oneLine vocabulary c name
  · decide
  · exact writes.oneLine c token

end Reading

end LeanAntenna
