import Antenna.Library.TurtleLine

/-! What a text put between the double quotes of a description does to the description. -/

namespace Turtle

open Text

section Content

/-- The text of a literal between two double quotes. -/
def LiteralContent (raw : Text) : Prop := Enclosed raw ∧ (unescape raw).isSome

/-- A text that closes its literal and the statement itself and comments out what follows. -/
def Concludes (content : Text) : Prop :=
  ∃ raw marks comment, content = raw ++ '"' :: (marks ++ '#' :: comment) ∧ LiteralContent raw ∧
    Ends marks

/-- A text that leaves a statement complete when it is put between double quotes. -/
def Harmless (content : Text) : Prop := LiteralContent content ∨ Concludes content

theorem scanLiteral_split {text raw rest : Text} (scanned : scanLiteral ['"'] text = some (raw, rest)) :
    text = raw ++ '"' :: rest ∧ Enclosed raw := by
  fun_induction scanLiteral ['"'] text generalizing raw rest with
  | case1 => contradiction
  | case2 c text ih =>
      rw [Option.map_eq_some_iff] at scanned
      obtain ⟨⟨inner, after⟩, later, same⟩ := scanned
      cases same
      obtain ⟨rfl, enclosed⟩ := ih later
      exact ⟨rfl, enclosed⟩
  | case3 c text _ closes =>
      cases scanned
      obtain ⟨rfl, -⟩ := List.cons_prefix_cons.mp closes
      exact ⟨rfl, trivial⟩
  | case4 c text unlike open' ih =>
      rw [Option.map_eq_some_iff] at scanned
      obtain ⟨⟨inner, after⟩, later, same⟩ := scanned
      cases same
      obtain ⟨rfl, enclosed⟩ := ih later
      refine ⟨rfl, ?_⟩
      have quote : c ≠ '"' := by
        rintro rfl
        simp at open'
      rw [List.singleton_append, Enclosed]
      · refine ⟨?_, quote, enclosed⟩
        rintro rfl
        cases inner with
        | nil => exact unlike '"' rest rfl rfl
        | cons d inner => exact unlike d (inner ++ '"' :: rest) rfl rfl
      · rintro d more rfl rfl
        exact unlike d (more ++ '"' :: rest) rfl rfl

theorem scanLiteral_iff {text raw rest : Text} :
    scanLiteral ['"'] text = some (raw, rest) ↔ text = raw ++ '"' :: rest ∧ Enclosed raw := by
  constructor
  · exact scanLiteral_split
  · rintro ⟨rfl, enclosed⟩
    exact scanLiteral_enclosed enclosed

variable {front name : Text}

theorem enclosed_plain (plain : ∀ c ∈ front, c ∉ ['"', '\\']) :
    Enclosed (front ++ name) ↔ Enclosed name := by
  induction front with
  | nil => rfl
  | cons c front ih =>
      have unlike := plain c (by simp)
      simp only [List.mem_cons, List.not_mem_nil, or_false, not_or] at unlike
      have later := ih fun d member => plain d (List.mem_cons_of_mem c member)
      rw [List.cons_append, Enclosed, later]
      · simp [unlike]
      · rintro d more rfl
        exact absurd rfl unlike.2

theorem unescape_front (plain : ∀ c ∈ front, c ∉ ['"', '\\']) :
    unescape (front ++ name) = (unescape name).map (front ++ ·) := by
  induction front with
  | nil => simp
  | cons c front ih =>
      have unlike := plain c (by simp)
      simp only [List.mem_cons, List.not_mem_nil, or_false, not_or] at unlike
      rw [List.cons_append, unescape_plain unlike.2,
        ih fun d member => plain d (List.mem_cons_of_mem c member), Option.map_map]
      rfl

theorem literalContent_front (plain : ∀ c ∈ front, c ∉ ['"', '\\']) :
    LiteralContent (front ++ name) ↔ LiteralContent name := by
  rw [LiteralContent, LiteralContent, enclosed_plain plain, unescape_front plain, Option.isSome_map]

/-- A front without quotes and escapes does not change what a text does. -/
theorem harmless_front (plain : ∀ c ∈ front, c ∉ ['"', '\\']) :
    Harmless (front ++ name) ↔ Harmless name := by
  refine or_congr (literalContent_front plain) ⟨?_, ?_⟩
  · rintro ⟨raw, marks, comment, split, content, ends⟩
    have unquoted : '"' ∉ front := fun member => plain '"' member (by simp)
    rcases List.append_eq_append_iff.mp split with ⟨inner, whole, rest⟩ | ⟨inner, whole, rest⟩
    · rw [whole, literalContent_front plain] at content
      exact ⟨inner, marks, comment, rest, content, ends⟩
    · cases inner with
      | nil =>
          rw [List.append_nil] at whole
          rw [List.nil_append] at rest
          rw [← whole, ← List.append_nil front, literalContent_front plain] at content
          exact ⟨[], marks, comment, rest.symm, content, ends⟩
      | cons c inner =>
          rw [List.cons_append] at rest
          obtain ⟨rfl, -⟩ := List.cons.inj rest
          simp [whole] at unquoted
  · rintro ⟨raw, marks, comment, rfl, content, ends⟩
    refine ⟨front ++ raw, marks, comment, ?_, (literalContent_front plain).mpr content, ends⟩
    rw [List.append_assoc]

end Content

section Quoting

/-- A description with one property, whose value is a text between double quotes. -/
def quoting (type verb : Name) (content : Text) : Text :=
  "[] a ".toList ++ type.text ++ " ; ".toList ++ verb.text ++ " \"".toList ++ content ++ "\" .".toList

variable {prefixes : Prefixes} {type verb : Name} {iri predicate : Text}

theorem lineTokens_quoting (readable : type.Readable) (alsoReadable : verb.Readable) (content : Text)
    (fuel : Nat) :
    lineTokens (fuel + 5) (quoting type verb content) =
      (lineTokens fuel ('"' :: (content ++ "\" .".toList))).map
        ([.anonymous, .isA, .name type, .semicolon, .name verb] ++ ·) := by
  have opening : "[] a ".toList = '[' :: ']' :: ' ' :: 'a' :: [' '] := by decide
  have between : " ; ".toList = ' ' :: ';' :: [' '] := by decide
  have quote : " \"".toList = ' ' :: ['"'] := by decide
  have split : quoting type verb content =
      Token.anonymous.text ++ ' ' :: (Token.isA.text ++ ' ' :: ((Token.name type).text ++ ' ' ::
        (Token.semicolon.text ++ ' ' :: ((Token.name verb).text ++ ' ' ::
          ('"' :: (content ++ "\" .".toList)))))) := by
    unfold quoting Token.text
    rw [opening, between, quote]
    generalize "\" .".toList = closing
    simp only [List.append_assoc, List.cons_append, List.nil_append]
  have anonymous : Token.anonymous.Readable := trivial
  have isA : Token.isA.Readable := trivial
  have semicolon : Token.semicolon.Readable := trivial
  have class' : (Token.name type).Readable := readable
  have property : (Token.name verb).Readable := alsoReadable
  rw [split, lineTokens_token anonymous, lineTokens_token isA, lineTokens_token class',
    lineTokens_token semicolon, lineTokens_token property]
  simp only [Option.map_map]
  rfl

theorem steps_quoting (names : type.iri prefixes = some iri)
    (alsoNames : verb.iri prefixes = some predicate) :
    Parse.start.steps prefixes [.anonymous, .isA, .name type, .semicolon, .name verb] =
      some {
        phase := .object predicate
        anonymous := 1
        statement := ⟨.anonymous 0, [(rdfType, .iri iri)]⟩ } := by
  simp [Parse.step, Parse.start, isSubject, Token.term, Token.anonymousCount, Turtle.verb, names,
    alsoNames]

theorem readSuffix_marks {marks rest : Text} (ends : Ends marks) :
    readSuffix (marks ++ rest) = some (.plain, marks ++ rest) := by
  obtain ⟨front, back, rfl, inside, -⟩ := ends
  have other : ∀ c ∈ (front ++ '.' :: back ++ rest).head?, c ∉ ['@', '^'] := by
    intro c head
    cases front with
    | nil =>
        cases head
        decide
    | cons d front =>
        cases head
        rcases inside c (by simp) with space | rfl
        · intro listed
          simp only [List.mem_cons, List.not_mem_nil, or_false] at listed
          rcases listed with rfl | rfl <;> contradiction
        · decide
  unfold readSuffix
  split
  · rename_i same
    rw [same] at other
    exact absurd (by simp) (other '@' rfl)
  · rename_i same
    rw [same] at other
    exact absurd (by simp) (other '^' rfl)
  · rfl

theorem readSuffix_plain {text rest : Text} (read : readSuffix text = some (.plain, rest)) :
    rest = text := by
  unfold readSuffix at read
  split at read
  · simp at read
  · rw [Option.map_eq_some_iff] at read
    obtain ⟨named, -, same⟩ := read
    simp at same
  · simp only [Option.some.injEq, Prod.mk.injEq, true_and] at read
    exact read.symm

theorem kind_eq_string {suffix : Suffix} (kind : suffix.kind prefixes = some .string) :
    suffix = .plain := by
  cases suffix with
  | plain => rfl
  | language tag => simp [Suffix.kind] at kind
  | typed datatype => simp [Suffix.kind] at kind

theorem marks_unquoted {marks : Text} (ends : Ends marks) : '"' ∉ marks := by
  obtain ⟨front, back, rfl, inside, blank⟩ := ends
  intro member
  rcases List.mem_append.mp member with before | member
  · have bad := inside '"' before
    revert bad
    decide
  · rcases List.mem_cons.mp member with same | behind
    · contradiction
    · have bad := blank '"' behind
      contradiction

theorem unquoted_marks {marks : Text} (ends : Ends marks) (rest : Text) :
    (marks ++ rest).head? ≠ some '"' := by
  have unquoted := marks_unquoted ends
  obtain ⟨front, back, rfl, -, -⟩ := ends
  intro quote
  cases front with
  | nil => cases quote
  | cons c front =>
      cases quote
      simp at unquoted

/-- The quote that closes the literal is the last one, or stands in the content. -/
theorem closing_quote {content raw rest : Text}
    (split : content ++ "\" .".toList = raw ++ '"' :: rest) :
    content = raw ∨ ∃ after, content = raw ++ '"' :: after ∧ rest = after ++ "\" .".toList := by
  have closing : "\" .".toList = '"' :: ' ' :: ['.'] := by decide
  rw [closing] at split ⊢
  rcases List.append_eq_append_iff.mp split with ⟨inner, whole, tail⟩ | ⟨inner, whole, tail⟩
  · cases inner with
    | nil => exact Or.inl (by simpa using whole.symm)
    | cons c inner =>
        obtain ⟨rfl, later⟩ := List.cons.inj tail
        have member : '"' ∈ [' ', '.'] := by simp [later]
        simp at member
  · cases inner with
    | nil => exact Or.inl (by simpa using whole)
    | cons c inner =>
        obtain ⟨rfl, later⟩ := List.cons.inj tail
        exact Or.inr ⟨inner, whole, later⟩

/-- When marks end the statement behind a quote of the content, a comment hides the closing one. -/
theorem concludes_of_marks {raw after marks : Text} (content : LiteralContent raw) (ends : Ends marks)
    (split : after ++ "\" .".toList = marks ∨
      ∃ comment, after ++ "\" .".toList = marks ++ '#' :: comment) :
    Concludes (raw ++ '"' :: after) := by
  have closing : "\" .".toList = '"' :: ' ' :: ['.'] := by decide
  have unquoted := marks_unquoted ends
  rw [closing] at split
  rcases split with rfl | ⟨comment, whole⟩
  · simp at unquoted
  · rcases List.append_eq_append_iff.mp whole with ⟨inner, rfl, tail⟩ | ⟨inner, rfl, tail⟩
    · cases inner with
      | nil => simp at tail
      | cons c inner =>
          obtain ⟨rfl, -⟩ := List.cons.inj tail
          simp at unquoted
    · cases inner with
      | nil => simp at tail
      | cons c inner =>
          obtain ⟨rfl, -⟩ := List.cons.inj tail
          exact ⟨raw, marks, inner, rfl, content, ends⟩

theorem readToken_quote {content : Text} (starts : content.head? ≠ some '"') :
    readToken ('"' :: (content ++ "\" .".toList)) =
      readContent .double (content ++ "\" .".toList) := by
  have closing : "\" .".toList = '"' :: ' ' :: ['.'] := by decide
  have short : ¬ Quote.double.text ++ Quote.double.text <+: content ++ "\" .".toList := by
    rw [closing]
    intro long
    cases content with
    | nil => simp [Quote.text] at long
    | cons c content =>
        obtain ⟨rfl, -⟩ := List.cons_prefix_cons.mp long
        simp at starts
  have first : readToken ('"' :: (content ++ "\" .".toList)) =
      readLiteral .double .longDouble (content ++ "\" .".toList) := rfl
  rw [first, readLiteral, if_neg short]

theorem readToken_literal {raw rest : Text} (enclosed : Enclosed raw)
    (suffixed : readSuffix rest = some (.plain, rest)) (short : rest.head? ≠ some '"') :
    readToken ('"' :: (raw ++ '"' :: rest)) = some (.literal .double raw .plain, rest) := by
  have first : readToken ('"' :: (raw ++ '"' :: rest)) =
      readLiteral .double .longDouble (raw ++ '"' :: rest) := rfl
  rw [first, readLiteral, if_neg (not_long_quote enclosed short), readContent, Quote.text,
    scanLiteral_enclosed enclosed, Option.bind_some]
  simp only [suffixed, Option.map_some]

theorem lineTokens_literal (fuel : Nat) {raw rest : Text} (enclosed : Enclosed raw)
    (suffixed : readSuffix rest = some (.plain, rest)) (short : rest.head? ≠ some '"') :
    lineTokens (fuel + 1) ('"' :: (raw ++ '"' :: rest)) =
      (lineTokens fuel rest).map (.literal .double raw .plain :: ·) := by
  have visible : skipBlank false ('"' :: (raw ++ '"' :: rest)) = '"' :: (raw ++ '"' :: rest) :=
    skipBlank_visible (by decide) (by decide)
  simp only [lineTokens, visible, reduceCtorEq, if_false,
    readToken_literal enclosed suffixed short, Option.bind_some]

/-- The literal is the first of its tokens. -/
theorem literal_of_lineTokens {content : Text} {fuel : Nat} {found : List Token}
    (starts : content.head? ≠ some '"')
    (read : lineTokens fuel ('"' :: (content ++ "\" .".toList)) = some found) :
    ∃ raw after suffix rest more fuel, content ++ "\" .".toList = raw ++ '"' :: after ∧
      Enclosed raw ∧ readSuffix after = some (suffix, rest) ∧ lineTokens fuel rest = some more ∧
      found = .literal .double raw suffix :: more := by
  have visible : skipBlank false ('"' :: (content ++ "\" .".toList)) =
      '"' :: (content ++ "\" .".toList) := skipBlank_visible (by decide) (by decide)
  cases fuel with
  | zero =>
      rw [lineTokens, visible, if_neg (by simp)] at read
      contradiction
  | succ fuel =>
      simp only [lineTokens, visible, reduceCtorEq, if_false, readToken_quote starts, readContent,
        Option.bind_eq_some_iff, Option.map_eq_some_iff, Prod.exists, Prod.mk.injEq] at read
      obtain ⟨token, rest, ⟨raw, after, scanned, suffix, tail, suffixed, rfl, rfl⟩, more, later, rfl⟩ :=
        read
      obtain ⟨split, enclosed⟩ := scanLiteral_iff.mp scanned
      exact ⟨raw, after, suffix, tail, more, fuel, split, enclosed, suffixed, later, rfl⟩

theorem literal_denotes {prefixes : Prefixes} {index : Nat} {quote : Quote} {raw value : Text}
    {suffix : Suffix} {kind : LiteralKind}
    (denotes : (Token.literal quote raw suffix).term prefixes index = some (.literal value kind)) :
    quote.allows raw = true ∧ unescape raw = some value ∧ suffix.kind prefixes = some kind := by
  rw [Token.term] at denotes
  split at denotes
  · rename_i allowed
    simp only [Option.bind_eq_some_iff, Option.map_eq_some_iff, Term.literal.injEq] at denotes
    obtain ⟨denoted, unescaped, named, kinds, rfl, rfl⟩ := denotes
    exact ⟨allowed, unescaped, kinds⟩
  · contradiction

/-- The tokens in front of the quote leave fuel enough for the content. -/
theorem quoting_size (type verb : Name) (content : Text) :
    ∃ fuel, (quoting type verb content).length = fuel + 5 ∧ content.length ≤ fuel := by
  have opening : "[] a ".toList.length = 5 := by decide
  unfold quoting
  generalize " ; ".toList = between
  generalize " \"".toList = quote
  generalize "\" .".toList = closing
  refine ⟨type.text.length + between.length + verb.text.length + quote.length + content.length +
    closing.length, ?_, by omega⟩
  simp only [List.length_append, opening]
  omega

theorem allows_oneLine {raw : Text} (oneLine : ∀ c ∈ raw, c ∉ ['\n', '\r']) :
    Quote.double.allows raw = true := by
  have newline : '\n' ∉ raw := fun member => oneLine _ member (by simp)
  have carriage : '\r' ∉ raw := fun member => oneLine _ member (by simp)
  simp [Quote.allows, newline, carriage]

theorem quoting_eq_describe (type verb : Name) (content predicate value : Text) :
    quoting type verb content = describe type [⟨verb, .literal .double content .plain, predicate,
      .literal value .string⟩] := by
  have quote : " \"".toList = ' ' :: ['"'] := by decide
  have closing : "\" .".toList = '"' :: " .".toList := by decide
  unfold quoting describe
  rw [quote, closing]
  generalize " .".toList = dot
  simp only [List.flatMap_cons, List.flatMap_nil, Property.text, Token.text, Quote.text, Suffix.text,
    List.append_assoc, List.append_nil, List.cons_append, List.nil_append]

/-- A text that needs no escape is the content of a literal with that value. -/
theorem plain_content {text : Text} (plain : ∀ c ∈ text, c ∉ ['"', '\\', '\n', '\r']) :
    Enclosed text ∧ unescape text = some text ∧ Quote.double.allows text = true := by
  have quoteless : ∀ c ∈ text, c ∉ ['"', '\\'] := by
    intro c member listed
    exact plain c member (List.mem_append_left ['\n', '\r'] listed)
  have oneLine : ∀ c ∈ text, c ∉ ['\n', '\r'] := by
    intro c member listed
    exact plain c member (List.mem_append_right ['"', '\\'] listed)
  have enclosed := (@enclosed_plain text [] quoteless).mpr trivial
  have denotes := @unescape_front text [] quoteless
  rw [List.append_nil] at enclosed denotes
  exact ⟨enclosed, by rw [denotes]; simp [unescape], allows_oneLine oneLine⟩

/-- A text without quotes, escapes and line breaks stands for itself. -/
theorem read_plain (readable : type.Readable) (alsoReadable : verb.Readable)
    (names : type.iri prefixes = some iri) (alsoNames : verb.iri prefixes = some predicate)
    {content : Text} (plain : ∀ c ∈ content, c ∉ ['"', '\\', '\n', '\r']) :
    read prefixes (quoting type verb content) =
      some ⟨.anonymous 0, [(rdfType, .iri iri), (predicate, .literal content .string)]⟩ := by
  obtain ⟨enclosed, unescaped, allowed⟩ := plain_content plain
  rw [quoting_eq_describe type verb content predicate content, read_describe readable names]
  · rfl
  · intro property member
    obtain rfl := List.mem_singleton.mp member
    refine ⟨alsoReadable, ⟨rfl, enclosed, trivial⟩, alsoNames, fun index => ?_, rfl⟩
    rw [Token.term, if_pos allowed, unescaped]
    rfl

/-- The content of a literal is read as its value. -/
theorem read_content (readable : type.Readable) (alsoReadable : verb.Readable)
    (names : type.iri prefixes = some iri) (alsoNames : verb.iri prefixes = some predicate)
    {content : Text} (fits : LiteralContent content) (oneLine : ∀ c ∈ content, c ∉ ['\n', '\r']) :
    ∃ statement value, readLine prefixes (quoting type verb content) = some statement ∧
      statement.facts = [(rdfType, .iri iri), (predicate, .literal value .string)] := by
  obtain ⟨enclosed, denoted⟩ := fits
  obtain ⟨value, unescaped⟩ := Option.isSome_iff_exists.mp denoted
  have sound : ∀ property ∈ [(⟨verb, .literal .double content .plain, predicate,
      .literal value .string⟩ : Property)], property.Sound prefixes := by
    intro property member
    obtain rfl := List.mem_singleton.mp member
    refine ⟨alsoReadable, ⟨rfl, enclosed, trivial⟩, alsoNames, fun index => ?_, rfl⟩
    rw [Token.term, if_pos (allows_oneLine oneLine), unescaped]
    rfl
  refine ⟨⟨.anonymous 0, [(rdfType, .iri iri), (predicate, .literal value .string)]⟩, value, ?_, rfl⟩
  rw [quoting_eq_describe type verb content predicate value]
  exact readLine_of_read (read_describe readable names sound)

/-- A text that ends the statement itself hides what follows in its comment. -/
theorem read_concluded (readable : type.Readable) (alsoReadable : verb.Readable)
    (names : type.iri prefixes = some iri) (alsoNames : verb.iri prefixes = some predicate)
    {content : Text} (concludes : Concludes content)
    (oneLine : ∀ c ∈ content, c ∉ ['\n', '\r']) :
    ∃ statement value, readLine prefixes (quoting type verb content) = some statement ∧
      statement.facts = [(rdfType, .iri iri), (predicate, .literal value .string)] := by
  obtain ⟨raw, marks, comment, rfl, ⟨enclosed, denoted⟩, ends⟩ := concludes
  obtain ⟨value, unescaped⟩ := Option.isSome_iff_exists.mp denoted
  have closing : ∀ c ∈ "\" .".toList, c ∉ ['\n', '\r'] := by decide
  have rawLine : ∀ c ∈ raw, c ∉ ['\n', '\r'] := fun c member => oneLine c (by simp [member])
  have commentLine : ∀ c ∈ comment ++ "\" .".toList, c ∉ ['\n', '\r'] := by
    intro c member
    rcases List.mem_append.mp member with inside | last
    · exact oneLine c (by simp [inside])
    · exact closing c last
  obtain ⟨fuel, size, enough⟩ := quoting_size type verb (raw ++ '"' :: (marks ++ '#' :: comment))
  simp only [List.length_append, List.length_cons] at enough
  obtain ⟨fuel, rfl⟩ : ∃ more, fuel = more + 1 := ⟨fuel - 1, by omega⟩
  have marked : ∃ count, lineTokens fuel (marks ++ '#' :: (comment ++ "\" .".toList)) =
      some (List.replicate count .semicolon ++ [.dot]) :=
    lineTokens_ends ends commentLine (by omega)
  obtain ⟨count, marked⟩ := marked
  have literal := lineTokens_literal fuel enclosed (readSuffix_marks ends)
    (unquoted_marks ends ('#' :: (comment ++ "\" .".toList)))
  have behind : raw ++ '"' :: (marks ++ '#' :: comment) ++ "\" .".toList =
      raw ++ '"' :: (marks ++ '#' :: (comment ++ "\" .".toList)) := by simp
  have term : (Token.literal .double raw .plain).term prefixes 1 = some (.literal value .string) := by
    rw [Token.term, if_pos (allows_oneLine rawLine), unescaped]
    rfl
  refine ⟨⟨.anonymous 0, [(rdfType, .iri iri), (predicate, .literal value .string)]⟩, value, ?_, rfl⟩
  rw [readLine, size, lineTokens_quoting readable alsoReadable, behind, literal, marked,
    Option.map_some, Option.map_some, Option.bind_some, Turtle.statement, Parse.steps_append,
    steps_quoting names alsoNames, Option.bind_some, Parse.steps_cons]
  simp only [Parse.step, term, Option.map_some, Option.bind_some]
  rw [Parse.steps_marks count (Or.inl ⟨predicate, rfl⟩), Option.bind_some, if_pos rfl]
  rfl

/-- The type is the first fact, whatever the content adds. -/
theorem first_fact_quoting (readable : type.Readable) (alsoReadable : verb.Readable)
    (names : type.iri prefixes = some iri) (alsoNames : verb.iri prefixes = some predicate)
    {content : Text} {result : Statement}
    (read : readLine prefixes (quoting type verb content) = some result) :
    [(rdfType, .iri iri)] <+: result.facts := by
  obtain ⟨fuel, size, -⟩ := quoting_size type verb content
  rw [readLine, size, lineTokens_quoting readable alsoReadable, Option.bind_eq_some_iff] at read
  obtain ⟨written, tokenized, parsed⟩ := read
  rw [Option.map_eq_some_iff] at tokenized
  obtain ⟨found, tokenized, rfl⟩ := tokenized
  rw [Turtle.statement, Parse.steps_append, steps_quoting names alsoNames, Option.bind_some,
    Option.bind_eq_some_iff] at parsed
  obtain ⟨final, ran, ended⟩ := parsed
  split at ended
  · cases ended
    exact Parse.steps_facts (by simp) ran
  · contradiction

/-- A description whose value is a text between quotes is read as the type and one string exactly
if the text is harmless. -/
theorem readLine_quoting_iff (readable : type.Readable) (alsoReadable : verb.Readable)
    (names : type.iri prefixes = some iri) (alsoNames : verb.iri prefixes = some predicate)
    {content : Text} (starts : content.head? ≠ some '"')
    (oneLine : ∀ c ∈ content, c ∉ ['\n', '\r']) :
    (∃ statement value, readLine prefixes (quoting type verb content) = some statement ∧
      statement.facts = [(rdfType, .iri iri), (predicate, .literal value .string)]) ↔
      Harmless content := by
  constructor
  · rintro ⟨result, value, read, facts⟩
    obtain ⟨fuel, size, -⟩ := quoting_size type verb content
    rw [readLine, size, lineTokens_quoting readable alsoReadable, Option.bind_eq_some_iff] at read
    obtain ⟨written, tokenized, parsed⟩ := read
    rw [Option.map_eq_some_iff] at tokenized
    obtain ⟨found, tokenized, rfl⟩ := tokenized
    obtain ⟨raw, after, suffix, rest, more, fuel, split, enclosed, suffixed, later, rfl⟩ :=
      literal_of_lineTokens starts tokenized
    rw [Turtle.statement, Parse.steps_append, steps_quoting names alsoNames, Option.bind_some,
      Parse.steps_cons, Option.bind_assoc, Option.bind_eq_some_iff] at parsed
    obtain ⟨next, stepped, parsed⟩ := parsed
    rw [Option.bind_eq_some_iff] at parsed
    obtain ⟨final, ran, ended⟩ := parsed
    simp only [Parse.step, Option.map_eq_some_iff] at stepped
    obtain ⟨term, denotes, rfl⟩ := stepped
    split at ended
    · rename_i finished
      cases ended
      have grows := Parse.steps_facts (by simp) ran
      rw [facts] at grows
      have same : term = .literal value .string := by simpa using grows
      subst same
      have kept : final.statement.facts.length = 2 := by rw [facts]; rfl
      obtain ⟨count, rfl⟩ := Parse.steps_ends (Or.inl ⟨predicate, rfl⟩) ran finished kept
      obtain ⟨-, unescaped, kinds⟩ := literal_denotes denotes
      have denoted : (unescape raw).isSome := by rw [unescaped, Option.isSome_some]
      obtain rfl := kind_eq_string kinds
      obtain rfl := readSuffix_plain suffixed
      have line : ∀ c ∈ rest, c ∉ ['\n', '\r'] := by
        have closing : ∀ c ∈ "\" .".toList, c ∉ ['\n', '\r'] := by decide
        intro c member
        have inside : c ∈ content ++ "\" .".toList := by
          rw [split]
          simp [member]
        exact (List.mem_append.mp inside).elim (oneLine c) (closing c)
      obtain ⟨marks, ends, shown⟩ := marks_of_lineTokens line later
      rcases closing_quote split with rfl | ⟨after, rfl, rfl⟩
      · exact Or.inl ⟨enclosed, denoted⟩
      · exact Or.inr (concludes_of_marks ⟨enclosed, denoted⟩ ends shown)
    · contradiction
  · rintro (content | concludes)
    · exact read_content readable alsoReadable names alsoNames content oneLine
    · exact read_concluded readable alsoReadable names alsoNames concludes oneLine

end Quoting

end Turtle
