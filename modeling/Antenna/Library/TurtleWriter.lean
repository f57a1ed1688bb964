import Antenna.Library.TurtleReader

/-! Statements that give one anonymous node a type and properties, as they are written on one line
and read back. -/

namespace Turtle

open Text

/-- A verb and its object with the fact that they denote. -/
structure Property where
  verb : Name
  object : Token
  predicate : Text
  term : Term

namespace Property

def text (property : Property) : Text :=
  " ; ".toList ++ property.verb.text ++ ' ' :: property.object.text

def written (property : Property) : List Written :=
  [(.semicolon, [' ']), (.name property.verb, [' ']), (property.object, [' '])]

def fact (property : Property) : Text × Term := (property.predicate, property.term)

/-- The property is read back wherever it stands, as its fact. -/
structure Sound (prefixes : Prefixes) (property : Property) : Prop where
  verbReadable : property.verb.Readable
  objectReadable : property.object.Readable
  names : property.verb.iri prefixes = some property.predicate
  denotes : ∀ index, property.object.term prefixes index = some property.term
  constant : property.object.anonymousCount = 0

end Property

def describeWritten (type : Name) (properties : List Property) : List Written :=
  (.anonymous, [' ']) :: (.isA, [' ']) :: (.name type, [' ']) ::
    (properties.flatMap Property.written ++ [(.dot, [])])

def describe (type : Name) (properties : List Property) : Text :=
  "[] a ".toList ++ type.text ++ properties.flatMap Property.text ++ " .".toList

theorem render_properties (properties : List Property) :
    ' ' :: render (properties.flatMap Property.written ++ [(.dot, [])]) =
      properties.flatMap Property.text ++ " .".toList := by
  induction properties with
  | nil => rfl
  | cons property properties ih =>
      rw [List.flatMap_cons, List.flatMap_cons, List.append_assoc, List.append_assoc, ← ih,
        render_append]
      unfold Property.written Property.text
      simp only [render_cons, render_nil, Token.text, List.append_assoc]
      rfl

theorem render_describe (type : Name) (properties : List Property) :
    render (describeWritten type properties) = describe type properties := by
  unfold describeWritten describe
  rw [List.append_assoc, ← render_properties]
  simp only [render_cons, Token.text, List.append_assoc]
  rfl

section Names

theorem isNameChar_plain {c : Char} (part : isNameChar c = true) :
    isStop c = false ∧ c ∉ ['.', '\\', '%', ':', '\n', '\r'] := by
  have spaces : ∀ d ∈ [' ', '\t', '\r', '\n'], isNameChar d = false := by decide
  have stops : ∀ d ∈ Char.ofNat 39 :: "<>\"[]();,^@#\x7b\x7d".toList, isNameChar d = false := by
    decide
  have others : ∀ d ∈ ['.', '\\', '%', ':', '\n', '\r'], isNameChar d = false := by decide
  refine ⟨?_, ?_⟩
  · cases stop : isStop c with
    | false => rfl
    | true =>
        rw [isStop, Bool.or_eq_true, isSpace, decide_eq_true_eq, decide_eq_true_eq] at stop
        have none := stop.elim (spaces c) (stops c)
        rw [part] at none
        contradiction
  · intro listed
    rw [others c listed] at part
    contradiction

/-- A local name of name characters denotes itself. -/
theorem unescapeLocal_name {name : Text} (parts : ∀ c ∈ name, isNameChar c = true) :
    unescapeLocal name = some name := by
  induction name with
  | nil => rfl
  | cons c name ih =>
      have part := parts c (by simp)
      obtain ⟨-, unlike⟩ := isNameChar_plain part
      simp only [List.mem_cons, List.not_mem_nil, or_false, not_or] at unlike
      rw [unescapeLocal, if_pos (by simp [part]),
        ih fun d member => parts d (List.mem_cons_of_mem c member), Option.map_some]
      · rintro rfl rfl
        simp at unlike
      · rintro d more rfl
        simp at unlike
      · rintro a b more rfl
        simp at unlike

theorem prefixed_readable {label localName : Text} (labels : ∀ c ∈ label, isNameChar c = true)
    (parts : ∀ c ∈ localName, isNameChar c = true) (named : label ≠ ['_']) :
    (Name.prefixed label localName).Readable := by
  have plain : ∀ c, isNameChar c = true → isStop c = false ∧ c ∉ ['.', '\\'] := by
    intro c part
    obtain ⟨go, unlike⟩ := isNameChar_plain part
    simp only [List.mem_cons, List.not_mem_nil, or_false, not_or] at unlike ⊢
    exact ⟨go, unlike.1, unlike.2.1⟩
  refine ⟨?_, ?_, named⟩
  · intro c member
    rcases List.mem_append.mp member with inside | inside
    · exact plain c (labels c inside)
    · rcases List.mem_cons.mp inside with rfl | inside
      · decide
      · exact plain c (parts c inside)
  · intro colon
    have part := labels ':' colon
    exact absurd part (by decide)

theorem prefixed_iri {prefixes : Prefixes} {label localName space : Text}
    (known : prefixes label = some space) (starts : startsLocal localName = true)
    (parts : ∀ c ∈ localName, isNameChar c = true) :
    (Name.prefixed label localName).iri prefixes = some (space ++ localName) := by
  rw [Name.iri, known, Option.bind_some, if_pos starts, unescapeLocal_name parts, Option.map_some]

theorem prefixed_oneLine {label localName : Text} (labels : ∀ c ∈ label, isNameChar c = true)
    (parts : ∀ c ∈ localName, isNameChar c = true) :
    ∀ c ∈ (Name.prefixed label localName).text, c ∉ ['\n', '\r'] := by
  have plain : ∀ c, isNameChar c = true → c ∉ ['\n', '\r'] := by
    intro c part
    have unlike := (isNameChar_plain part).2
    simp only [List.mem_cons, List.not_mem_nil, or_false, not_or] at unlike ⊢
    exact ⟨unlike.2.2.2.2.1, unlike.2.2.2.2.2⟩
  intro c member
  rcases List.mem_append.mp member with inside | inside
  · exact plain c (labels c inside)
  · rcases List.mem_cons.mp inside with rfl | inside
    · decide
    · exact plain c (parts c inside)

end Names

section Reading

variable {prefixes : Prefixes} {properties : List Property}

theorem spaced_properties (sound : ∀ property ∈ properties, property.Sound prefixes) :
    Spaced (properties.flatMap Property.written ++ [(.dot, [])]) := by
  induction properties with
  | nil => exact ⟨trivial, by simp⟩
  | cons property properties ih =>
      have own := sound property (by simp)
      have later := ih fun other member => sound other (List.mem_cons_of_mem property member)
      have blank : ∀ c ∈ [' '], isSpace c = true := by decide
      rw [List.flatMap_cons]
      generalize List.flatMap Property.written properties = rest at later
      refine ⟨trivial, by simp, blank, own.verbReadable, by simp, blank, ?_⟩
      cases rest with
      | nil => exact ⟨own.objectReadable, by simp, blank, later⟩
      | cons next rest => exact ⟨own.objectReadable, by simp, blank, later⟩

theorem spaced_describe {type : Name} (readable : type.Readable)
    (sound : ∀ property ∈ properties, property.Sound prefixes) :
    Spaced (describeWritten type properties) := by
  have blank : ∀ c ∈ [' '], isSpace c = true := by decide
  have later := spaced_properties sound
  unfold describeWritten
  generalize List.flatMap Property.written properties = rest at later
  refine ⟨trivial, by simp, blank, trivial, by simp, blank, ?_⟩
  cases rest with
  | nil => exact ⟨readable, by simp, blank, later⟩
  | cons next rest => exact ⟨readable, by simp, blank, later⟩

theorem steps_properties (sound : ∀ property ∈ properties, property.Sound prefixes)
    (parse : Parse) {predicate : Text} (phase : parse.phase = .afterObject predicate) :
    parse.steps prefixes ((properties.flatMap Property.written ++ [(Token.dot, [])]).map Prod.fst) =
      some { parse with
        phase := .finished
        statement := { parse.statement with
          facts := parse.statement.facts ++ properties.map Property.fact } } := by
  induction properties generalizing parse predicate with
  | nil =>
      obtain ⟨previous, anonymous, statement⟩ := parse
      simp only at phase
      subst phase
      simp [Parse.step]
  | cons property properties ih =>
      have own := sound property (by simp)
      have stepped : parse.steps prefixes (property.written.map Prod.fst) =
          some { parse with
            phase := .afterObject property.predicate
            statement := { parse.statement with
              facts := parse.statement.facts ++ [property.fact] } } := by
        obtain ⟨previous, anonymous, statement⟩ := parse
        simp only at phase
        subst phase
        simp only [Property.written, List.map_cons, List.map_nil, Parse.steps_cons,
          Parse.steps_nil, Parse.step, verb, own.names, Option.map_some, Option.bind_some,
          own.denotes anonymous, own.constant]
        rfl
      rw [List.flatMap_cons, List.append_assoc, List.map_append, Parse.steps_append, stepped,
        Option.bind_some, ih (fun other member => sound other (List.mem_cons_of_mem _ member)) _ rfl]
      simp

/-- A description whose parts hold no line break stands on one line. -/
theorem describe_oneLine {type : Name} {properties : List Property}
    (named : ∀ c ∈ type.text, c ∉ ['\n', '\r'])
    (held : ∀ property ∈ properties, ∀ c ∈ property.text, c ∉ ['\n', '\r']) :
    ∀ c ∈ describe type properties, c ∉ ['\n', '\r'] := by
  have opening : ∀ c ∈ "[] a ".toList, c ∉ ['\n', '\r'] := by decide
  have closing : ∀ c ∈ " .".toList, c ∉ ['\n', '\r'] := by decide
  intro c member
  unfold describe at member
  rw [List.mem_append, List.mem_append, List.mem_append, List.mem_flatMap] at member
  rcases member with ((start | name) | ⟨property, listed, inside⟩) | dot
  · exact opening c start
  · exact named c name
  · exact held property listed c inside
  · exact closing c dot

/-- A description is read back as its type and the facts of its properties. -/
theorem read_describe {type : Name} {iri : Text} (readable : type.Readable)
    (names : type.iri prefixes = some iri)
    (sound : ∀ property ∈ properties, property.Sound prefixes) :
    read prefixes (describe type properties) =
      some ⟨.anonymous 0, (rdfType, .iri iri) :: properties.map Property.fact⟩ := by
  have begun : Parse.start.steps prefixes [.anonymous, .isA, .name type] =
      some {
        phase := .afterObject rdfType
        anonymous := 1
        statement := ⟨.anonymous 0, [(rdfType, .iri iri)]⟩ } := by
    simp [Parse.step, Parse.start, isSubject, Token.term, Token.anonymousCount, verb, names]
  rw [← render_describe, read_render prefixes (spaced_describe readable sound), statement]
  change (Parse.start.steps prefixes ([.anonymous, .isA, .name type] ++ _)).bind _ = _
  rw [Parse.steps_append, begun, Option.bind_some]
  rw [steps_properties sound _ rfl, Option.bind_some, if_pos rfl]
  rfl

end Reading

end Turtle
