import Antenna.Library.TurtleStatements
import Antenna.EventReading
import Antenna.PipelineCore
import Antenna.PlatformCore

/-!
Whether the request documents of `PlatformBackend::complete` are Turtle that carries the model, the
system prompt and the user prompt.
-/

namespace LeanAntenna

open Text Turtle

section Escaping

def doubled (text : Text) : Text := text.flatMap fun c => if c = '\\' then ['\\', '\\'] else [c]

/-- What `llm::turtle_escape` puts between its quotes. -/
def longEscape (text : Text) : Text := escapeTripleQuotes (doubled text)

theorem longLiteral_eq (text : Text) :
    longLiteral text = '"' :: '"' :: '"' :: (longEscape text ++ ['"', '"', '"']) := by
  have quotes : "\"\"\"".toList = ['"', '"', '"'] := by decide
  rw [longLiteral, quotes]
  rfl

def trailingQuotes (text : Text) : Nat := (text.reverse.takeWhile (· = '"')).length

/-- The quotes at the end that stay behind when each three quotes are escaped. -/
def leftOver : Text → Nat
  | '"' :: '"' :: '"' :: rest => leftOver rest
  | ['"', '"'] => 2
  | ['"'] => 1
  | _ :: rest => leftOver rest
  | [] => 0

theorem trailingQuotes_cons (c : Char) (rest : Text) :
    trailingQuotes (c :: rest) =
      trailingQuotes rest + if c = '"' ∧ ∀ d ∈ rest, d = '"' then 1 else 0 := by
  unfold trailingQuotes
  rw [List.reverse_cons, List.takeWhile_append]
  by_cases whole : ∀ d ∈ rest, d = '"'
  · have all : rest.reverse.takeWhile (· = '"') = rest.reverse :=
      List.takeWhile_eq_self_iff.mpr (by simpa using whole)
    rw [all, if_pos rfl]
    by_cases quote : c = '"'
    · simpa [quote] using whole
    · simp [quote]
  · have part : (rest.reverse.takeWhile (· = '"')).length ≠ rest.reverse.length := by
      intro same
      have all := (List.takeWhile_prefix _).eq_of_length same
      exact whole (by simpa using List.takeWhile_eq_self_iff.mp all)
    rw [if_neg part, if_neg fun both => whole both.2, Nat.add_zero]

theorem leftOver_eq (text : Text) : leftOver text = trailingQuotes text % 3 := by
  fun_induction leftOver text with
  | case1 rest ih =>
      simp only [trailingQuotes_cons, List.forall_mem_cons, true_and]
      split <;> omega
  | case2 => rfl
  | case3 => rfl
  | case4 c rest triple double single ih =>
      have inside : ¬ (c = '"' ∧ ∀ d ∈ rest, d = '"') := by
        rintro ⟨rfl, quotes⟩
        rcases rest with - | ⟨d, - | ⟨e, rest⟩⟩
        · exact single rfl rfl
        · obtain rfl := quotes d (by simp)
          exact double rfl rfl
        · obtain rfl := quotes d (by simp)
          obtain rfl := quotes e (by simp)
          exact triple rest rfl rfl
      rw [trailingQuotes_cons, if_neg inside, ih]
      rfl
  | case5 => rfl

theorem longEscape_triple (rest : Text) :
    longEscape ('"' :: '"' :: '"' :: rest) =
      '\\' :: '"' :: '\\' :: '"' :: '\\' :: '"' :: longEscape rest := rfl

theorem longEscape_backslash (rest : Text) :
    longEscape ('\\' :: rest) = '\\' :: '\\' :: longEscape rest := rfl

theorem doubled_quote {text rest : Text} (starts : doubled text = '"' :: rest) :
    ∃ more, text = '"' :: more ∧ doubled more = rest := by
  cases text with
  | nil => contradiction
  | cons c text =>
      rw [doubled, List.flatMap_cons] at starts
      split at starts
      · cases starts
      · cases starts
        exact ⟨text, rfl, rfl⟩

theorem longEscape_other {c : Char} {rest : Text} (plain : c ≠ '\\')
    (single : ∀ more, c = '"' → rest = '"' :: '"' :: more → False) :
    longEscape (c :: rest) = c :: longEscape rest := by
  have first : doubled (c :: rest) = c :: doubled rest := by
    rw [doubled, List.flatMap_cons, if_neg plain]
    rfl
  rw [longEscape, first]
  unfold escapeTripleQuotes
  split
  · rename_i more starts
    obtain ⟨quote, next⟩ := List.cons.inj starts
    obtain ⟨behind, rfl, second⟩ := doubled_quote next
    obtain ⟨last, rfl, -⟩ := doubled_quote second
    exact absurd rfl (single last quote)
  · rename_i starts
    cases starts
    rfl
  · rename_i starts
    cases starts

theorem longEscape_head {c : Char} (unquoted : c ≠ '"') (rest : Text) :
    ∃ d more, longEscape (c :: rest) = d :: more ∧ d ≠ '"' := by
  by_cases backslash : c = '\\'
  · subst backslash
    exact ⟨'\\', _, longEscape_backslash rest, unquoted⟩
  · exact ⟨c, _, longEscape_other backslash fun _ quote => absurd quote unquoted, unquoted⟩

/-- A quote that is kept stands in front of something else. -/
theorem longEscape_open {c : Char} {rest : Text} (follow : Text)
    (triple : ∀ more, c = '"' → rest = '"' :: '"' :: more → False)
    (double : c = '"' → rest = ['"'] → False) (single : c = '"' → rest = [] → False) :
    ¬ Quote.longDouble.text <+: c :: (longEscape rest ++ follow) := by
  intro closes
  obtain ⟨rfl, inner⟩ := List.cons_prefix_cons.mp closes
  rcases rest with - | ⟨d, rest⟩
  · exact single rfl rfl
  · by_cases quote : d = '"'
    · subst quote
      rcases rest with - | ⟨e, rest⟩
      · exact double rfl rfl
      · have other : e ≠ '"' := by
          rintro rfl
          exact triple rest rfl rfl
        obtain ⟨f, more, starts, unquoted⟩ := longEscape_head other rest
        rw [longEscape_other (by decide) fun more _ same => other (List.cons.inj same).1, starts] at inner
        obtain ⟨-, last⟩ := List.cons_prefix_cons.mp inner
        exact unquoted (List.cons_prefix_cons.mp last).1.symm
    · obtain ⟨e, more, starts, unquoted⟩ := longEscape_head quote rest
      rw [starts] at inner
      exact unquoted (List.cons_prefix_cons.mp inner).1.symm

/-- A scan of the escaped text closes in front of the quotes that are left over. -/
theorem scanLiteral_longEscape (text follow : Text) :
    ∃ raw, scanLiteral Quote.longDouble.text (longEscape text ++ '"' :: '"' :: '"' :: follow) =
        some (raw, List.replicate (leftOver text) '"' ++ follow) ∧
      (leftOver text = 0 → unescape raw = some text) := by
  have closes : ∀ rest, scanLiteral Quote.longDouble.text ('"' :: '"' :: '"' :: rest) =
      some ([], rest) := fun rest => rfl
  fun_induction leftOver text with
  | case1 rest ih =>
      obtain ⟨raw, scanned, denotes⟩ := ih
      refine ⟨'\\' :: '"' :: '\\' :: '"' :: '\\' :: '"' :: raw, ?_, ?_⟩
      · rw [longEscape_triple]
        simp only [List.cons_append, scanLiteral, scanned]
        rfl
      · intro none
        simp [unescape, escapedChar, denotes none]
  | case2 => exact ⟨[], rfl, fun some => by cases some⟩
  | case3 => exact ⟨[], rfl, fun some => by cases some⟩
  | case4 c rest triple double single ih =>
      obtain ⟨raw, scanned, denotes⟩ := ih
      by_cases backslash : c = '\\'
      · subst backslash
        refine ⟨'\\' :: '\\' :: raw, ?_, ?_⟩
        · rw [longEscape_backslash]
          simp only [List.cons_append, scanLiteral, scanned]
          rfl
        · intro none
          simp [unescape, escapedChar, denotes none]
      · refine ⟨c :: raw, ?_, ?_⟩
        · rw [longEscape_other backslash triple, List.cons_append, scanLiteral,
            if_neg (longEscape_open _ triple double single), scanned]
          · rfl
          · rintro d more rfl
            exact absurd rfl backslash
        · intro none
          rw [unescape_plain backslash, denotes none]
          rfl
  | case5 => exact ⟨[], rfl, fun _ => rfl⟩

end Escaping

/-- A reader finds exactly the model, the system prompt and the user prompt in a document. -/
def CarriesPrompt (document : Text) (request : LlmRequest) : Prop :=
  ∃ statements, readDocument document = some statements ∧
    objects (antennaIri "model") statements = [.literal request.model .string] ∧
    objects (antennaIri "system") statements = [.literal request.system .string] ∧
    objects (antennaIri "prompt") statements = [.literal request.user .string]

section Document

def antennaOnly : Prefixes := fun other => if other = "antenna".toList then some antennaNs else none

def antennaToken (name : String) : Token := .name (.prefixed "antenna".toList name.toList)

def requestHeader : WrittenDirective :=
  ⟨.declare "antenna".toList antennaNs, [' '], [' '], [' '], ['\n']⟩

/-- What leads from an object to the next one. -/
def nextVerb (name : String) : List Written :=
  [(.semicolon, "\n    ".toList), (antennaToken name, [' '])]

def requestFront (requestId : Text) : List Written :=
  [(.blankLabel "req".toList, [' ']), (.isA, [' ']), (antennaToken "LlmRequest", [' '])] ++
    nextVerb "requestId" ++ [(.literal .double requestId .plain, [' '])] ++ nextVerb "model"

def limitTail (maxTokens : Nat) : Text :=
  ' ' :: (render (nextVerb "maxTokens" ++ [(.bare (toString maxTokens).toList, [' '])]) ++ ['.', '\n'])

def promptTail (request : LlmRequest) : Text :=
  ' ' :: (render (nextVerb "prompt") ++ (longLiteral request.user ++ limitTail request.maxTokens))

def systemTail (request : LlmRequest) : Text :=
  ' ' :: (render (nextVerb "system") ++ (longLiteral request.system ++ promptTail request))

theorem requestTurtle_eq (requestId : Text) (request : LlmRequest) :
    requestTurtle requestId request =
      requestHeader.text ++
        (render (requestFront requestId) ++ '"' :: (request.model ++ '"' :: systemTail request)) := by
  have parts : "@prefix antenna: <http://resonator.network/v2/antenna#> .\n_:req a antenna:LlmRequest ;\n    antenna:requestId \"" =
      "@prefix antenna: <" ++ "http://resonator.network/v2/antenna#" ++ "> .\n" ++
        "_:req a antenna:LlmRequest ;\n    antenna:requestId \"" := by decide
  have header : "@prefix antenna: <".toList ++ antennaNs ++ "> .\n".toList = requestHeader.text := by
    unfold requestHeader WrittenDirective.text WrittenDirective.opening WrittenDirective.iri
    generalize antennaNs = space
    simp
  have front : "_:req a antenna:LlmRequest ;\n    antenna:requestId \"".toList =
      render ([(.blankLabel "req".toList, [' ']), (.isA, [' ']),
        (antennaToken "LlmRequest", [' '])] ++ nextVerb "requestId") ++ ['"'] := by decide
  have opening : "@prefix antenna: <http://resonator.network/v2/antenna#> .\n_:req a antenna:LlmRequest ;\n    antenna:requestId \"".toList =
      requestHeader.text ++ (render ([(.blankLabel "req".toList, [' ']), (.isA, [' ']),
        (antennaToken "LlmRequest", [' '])] ++ nextVerb "requestId") ++ ['"']) := by
    rw [parts, String.toList_append, String.toList_append, String.toList_append, front, ← header]
    rfl
  have model : "\" ;\n    antenna:model \"".toList =
      '"' :: ' ' :: (render (nextVerb "model") ++ ['"']) := by decide
  have system : "\" ;\n    antenna:system ".toList = '"' :: ' ' :: render (nextVerb "system") := by
    decide
  have prompt : " ;\n    antenna:prompt ".toList = ' ' :: render (nextVerb "prompt") := by
    decide
  have limit : " ;\n    antenna:maxTokens ".toList = ' ' :: render (nextVerb "maxTokens") := by
    decide
  have last : " .\n".toList = [' ', '.', '\n'] := by decide
  unfold requestTurtle requestFront systemTail promptTail limitTail
  rw [opening, model, system, prompt, limit, last]
  generalize requestHeader.text = header
  simp only [render_append, List.append_assoc, List.cons_append, List.nil_append, render_cons,
    render_nil, Token.text, Quote.text, Suffix.text]

theorem requestHeader_legal : requestHeader.Legal where
  iri := by decide
  label := by decide
  ending := by decide
  spaces := by decide
  apart := .inl (by decide)

theorem requestHeader_declares :
    declarePrefix (fun _ => none) requestHeader.directive = some antennaOnly := by
  have legal : unescapeIri antennaNs = some antennaNs := by decide
  simp only [requestHeader, declarePrefix]
  rw [legal]
  rfl

theorem mem_hexText {value : Nat} {c : Char} (member : c ∈ hexText value) :
    ∃ digit, c = Nat.digitChar digit := by
  unfold hexText at member
  induction value using Nat.strongRecOn with
  | ind value ih =>
      rw [Nat.toDigits_eq_if (by decide)] at member
      split at member
      · exact ⟨value, List.mem_singleton.mp member⟩
      · rename_i large
        rcases List.mem_append.mp member with front | last
        · exact ih (value / 16) (Nat.div_lt_self (by omega) (by decide)) front
        · exact ⟨_, List.mem_singleton.mp last⟩

theorem simpleId_plain (millis count : Nat) :
    ∀ c ∈ simpleId millis count, c ∉ ['"', '\\', '\n', '\r'] := by
  have digits : ∀ value, ∀ c ∈ hexText value, c ∉ ['"', '\\', '\n', '\r'] := by
    intro value c member listed
    obtain ⟨digit, rfl⟩ := mem_hexText member
    simp only [List.mem_cons, List.not_mem_nil, or_false] at listed
    rcases listed with same | same | same | same
    · exact Nat.digitChar_ne '"' (by decide) same
    · exact Nat.digitChar_ne '\\' (by decide) same
    · exact Nat.digitChar_ne '\n' (by decide) same
    · exact Nat.digitChar_ne '\r' (by decide) same
  intro c member
  rcases List.mem_append.mp member with front | back
  · exact digits millis c front
  · rcases List.mem_cons.mp back with rfl | behind
    · decide
    · exact digits count c behind

/-- What the document says in front of the model. -/
def atModel (requestId : Text) : Parse where
  phase := .object (antennaIri "model")
  anonymous := 0
  statement :=
    ⟨.blank "req".toList, [(rdfType, .iri (antennaIri "LlmRequest")),
      (antennaIri "requestId", .literal requestId .string)]⟩

def AntennaWord (name : String) : Prop :=
  (∀ c ∈ name.toList, isNameChar c = true) ∧ startsLocal name.toList = true

theorem antennaToken_sound {name : String} (word : AntennaWord name) :
    (antennaToken name).Readable ∧
      (Name.prefixed "antenna".toList name.toList).iri antennaOnly = some (antennaIri name) :=
  ⟨prefixed_readable (by decide) word.1 (by decide), prefixed_iri (if_pos rfl) word.2 word.1⟩

theorem nextVerb_loose {name : String} (word : AntennaWord name) : Loose (nextVerb name) := by
  have newline : "\n    ".toList ≠ [] ∧ ∀ c ∈ "\n    ".toList, isSpace c = true := by decide
  have space : [' '] ≠ [] ∧ ∀ c ∈ [' '], isSpace c = true := by decide
  intro part member
  simp only [nextVerb, List.mem_cons, List.not_mem_nil, or_false] at member
  rcases member with rfl | rfl
  · exact ⟨trivial, by simp, newline⟩
  · exact ⟨(antennaToken_sound word).1, by simp [antennaToken], space⟩

variable {parse : Parse} {predicate : Text}

theorem reaches_nextVerb {name : String} (word : AntennaWord name) {more rest : Text}
    (phase : parse.phase = .afterObject predicate)
    (split : more = ' ' :: (render (nextVerb name) ++ rest)) :
    parse.Reaches antennaOnly more { parse with phase := .object (antennaIri name) } rest := by
  have space : ∀ c ∈ [' '], isSpace c = true := by decide
  have names := (antennaToken_sound word).2
  have stepped : parse.steps antennaOnly ((nextVerb name).map Prod.fst) =
      some { parse with phase := .object (antennaIri name) } := by
    simp only [nextVerb, antennaToken, List.map_cons, List.map_nil, Parse.steps_cons, Parse.steps_nil,
      Parse.step, phase, Option.bind_some, Turtle.verb, names, Option.map_some]
  rw [split]
  exact (Parse.Reaches.gap space).trans (Parse.Reaches.render (nextVerb_loose word) stepped)

/-- An escaped text whose last quotes were all escaped is an object with that value. -/
theorem reaches_long {text rest : Text} (phase : parse.phase = .object predicate)
    (spared : leftOver text = 0) :
    parse.Reaches antennaOnly (longLiteral text ++ ' ' :: rest)
      (parse.holding predicate (.literal text .string)) (' ' :: rest) := by
  obtain ⟨raw, scanned, denotes⟩ := scanLiteral_longEscape text (' ' :: rest)
  rw [spared] at scanned
  have read := readToken_long scanned (by simp)
  have split : longLiteral text ++ ' ' :: rest =
      '"' :: '"' :: '"' :: (longEscape text ++ '"' :: '"' :: '"' :: (' ' :: rest)) := by
    simp [longLiteral_eq]
  rw [split]
  refine .token (skipBlank_visible (by decide) (by decide)) read ?_
    (Parse.step_literal phase rfl (denotes spared)) (by simp [Parse.holding])
  simp
  omega

/-- Any other escaped text closes its literal too early. -/
theorem run_long {text rest : Text} (phase : parse.phase = .object predicate)
    (kept : leftOver text ≠ 0) (fuel : Nat) :
    parse.run antennaOnly fuel (longLiteral text ++ ' ' :: rest) = none := by
  obtain ⟨raw, scanned, -⟩ := scanLiteral_longEscape text (' ' :: rest)
  obtain ⟨count, more⟩ := Nat.exists_eq_succ_of_ne_zero kept
  rw [more, List.replicate_succ, List.cons_append] at scanned
  have read := readToken_long scanned (by simp)
  have split : longLiteral text ++ ' ' :: rest =
      '"' :: '"' :: '"' :: (longEscape text ++ '"' :: '"' :: '"' :: (' ' :: rest)) := by
    simp [longLiteral_eq]
  cases fuel with
  | zero => rfl
  | succ fuel =>
      rw [split, Parse.run, skipBlank_visible (by decide) (by decide), read, Option.bind_some]
      dsimp only
      cases stepped : parse.step antennaOnly (.literal .longDouble raw .plain) with
      | none => rfl
      | some next =>
          simp only [Parse.step, phase, Option.map_eq_some_iff] at stepped
          obtain ⟨term, -, rfl⟩ := stepped
          exact Parse.run_literal rfl fuel _

theorem reaches_plain {text rest : Text} (phase : parse.phase = .object predicate)
    (plain : ∀ c ∈ text, c ∉ ['"', '\\', '\n', '\r']) :
    parse.Reaches antennaOnly ('"' :: (text ++ '"' :: (' ' :: rest)))
      (parse.holding predicate (.literal text .string)) (' ' :: rest) := by
  obtain ⟨enclosed, denotes, allowed⟩ := plain_content plain
  have read := readToken_literal enclosed (@readSuffix_other (' ' :: rest) (by simp)) (by simp)
  refine .token (skipBlank_visible (by decide) (by decide)) read ?_
    (Parse.step_literal phase allowed denotes) (by simp [Parse.holding])
  simp
  omega

theorem reaches_model {requestId : Text} (rest : Text)
    (plain : ∀ c ∈ requestId, c ∉ ['"', '\\', '\n', '\r']) :
    Parse.start.Reaches antennaOnly (render (requestFront requestId) ++ rest) (atModel requestId) rest := by
  have words : AntennaWord "LlmRequest" ∧ AntennaWord "requestId" ∧ AntennaWord "model" := by
    unfold AntennaWord
    decide
  obtain ⟨request, own, model⟩ := words
  obtain ⟨enclosed, denotes, allowed⟩ := plain_content plain
  have space : [' '] ≠ [] ∧ ∀ c ∈ [' '], isSpace c = true := by decide
  apply Parse.Reaches.render
  · have label : Token.Readable (.blankLabel "req".toList) := by
      show PlainWord _
      unfold PlainWord
      decide
    have first : Loose [(.blankLabel "req".toList, [' ']), (.isA, [' ']),
        (antennaToken "LlmRequest", [' '])] := by
      intro part member
      simp only [List.mem_cons, List.not_mem_nil, or_false] at member
      rcases member with rfl | rfl | rfl
      · exact ⟨label, by simp, space⟩
      · exact ⟨trivial, by simp, space⟩
      · exact ⟨(antennaToken_sound request).1, by simp [antennaToken], space⟩
    have literal : Loose [(.literal .double requestId .plain, [' '])] := by
      intro part member
      obtain rfl := List.mem_singleton.mp member
      exact ⟨⟨rfl, enclosed, trivial⟩, by simp, space⟩
    exact List.forall_mem_append.mpr ⟨List.forall_mem_append.mpr ⟨List.forall_mem_append.mpr
      ⟨first, nextVerb_loose own⟩, literal⟩, nextVerb_loose model⟩
  · have names := (antennaToken_sound request).2
    have ownNames := (antennaToken_sound own).2
    have modelNames := (antennaToken_sound model).2
    simp only [requestFront, nextVerb, antennaToken, List.map_cons, List.map_nil, List.cons_append,
      List.nil_append, Parse.steps_cons, Parse.steps_nil, Parse.step, Parse.start,
      isSubject, Token.term, Token.anonymousCount, if_true, Option.bind_some, Option.map_some,
      Turtle.verb, names, ownNames, modelNames, denotes, allowed, Suffix.kind]
    rfl

def atSystem (requestId : Text) (request : LlmRequest) : Parse :=
  { (atModel requestId).holding (antennaIri "model") (.literal request.model .string) with
    phase := .object (antennaIri "system") }

def atPrompt (requestId : Text) (request : LlmRequest) : Parse :=
  { (atSystem requestId request).holding (antennaIri "system") (.literal request.system .string) with
    phase := .object (antennaIri "prompt") }

variable {requestId : Text} {request : LlmRequest}

theorem reaches_system (plain : ∀ c ∈ request.model, c ∉ ['"', '\\', '\n', '\r']) :
    (atModel requestId).Reaches antennaOnly ('"' :: (request.model ++ '"' :: systemTail request))
      (atSystem requestId request) (longLiteral request.system ++ promptTail request) := by
  have word : AntennaWord "system" := by
    unfold AntennaWord
    decide
  exact (reaches_plain rfl plain).trans (reaches_nextVerb word rfl rfl)

theorem reaches_prompt (spared : leftOver request.system = 0) :
    (atSystem requestId request).Reaches antennaOnly (longLiteral request.system ++ promptTail request)
      (atPrompt requestId request) (longLiteral request.user ++ limitTail request.maxTokens) := by
  have word : AntennaWord "prompt" := by
    unfold AntennaWord
    decide
  exact (reaches_long rfl spared).trans (reaches_nextVerb word rfl rfl)

/-- The facts of a request whose texts are all read back. -/
def requestFacts (requestId : Text) (request : LlmRequest) : List (Text × Turtle.Term) :=
  [(rdfType, .iri (antennaIri "LlmRequest")), (antennaIri "requestId", .literal requestId .string),
    (antennaIri "model", .literal request.model .string),
    (antennaIri "system", .literal request.system .string),
    (antennaIri "prompt", .literal request.user .string),
    (antennaIri "maxTokens", .literal (toString request.maxTokens).toList (.typed (xsd "integer")))]

theorem run_request (plain : ∀ c ∈ request.model, c ∉ ['"', '\\', '\n', '\r'])
    (system : leftOver request.system = 0) (user : leftOver request.user = 0) {fuel : Nat}
    (enough : ('"' :: (request.model ++ '"' :: systemTail request)).length ≤ fuel) :
    (atModel requestId).run antennaOnly fuel ('"' :: (request.model ++ '"' :: systemTail request)) =
      some (⟨.finished, 0, ⟨.blank "req".toList, requestFacts requestId request⟩⟩, ['\n']) := by
  have word : AntennaWord "maxTokens" := by
    unfold AntennaWord
    decide
  have space : [' '] ≠ [] ∧ ∀ c ∈ [' '], isSpace c = true := by decide
  have limit : bareKind (toString request.maxTokens).toList = some (.typed (xsd "integer")) := by
    rw [toString_decimal, bareKind_decimal]
  have readable : Token.Readable (.bare (toString request.maxTokens).toList) := by
    rw [toString_decimal]
    exact (decimal_writes request.maxTokens).readable
  let last : Parse :=
    ⟨.afterObject (antennaIri "maxTokens"), 0, ⟨.blank "req".toList, requestFacts requestId request⟩⟩
  have ending : ((atPrompt requestId request).holding (antennaIri "prompt")
      (.literal request.user .string)).Reaches antennaOnly (limitTail request.maxTokens) last
      ['.', '\n'] := by
    have bare : Loose [(.bare (toString request.maxTokens).toList, [' '])] := by
      intro part member
      obtain rfl := List.mem_singleton.mp member
      exact ⟨readable, by simp, space⟩
    have loose : Loose (nextVerb "maxTokens" ++ [(.bare (toString request.maxTokens).toList, [' '])]) :=
      List.forall_mem_append.mpr ⟨nextVerb_loose word, bare⟩
    have names := (antennaToken_sound word).2
    have stepped : Parse.steps antennaOnly ((atPrompt requestId request).holding (antennaIri "prompt")
        (.literal request.user .string)) ((nextVerb "maxTokens" ++
          [(Token.bare (toString request.maxTokens).toList, [' '])]).map Prod.fst) = some last := by
      simp only [nextVerb, antennaToken, List.map_cons, List.map_nil, List.cons_append, List.nil_append,
        Parse.steps_cons, Parse.steps_nil, Parse.step, Parse.holding, Option.bind_some, Turtle.verb, names,
        Option.map_some, Token.term, limit]
      rfl
    exact (Parse.Reaches.gap space.2).trans (Parse.Reaches.render loose stepped)
  have whole := (reaches_system plain).trans ((reaches_prompt system).trans
    ((reaches_long rfl user).trans ending))
  obtain ⟨left, more, same⟩ := whole fuel enough
  obtain ⟨left, rfl⟩ : ∃ less, left = less + 1 := ⟨left - 1, by simp at more; omega⟩
  rw [same, Parse.run_dot rfl]

theorem readDocument_request (plain : ∀ c ∈ requestId, c ∉ ['"', '\\', '\n', '\r'])
    (request : LlmRequest) :
    ∃ left fuel, ('"' :: (request.model ++ '"' :: systemTail request)).length ≤ left ∧
      readDocument (requestTurtle requestId request) =
        ((atModel requestId).run antennaOnly left
          ('"' :: (request.model ++ '"' :: systemTail request))).bind fun (parse, rest) =>
            (readStatements fuel antennaOnly parse.anonymous rest).map (parse.statement :: ·) := by
  obtain ⟨body, starts⟩ : ∃ body, render (requestFront requestId) ++
      '"' :: (request.model ++ '"' :: systemTail request) = '_' :: body := ⟨_, rfl⟩
  obtain ⟨fuel, read⟩ := @readDocument_declared _ _ '_' body requestHeader_legal
    requestHeader_declares (by decide) (by decide)
  rw [← starts] at read
  obtain ⟨left, enough, same⟩ := reaches_model ('"' :: (request.model ++ '"' :: systemTail request))
    plain _ le_rfl
  refine ⟨left, fuel, enough, ?_⟩
  rw [requestTurtle_eq, read, same]

theorem antennaIri_inj {left right : String} : antennaIri left = antennaIri right ↔ left = right := by
  rw [antennaIri, antennaIri, List.append_cancel_left_eq, String.toList_inj]

/-- In front of the model the document has no object of the model's predicate. -/
theorem model_of_readDocument (plain : ∀ c ∈ requestId, c ∉ ['"', '\\', '\n', '\r'])
    {statements : List Statement} (read : readDocument (requestTurtle requestId request) = some statements)
    (model : objects (antennaIri "model") statements = [.literal request.model .string]) :
    ∀ c ∈ request.model, c ∉ ['"', '\\', '\n', '\r'] := by
  obtain ⟨left, fuel, -, same⟩ := readDocument_request plain request
  rw [same] at read
  obtain ⟨⟨final, rest⟩, ran, more⟩ := Option.bind_eq_some_iff.mp read
  obtain ⟨others, -, rfl⟩ := Option.map_eq_some_iff.mp more
  obtain ⟨token, behind, term, taken, denotes, facts⟩ :=
    Parse.fact_of_run rfl (skipBlank_visible (by decide) (by decide)) ran
  have fresh : ∀ fact ∈ (atModel requestId).statement.facts, fact.1 ≠ antennaIri "model" := by
    intro fact member
    simp only [atModel, List.mem_cons, List.not_mem_nil, or_false] at member
    rcases member with rfl | rfl
    · exact (antennaIri_ne_type "model").symm
    · rw [ne_eq, antennaIri_inj]
      decide
  have first := objects_first others fresh facts
  rw [model, List.head?_cons, Option.some.injEq] at first
  subst first
  obtain ⟨back, tail⟩ : ∃ back, systemTail request = [' ', ';'] ++ '\n' :: back := ⟨_, rfl⟩
  rw [tail] at taken
  exact unescaped_of_literal (by decide) taken denotes

/-- When a prompt closes its literal too early, the document is refused. -/
theorem spared_of_readDocument (plain : ∀ c ∈ requestId, c ∉ ['"', '\\', '\n', '\r'])
    (model : ∀ c ∈ request.model, c ∉ ['"', '\\', '\n', '\r'])
    (read : (readDocument (requestTurtle requestId request)).isSome) :
    leftOver request.system = 0 ∧ leftOver request.user = 0 := by
  obtain ⟨left, fuel, enough, same⟩ := readDocument_request plain request
  obtain ⟨left, enough, atSystem⟩ := reaches_system model left enough
  rw [same, atSystem] at read
  have system : leftOver request.system = 0 := by
    by_contra kept
    rw [promptTail, run_long rfl kept] at read
    cases read
  refine ⟨system, ?_⟩
  obtain ⟨left, enough, atPrompt⟩ := reaches_prompt system left enough
  rw [atPrompt] at read
  by_contra kept
  rw [limitTail, run_long rfl kept] at read
  cases read

theorem carriesPrompt_of_spared (plain : ∀ c ∈ requestId, c ∉ ['"', '\\', '\n', '\r'])
    (model : ∀ c ∈ request.model, c ∉ ['"', '\\', '\n', '\r'])
    (system : leftOver request.system = 0) (user : leftOver request.user = 0) :
    CarriesPrompt (requestTurtle requestId request) request := by
  obtain ⟨left, fuel, enough, same⟩ := readDocument_request plain request
  have type : ∀ name, rdfType ≠ antennaIri name := fun name => (antennaIri_ne_type name).symm
  have found : ∀ name, objects (antennaIri name)
      [⟨.blank "req".toList, requestFacts requestId request⟩] =
        (requestFacts requestId request).filterMap
          fun fact => if fact.1 = antennaIri name then some fact.2 else none := fun name => by
    rw [objects, List.flatMap_cons, List.flatMap_nil, List.append_nil]
  refine ⟨[⟨.blank "req".toList, requestFacts requestId request⟩], ?_, ?_, ?_, ?_⟩
  · rw [same, run_request model system user enough, Option.bind_some]
    dsimp only
    rw [readStatements_blank rfl]
    rfl
  · rw [found]
    simp [requestFacts, type, antennaIri_inj]
  · rw [found]
    simp [requestFacts, type, antennaIri_inj]
  · rw [found]
    simp [requestFacts, type, antennaIri_inj]

end Document

theorem longLiteral_reads_iff (text : Text) :
    (∃ raw, readToken (longLiteral text) = some (.literal .longDouble raw .plain, []) ∧
      unescape raw = some text) ↔ leftOver text = 0 := by
  obtain ⟨raw, scanned, denotes⟩ := scanLiteral_longEscape text []
  have other : ∀ c ∈ (List.replicate (leftOver text) '"' ++ []).head?, c ∉ ['@', '^'] := by
    cases leftOver text <;> simp [List.replicate_succ]
  rw [longLiteral_eq, readToken_long scanned other]
  constructor
  · rintro ⟨found, same, -⟩
    simpa using congrArg (Option.map Prod.snd) same
  · intro spared
    exact ⟨raw, by rw [spared]; rfl, denotes spared⟩

/-- A request document carries its texts exactly if the model needs no escape and the quotes at the
end of both prompts come in threes; so it is with the escaped literal by itself. -/
theorem request_carries_iff (text : Text) (millis count : Nat) (request : LlmRequest) :
    ((∃ raw, readToken (longLiteral text) = some (.literal .longDouble raw .plain, []) ∧
        unescape raw = some text) ↔ trailingQuotes text % 3 = 0) ∧
      (CarriesPrompt (requestTurtle (simpleId millis count) request) request ↔
        (∀ c ∈ request.model, c ∉ ['"', '\\', '\n', '\r']) ∧
          trailingQuotes request.system % 3 = 0 ∧ trailingQuotes request.user % 3 = 0) := by
  simp only [← leftOver_eq]
  refine ⟨longLiteral_reads_iff text, ?_⟩
  have plain := simpleId_plain millis count
  constructor
  · rintro ⟨statements, read, model, -, -⟩
    have unescaped := model_of_readDocument plain read model
    exact ⟨unescaped, spared_of_readDocument plain unescaped (by rw [read]; rfl)⟩
  · rintro ⟨model, system, user⟩
    exact carriesPrompt_of_spared plain model system user

def quotedRequest : LlmRequest := ⟨"qwen3.5".toList, [], "say \"hi\"".toList, 512⟩

/-- A prompt that ends in a quote makes its request unreadable. -/
theorem quoted_prompt_lost :
    ¬ CarriesPrompt (requestTurtle (simpleId 1700000000000 1) quotedRequest) quotedRequest := by
  rintro ⟨statements, read, -⟩
  have plain := simpleId_plain 1700000000000 1
  have model : ∀ c ∈ quotedRequest.model, c ∉ ['"', '\\', '\n', '\r'] := by decide
  have spared := (spared_of_readDocument plain model (by rw [read]; rfl)).2
  revert spared
  decide

end LeanAntenna
