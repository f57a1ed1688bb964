import Antenna.JsonChecks
import Antenna.Library.JsonValue

/-!
The backends that speak HTTP to a language model: the body of a request is put together by
`format!`, with the texts of the request escaped and the name of the model as it is.
-/

namespace LeanAntenna

open Text Json

structure OllamaBackend where
  endpoint : Text
  model : Text
deriving DecidableEq, Repr

structure HttpBackend where
  endpoint : Text
  model : Text
deriving DecidableEq, Repr

/-- `trim_end_matches('/')` -/
def trimSlashes (endpoint : Text) : Text := endpoint.rdropWhile (· = '/')

def decimalText (value : UInt32) : Text := (toString value.toNat).toList

namespace OllamaBackend

def new (endpoint model : Text) : OllamaBackend := ⟨trimSlashes endpoint, model⟩

def url (backend : OllamaBackend) : Text := backend.endpoint ++ "/api/generate".toList

def body (backend : OllamaBackend) (system user : Text) (maxTokens : UInt32) : Text :=
  "\x7b\"model\":\"".toList ++ backend.model ++ "\",\"system\":".toList ++ jsonEscape system ++
    ",\"prompt\":".toList ++ jsonEscape user ++
    ",\"stream\":false,\"options\":\x7b\"num_predict\":".toList ++ decimalText maxTokens ++
    "\x7d\x7d".toList

/-- `post` sends a body to a URL and returns the text of the response. -/
def complete (post : Text → Text → Except Text Text) (backend : OllamaBackend) (system user : Text)
    (maxTokens : UInt32) : Except Text Text := do
  let text ← post backend.url (backend.body system user maxTokens)
  extractJsonField text "response".toList

end OllamaBackend

namespace HttpBackend

def new (endpoint model : Text) : HttpBackend := ⟨trimSlashes endpoint, model⟩

def url (backend : HttpBackend) : Text := backend.endpoint ++ "/chat/completions".toList

def body (backend : HttpBackend) (system user : Text) (maxTokens : UInt32) : Text :=
  "\x7b\"model\":\"".toList ++ backend.model ++
    "\",\"messages\":[\x7b\"role\":\"system\",\"content\":".toList ++ jsonEscape system ++
    "\x7d,\x7b\"role\":\"user\",\"content\":".toList ++ jsonEscape user ++
    "\x7d],\"max_tokens\":".toList ++ decimalText maxTokens ++ "\x7d".toList

def complete (post : Text → Text → Except Text Text) (backend : HttpBackend) (system user : Text)
    (maxTokens : UInt32) : Except Text Text := do
  let text ← post backend.url (backend.body system user maxTokens)
  extractNestedContent text

end HttpBackend

/-- What a request to Ollama should say. -/
def ollamaRequest (model system user limit : Text) : Value :=
  .object [("model".toList, .string model), ("system".toList, .string system),
    ("prompt".toList, .string user), ("stream".toList, .boolean false),
    ("options".toList, .object [("num_predict".toList, .number limit)])]

def messageValue (role content : Text) : Value :=
  .object [("role".toList, .string role), ("content".toList, .string content)]

/-- What a request for a chat completion should say. -/
def chatRequest (model system user limit : Text) : Value :=
  .object [("model".toList, .string model),
    ("messages".toList, .array [messageValue "system".toList system, messageValue "user".toList user]),
    ("max_tokens".toList, .number limit)]

/-- The text is one JSON object, the request for these arguments. -/
def Requests (request : Text → Text → Text → Text → Value) (text model system user : Text)
    (maxTokens : UInt32) : Prop :=
  ∃ limit, Document text (request model system user limit) ∧
    Nat.ofDigitChars 10 limit 0 = maxTokens.toNat

theorem reads_jsonEscape (text : Text) : Reads (jsonEscape text) (.string text) := by
  rw [jsonEscape_literal]
  exact .string (jsonEscape_denotes text)

theorem decimalText_eq (value : UInt32) : decimalText value = Nat.toDigits 10 value.toNat :=
  Nat.toList_repr

theorem reads_decimalText (value : UInt32) : Reads (decimalText value) (.number (decimalText value)) := by
  rw [decimalText_eq]
  exact .number (isNumber_toDigits value.toNat)

theorem decimalText_value (value : UInt32) :
    Nat.ofDigitChars 10 (decimalText value) 0 = value.toNat := by
  rw [decimalText_eq, Nat.ofDigitChars_ten_toDigits]

/-- The names of the members and the other fixed texts need no escapes. -/
theorem fixed_bare : ∀ name ∈ ["model", "system", "prompt", "stream", "options", "num_predict",
    "messages", "role", "content", "max_tokens", "user"], Bare name.toList := by decide

section Shape

variable (model system user : Text) (maxTokens : UInt32)

/-- The members of a request to Ollama behind its model. -/
def ollamaRest : Text :=
  bareMember "system".toList (jsonEscape system) ++
    ',' :: (bareMember "prompt".toList (jsonEscape user) ++
      ',' :: (bareMember "stream".toList (toString false).toList ++
        ',' :: bareMember "options".toList
          ('{' :: bareMember "num_predict".toList (decimalText maxTokens) ++ ['}'])))

theorem ollama_fixed :
    "\x7b\"model\":\"".toList = '{' :: quoted "model".toList ++ [':', '"'] ∧
      "\",\"system\":".toList = '"' :: ',' :: quoted "system".toList ++ [':'] ∧
      ",\"prompt\":".toList = ',' :: quoted "prompt".toList ++ [':'] ∧
      ",\"stream\":false,\"options\":\x7b\"num_predict\":".toList =
        ',' :: quoted "stream".toList ++ ':' :: (toString false).toList ++
          ',' :: quoted "options".toList ++ ':' :: '{' :: quoted "num_predict".toList ++ [':'] ∧
      "\x7d\x7d".toList = ['}', '}'] := by
  decide

theorem ollama_body_eq (endpoint : Text) :
    (OllamaBackend.new endpoint model).body system user maxTokens =
      '{' :: bareMember "model".toList (quoted model) ++
        (',' :: ollamaRest system user maxTokens ++ ['}']) := by
  obtain ⟨first, second, third, fourth, last⟩ := ollama_fixed
  unfold OllamaBackend.body ollamaRest bareMember
  rw [first, second, third, fourth, last]
  generalize "model".toList = one
  generalize "system".toList = two
  simp only [quoted, OllamaBackend.new, List.append_assoc, List.cons_append, List.nil_append]

/-- The members of a chat completion behind its model. -/
def chatRest : Text :=
  bareMember "messages".toList
      ('[' :: (('{' :: (bareMember "role".toList (quoted "system".toList) ++
            ',' :: bareMember "content".toList (jsonEscape system)) ++ ['}']) ++
          ',' :: ('{' :: (bareMember "role".toList (quoted "user".toList) ++
            ',' :: bareMember "content".toList (jsonEscape user)) ++ ['}'])) ++ [']']) ++
    ',' :: bareMember "max_tokens".toList (decimalText maxTokens)

theorem chat_fixed :
    "\x7b\"model\":\"".toList = '{' :: quoted "model".toList ++ [':', '"'] ∧
      "\",\"messages\":[\x7b\"role\":\"system\",\"content\":".toList =
        '"' :: ',' :: quoted "messages".toList ++ ':' :: '[' :: '{' :: quoted "role".toList ++
          ':' :: quoted "system".toList ++ ',' :: quoted "content".toList ++ [':'] ∧
      "\x7d,\x7b\"role\":\"user\",\"content\":".toList =
        '}' :: ',' :: '{' :: quoted "role".toList ++ ':' :: quoted "user".toList ++
          ',' :: quoted "content".toList ++ [':'] ∧
      "\x7d],\"max_tokens\":".toList = '}' :: ']' :: ',' :: quoted "max_tokens".toList ++ [':'] ∧
      "\x7d".toList = ['}'] := by
  decide

theorem chat_body_eq (endpoint : Text) :
    (HttpBackend.new endpoint model).body system user maxTokens =
      '{' :: bareMember "model".toList (quoted model) ++
        (',' :: chatRest system user maxTokens ++ ['}']) := by
  obtain ⟨first, second, third, fourth, last⟩ := chat_fixed
  unfold HttpBackend.body chatRest bareMember
  rw [first, second, third, fourth, last]
  simp only [quoted, HttpBackend.new, List.append_assoc, List.cons_append, List.nil_append]

theorem ollamaRest_reads :
    ReadsMembers (ollamaRest system user maxTokens)
      [("system".toList, .string system), ("prompt".toList, .string user),
        ("stream".toList, .boolean false),
        ("options".toList, .object [("num_predict".toList, .number (decimalText maxTokens))])] := by
  have bare := fixed_bare
  have limit := readsMembers_last (bare "num_predict" (by decide)) (reads_decimalText maxTokens)
  refine readsMembers_more (bare "system" (by decide)) (reads_jsonEscape system) ?_
  refine readsMembers_more (bare "prompt" (by decide)) (reads_jsonEscape user) ?_
  refine readsMembers_more (bare "stream" (by decide)) (.boolean false) ?_
  exact readsMembers_last (bare "options" (by decide)) (.object limit)

theorem reads_message {role : String} (listed : role ∈ ["system", "user"]) (content : Text) :
    Reads ('{' :: (bareMember "role".toList (quoted role.toList) ++
        ',' :: bareMember "content".toList (jsonEscape content)) ++ ['}'])
      (messageValue role.toList content) := by
  have bare := fixed_bare
  have named : ∀ role ∈ ["system", "user"], Bare role.toList := by decide
  refine .object (readsMembers_more (bare "role" (by decide)) (reads_bare (named role listed)) ?_)
  exact readsMembers_last (bare "content" (by decide)) (reads_jsonEscape content)

theorem chatRest_reads :
    ReadsMembers (chatRest system user maxTokens)
      [("messages".toList,
          .array [messageValue "system".toList system, messageValue "user".toList user]),
        ("max_tokens".toList, .number (decimalText maxTokens))] := by
  have bare := fixed_bare
  have first := reads_message (by decide : "system" ∈ ["system", "user"]) system
  have second := reads_message (by decide : "user" ∈ ["system", "user"]) user
  have both := readsElements_more first (readsElements_last second)
  refine readsMembers_more (bare "messages" (by decide)) (.array both) ?_
  exact readsMembers_last (bare "max_tokens" (by decide)) (reads_decimalText maxTokens)

end Shape

/-- A body with the model between quotes as it is, in front of members that are written right. -/
theorem requests_iff {request : Text → Text → Text → Text → Value} {text model system user rest : Text}
    {maxTokens : UInt32} {others : Text → List (Text × Value)}
    (shape : text = '{' :: bareMember "model".toList (quoted model) ++ (',' :: rest ++ ['}']))
    (asks : ∀ limit, request model system user limit =
      .object (("model".toList, .string model) :: others limit))
    (reads : ReadsMembers rest (others (decimalText maxTokens))) :
    Requests request text model system user maxTokens ↔ Bare model := by
  have named := fixed_bare "model" (by decide)
  constructor
  · rintro ⟨limit, document, -⟩
    rw [shape, asks] at document
    exact document.bare_of_first
  · intro bare
    refine ⟨decimalText maxTokens, ?_, decimalText_value maxTokens⟩
    rw [asks, shape]
    have whole := Reads.object (readsMembers_more named (reads_bare bare) reads)
    simpa using whole.document

theorem ollama_requests_iff (endpoint model system user : Text) (maxTokens : UInt32) :
    Requests ollamaRequest ((OllamaBackend.new endpoint model).body system user maxTokens)
      model system user maxTokens ↔ Bare model :=
  requests_iff (ollama_body_eq model system user maxTokens endpoint) (fun _ => rfl)
    (ollamaRest_reads system user maxTokens)

theorem chat_requests_iff (endpoint model system user : Text) (maxTokens : UInt32) :
    Requests chatRequest ((HttpBackend.new endpoint model).body system user maxTokens)
      model system user maxTokens ↔ Bare model :=
  requests_iff (chat_body_eq model system user maxTokens endpoint) (fun _ => rfl)
    (chatRest_reads system user maxTokens)

/-- The body of a request is the JSON object with exactly its arguments if the model's name needs no
escape, and only then. -/
theorem request_bodies_iff (endpoint model system user : Text) (maxTokens : UInt32) :
    (Requests ollamaRequest ((OllamaBackend.new endpoint model).body system user maxTokens)
        model system user maxTokens ↔ Bare model) ∧
      (Requests chatRequest ((HttpBackend.new endpoint model).body system user maxTokens)
        model system user maxTokens ↔ Bare model) :=
  ⟨ollama_requests_iff endpoint model system user maxTokens,
    chat_requests_iff endpoint model system user maxTokens⟩

/-- A model whose name has quotes in it, as a literal of the router's graph may. -/
theorem quoted_model_breaks :
    ¬ Requests ollamaRequest ((OllamaBackend.new [] "say \"hi\"".toList).body [] [] 1)
        "say \"hi\"".toList [] [] 1 ∧
      ¬ Requests chatRequest ((HttpBackend.new [] "say \"hi\"".toList).body [] [] 1)
        "say \"hi\"".toList [] [] 1 := by
  have escaped : ¬ Bare "say \"hi\"".toList := by decide
  rw [ollama_requests_iff, chat_requests_iff]
  exact ⟨escaped, escaped⟩

end LeanAntenna
