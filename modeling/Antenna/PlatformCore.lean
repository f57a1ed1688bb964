import Antenna.Library.Text
import Antenna.Library.Transition

/-!
The platform LLM backends over their shared response channel: `PlatformBackend::complete` sends a
request with a new id and receives until a response holds that id.
-/

namespace LeanAntenna

open Text

/-- The digits of `{:x}`. -/
def hexText (value : Nat) : Text := Nat.toDigits 16 value

/-- `simple_id` at a time in milliseconds and a count of the requests. -/
def simpleId (millis count : Nat) : Text := hexText millis ++ '-' :: hexText count

def escapeTripleQuotes : Text → Text
  | '"' :: '"' :: '"' :: rest => "\\\"\\\"\\\"".toList ++ escapeTripleQuotes rest
  | c :: rest => c :: escapeTripleQuotes rest
  | [] => []

/-- `llm::turtle_escape` -/
def longLiteral (text : Text) : Text :=
  let escaped := escapeTripleQuotes (text.flatMap fun c => if c = '\\' then ['\\', '\\'] else [c])
  "\"\"\"".toList ++ escaped ++ "\"\"\"".toList

structure LlmRequest where
  model : Text
  system : Text
  user : Text
  maxTokens : Nat
deriving DecidableEq, Repr

def requestTurtle (requestId : Text) (request : LlmRequest) : Text :=
  "@prefix antenna: <http://resonator.network/v2/antenna#> .\n_:req a antenna:LlmRequest ;\n    antenna:requestId \"".toList ++
    requestId ++ "\" ;\n    antenna:model \"".toList ++ request.model ++
    "\" ;\n    antenna:system ".toList ++ longLiteral request.system ++
    " ;\n    antenna:prompt ".toList ++ longLiteral request.user ++
    " ;\n    antenna:maxTokens ".toList ++ (toString request.maxTokens).toList ++ " .\n".toList

/-- The loop of `parse_turtle_string` behind the opening quote. -/
def readCompletion (out : Text) : Text → Except Text Text
  | [] => .error "unterminated string".toList
  | '"' :: _ => .ok out
  | '\\' :: '"' :: rest => readCompletion (out ++ ['"']) rest
  | '\\' :: '\\' :: rest => readCompletion (out ++ ['\\']) rest
  | '\\' :: 'n' :: rest => readCompletion (out ++ ['\n']) rest
  | '\\' :: 't' :: rest => readCompletion (out ++ ['\t']) rest
  | '\\' :: _ :: rest => readCompletion (out ++ ['?']) rest
  | ['\\'] => .error "unterminated string".toList
  | c :: rest => readCompletion (out ++ [c]) rest

def parseTurtleString : Text → Except Text Text
  | '"' :: rest => readCompletion [] rest
  | _ => .error "expected '\"'".toList

def extractTurtleCompletion (turtle : Text) : Except Text Text :=
  match behind turtle "antenna:completion".toList with
  | none => .error "no antenna:completion in response".toList
  | some found =>
      match trimStart found with
      | '"' :: '"' :: '"' :: rest =>
          match find rest "\"\"\"".toList with
          | some (completion, _) => .ok completion
          | none => .error "unterminated triple-quoted literal".toList
      | '"' :: rest => parseTurtleString ('"' :: rest)
      | _ => .error "unexpected token after antenna:completion".toList

/-- A response of the host: whatever its text is, it names the request that it answers. -/
structure LlmResponse where
  requestId : Text
  turtle : Text
  names : requestId <:+: turtle
deriving DecidableEq

/-- What a `complete` call returned, and the response that it took the completion from. -/
structure Completed where
  requestId : Text
  response : LlmResponse
  result : Except Text Text

/-- The two shared channels with the `complete` calls that wait. `completed` and `lost` record the
calls that returned and the responses that were discarded while their request waited. -/
structure PlatformChannels where
  count : Nat
  requests : List Text
  responses : List LlmResponse
  waiting : List (Nat × Text)
  completed : List Completed
  lost : List LlmResponse

inductive PlatformAction where
  | complete (backend millis : Nat) (request : LlmRequest)
  | respond (response : LlmResponse)
  | receive (backend : Nat)
  | timeout (backend : Nat)

namespace PlatformChannels

def start : PlatformChannels := ⟨1, [], [], [], [], []⟩

/-- The id of the request whose response the backend waits for. -/
def awaited (state : PlatformChannels) (backend : Nat) : Option Text := state.waiting.lookup backend

def Awaits (state : PlatformChannels) (requestId : Text) : Prop :=
  requestId ∈ state.waiting.map Prod.snd

instance (state : PlatformChannels) (requestId : Text) : Decidable (state.Awaits requestId) :=
  inferInstanceAs (Decidable (_ ∈ _))

def release (state : PlatformChannels) (backend : Nat) : PlatformChannels :=
  { state with waiting := state.waiting.filter (·.1 ≠ backend) }

def complete (state : PlatformChannels) (backend millis : Nat) (request : LlmRequest) :
    Option PlatformChannels :=
  match state.awaited backend with
  | some _ => none
  | none =>
      let requestId := simpleId millis state.count
      some { state with
        count := state.count + 1
        requests := state.requests ++ [requestTurtle requestId request]
        waiting := state.waiting ++ [(backend, requestId)] }

/-- The host answers a request that waits. -/
def respond (state : PlatformChannels) (response : LlmResponse) : Option PlatformChannels :=
  if state.Awaits response.requestId then
    some { state with responses := state.responses ++ [response] }
  else none

/-- One message of the receive loop: a call returns on the first one that contains its id, and drops
all others. -/
def receive (state : PlatformChannels) (backend : Nat) : Option PlatformChannels :=
  match state.awaited backend, state.responses with
  | some own, response :: rest =>
      let popped := { state with responses := rest }
      if contains response.turtle own then
        some { popped.release backend with
          completed := state.completed ++
            [⟨own, response, extractTurtleCompletion response.turtle⟩] }
      else some { popped with
        lost := if state.Awaits response.requestId then state.lost ++ [response]
          else state.lost }
  | _, _ => none

/-- The deadline of 120 seconds. -/
def timeout (state : PlatformChannels) (backend : Nat) : Option PlatformChannels :=
  match state.awaited backend with
  | some _ => some (state.release backend)
  | none => none

def step (state : PlatformChannels) : PlatformAction → Option PlatformChannels
  | .complete backend millis request => state.complete backend millis request
  | .respond response => state.respond response
  | .receive backend => state.receive backend
  | .timeout backend => state.timeout backend

/-- Every call returned what answers its own request, and no awaited response was discarded. -/
structure Faithful (state : PlatformChannels) : Prop where
  own : ∀ call ∈ state.completed, call.response.requestId = call.requestId
  kept : state.lost = []

end PlatformChannels

end LeanAntenna
