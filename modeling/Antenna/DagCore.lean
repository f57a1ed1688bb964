import Antenna.PipelineCore

/-!
`Dag::load`: the rings it allocates, the threads it spawns and the handles that each of them holds.
The system calls under it (a new ring with its clock, a new thread) succeed.
-/

namespace LeanAntenna

open Rdf FirstWins

/-- An LLM backend; `Channels` is what a platform backend holds of the shared rings. -/
inductive LlmBackend (Channels : Type) where
  | ollama (endpoint model : Text)
  | http (endpoint model : Text)
  | platform (model : Text) (channels : Channels)
deriving DecidableEq, Repr

def trimEndSlashes (endpoint : Text) : Text := endpoint.rdropWhile (· = '/')

/-- `create_backend`; `llmHttp` is the feature of that name. -/
def createBackend {Channels : Type} (llmHttp : Bool) (backendType endpoint model : Text)
    (platformChannels : Option Channels) : Except Text (LlmBackend Channels) :=
  if backendType = "ollama".toList ∨ backendType = "http".toList then
    if llmHttp then
      if backendType = "ollama".toList then .ok (.ollama (trimEndSlashes endpoint) model)
      else .ok (.http (trimEndSlashes endpoint) model)
    else .error ("LLM backend '".toList ++ backendType ++
      "' requires the `llm-http` feature (disabled in this build)".toList)
  else if backendType = "platform".toList then
    match platformChannels with
    | some channels => .ok (.platform model channels)
    | none => .error "platform backend requires llmRequest/llmResponse channels".toList
  else .error ("unknown LLM backend type: ".toList ++ backendType)

/-- The two rings of the platform backends, by their numbers. -/
structure BackendChannels where
  requestWriter : Nat
  responseReader : Nat
deriving DecidableEq, Repr

structure NodeThread where
  uri : Text
  body : Text
  inboxes : List (Text × Nat)
deriving DecidableEq, Repr

structure RouterThread where
  uri : Text
  readerA : Nat
  readerB : Nat
  backend : LlmBackend BackendChannels
  systemPrompt : Text
  maxTokens : Nat
deriving DecidableEq, Repr

inductive DagThread where
  | node (thread : NodeThread)
  | router (thread : RouterThread)
deriving DecidableEq, Repr

/-- The loaded DAG. Rings are numbered as they are allocated, `channelWriters` lists the writers of
the broadcast map as they are pushed, and each thread stands beside the channels its emits go to. -/
structure Dag where
  allocated : Nat
  channelWriters : List (Text × Nat)
  threads : List (DagThread × List Text)
deriving DecidableEq, Repr

namespace Dag

def empty : Dag := ⟨0, [], []⟩

/-- A script node reads one new ring for each of its channels. -/
def addNode (dag : Dag) (node : ScriptNodeDef) : Dag where
  allocated := dag.allocated + node.ins.length
  channelWriters := dag.channelWriters ++ node.ins.zipIdx dag.allocated
  threads := dag.threads ++
    [(.node ⟨node.uri, node.body, node.ins.zipIdx dag.allocated⟩, node.outs)]

/-- The rings of the platform backends; the main thread keeps a writer of the request ring. -/
def addPlatform (dag : Dag) : Dag where
  allocated := dag.allocated + 2
  channelWriters := dag.channelWriters ++ [(antennaIri "llmRequest", dag.allocated)]
  threads := dag.threads

def platformChannels {Channels : Type} (channels : Channels) (backendType : Text) : Option Channels :=
  if backendType = "platform".toList then some channels else none

/-- A router reads two new rings and, over a platform backend, the shared response ring. -/
def withRouter (dag : Dag) (router : SemanticRouterDef) (backend : LlmBackend BackendChannels) :
    Dag where
  allocated := dag.allocated + 2
  channelWriters := dag.channelWriters ++
    [(router.inA, dag.allocated), (router.inB, dag.allocated + 1)]
  threads := dag.threads ++ [(.router {
    uri := router.uri
    readerA := dag.allocated
    readerB := dag.allocated + 1
    backend
    systemPrompt := router.systemPrompt
    maxTokens := router.maxTokens }, router.outs)]

def addRouter (llmHttp : Bool) (channels : BackendChannels) (dag : Dag) (router : SemanticRouterDef) :
    Except Text Dag :=
  match createBackend llmHttp router.backendType router.endpoint router.model
      (platformChannels channels router.backendType) with
  | .error reason => .error reason
  | .ok backend => .ok (dag.withRouter router backend)

def addRouters (llmHttp : Bool) (channels : BackendChannels) (dag : Dag) :
    List SemanticRouterDef → Except Text Dag
  | [] => .ok dag
  | router :: rest =>
      match addRouter llmHttp channels dag router with
      | .error reason => .error reason
      | .ok added => addRouters llmHttp channels added rest

def spawn (llmHttp : Bool) (nodes : List ScriptNodeDef) (routers : List SemanticRouterDef) :
    Except Text Dag :=
  if nodes = [] ∧ routers = [] then .ok empty
  else
    let dag := nodes.foldl addNode empty
    addRouters llmHttp ⟨dag.allocated, dag.allocated + 1⟩ dag.addPlatform routers

/-- `Dag::load`; the orders are those of the two queries' solutions. -/
def load (llmHttp peerScripting : Bool)
    (nodeOrder : List (Row Text ScriptHead Port) → List (Row Text ScriptHead Port))
    (routerOrder : List (Row Text RouterHead Text) → List (Row Text RouterHead Text))
    (store : Dataset) : Except Text Dag :=
  spawn llmHttp (queryScriptNodes peerScripting nodeOrder store)
    (querySemanticRouters routerOrder store)

end Dag

end LeanAntenna
