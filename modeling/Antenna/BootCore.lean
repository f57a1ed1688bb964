import Antenna.DagCore
import Antenna.PipelineFaults
import Antenna.ThemeResolver
import Antenna.TickCore

/-!
`AntennaContext::new_with_ttl`: the store is opened with what earlier boots left in it, loaded anew
from the bundled documents, the pipeline and the seed, and the worker's first state is made from it.
The operations on the store succeed except where a document does not parse.
-/

namespace LeanAntenna

open Rdf

/-- The documents compiled into the binary: the design ontology with the themes, the resolver and the
emoji catalog. -/
structure BootBundle where
  design : List Text
  resolver : Text
  emoji : Text

/-- The documents that the embedder hands in. -/
structure BootInputs where
  accountId : Option Text
  pipeline : Option Text
  seed : Option Text

/-- The `?` operator between two steps on a state that keeps what the first one did. -/
def andThen {State Done Next : Type} (outcome : State × Except Text Done)
    (next : State → Done → State × Except Text Next) : State × Except Text Next :=
  match outcome with
  | (state, .error reason) => (state, .error reason)
  | (state, .ok done) => next state done

section Store

variable (parse : Parser)

def loadAllToGraph (graph : Text) : List Text → Dataset → Dataset × Except Text Unit
  | [], store => (store, .ok ())
  | ttl :: rest, store =>
      andThen (insertTurtleToGraph parse store ttl graph) fun inserted _ =>
        loadAllToGraph graph rest inserted

/-- `load_resolver_str` -/
def loadResolverStr (store : Dataset) (ttl : Text) : Dataset × Except Text Unit :=
  insertTurtleToGraph parse store ttl themeGraph

/-- What every boot loads, whatever the embedder hands in. -/
def loadBundle (bundle : BootBundle) (store : Dataset) : Dataset × Except Text Unit :=
  andThen (loadAllToGraph parse themeGraph bundle.design (clearGraph store themeGraph))
    fun designed _ => andThen (loadResolverStr parse designed bundle.resolver) fun resolved _ =>
      insertTurtle parse resolved bundle.emoji

def loadPipeline (pipeline : Option Text) (store : Dataset) : Dataset × Except Text Unit :=
  match pipeline with
  | some ttl => replacePipeline parse store ttl
  | none => (store, .ok ())

def loadSeed (seed : Option Text) (store : Dataset) : Dataset × Except Text Unit :=
  match seed with
  | some ttl => insertTurtle parse store ttl
  | none => (store, .ok ())

/-- The part of `new_with_ttl` that changes the store. -/
def bootStore (bundle : BootBundle) (inputs : BootInputs) (store : Dataset) :
    Dataset × Except Text Unit :=
  andThen (loadBundle parse bundle store) fun bundled _ =>
    andThen (loadPipeline parse inputs.pipeline bundled) fun piped _ =>
      loadSeed parse inputs.seed piped

end Store

/-- What the store's queries and the carrier library answer at boot. -/
structure BootHost (Carrier : Type) where
  llmHttp : Bool
  peerScripting : Bool
  nodeOrder : List (FirstWins.Row Text ScriptHead Port) → List (FirstWins.Row Text ScriptHead Port)
  routerOrder : List (FirstWins.Row Text RouterHead Text) → List (FirstWins.Row Text RouterHead Text)
  carrierNew : Except Text Carrier
  call : Carrier → CarrierCall → Carrier × Except Text Text

def onboardingRequired : Text :=
  "[] a antenna:OnboardingRequired ; antenna:reason \"no-account\" .".toList

section Boot

variable {Carrier : Type}

/-- The worker's first state, with the account id, the line for the first tick and the load left to
it. -/
def bootContext (store : Dataset) (carrier : Carrier) (effects : List Effect) (accountId : Text)
    (bootstrapEmit pendingAccountLoad : Option Text) : Context Dataset Carrier where
  world := { store, carrier, pendingAutoExport := none, effects }
  accountId
  bootstrapEmit
  pendingAccountLoad
  startupEmitted := false

/-- No id mints an account, an empty one waits for onboarding, and any other is loaded later. -/
def bootAccount (host : BootHost Carrier) (store : Dataset) (carrier : Carrier) :
    Option Text → Except Text (Context Dataset Carrier)
  | none =>
      match host.call carrier (.createAccount none none none) with
      | (_, .error reason) => .error reason
      | (minted, .ok newId) =>
          .ok (bootContext store minted [.call (.createAccount none none none)] newId none none)
  | some [] => .ok (bootContext store carrier [] [] (some onboardingRequired) none)
  | some id => .ok (bootContext store carrier [] id none (some id))

/-- `AntennaContext::new_with_ttl`. The store is what it leaves on disk, also where it fails. -/
def newWithTtl (parse : Parser) (host : BootHost Carrier) (bundle : BootBundle)
    (inputs : BootInputs) (store : Dataset) :
    Dataset × Except Text (Dag × Context Dataset Carrier) :=
  andThen (bootStore parse bundle inputs store) fun loaded _ => (loaded, do
    let dag ← Dag.load host.llmHttp host.peerScripting host.nodeOrder host.routerOrder loaded
    let carrier ← host.carrierNew
    let context ← bootAccount host loaded carrier inputs.accountId
    return (dag, context))

end Boot

end LeanAntenna
