import Antenna.CarrierCommands
import Antenna.Library.FirstWins
import Antenna.Library.Rdf

/-!
The store as the pipeline sees it: loading Turtle, replacing the pipeline, and the queries for script
nodes and routers. The Turtle parser and the order of query solutions are parameters.
-/

namespace LeanAntenna

open Rdf FirstWins

/-- `TRUSTED_PIPELINE_GRAPH` -/
def trustedPipelineGraph : Text := "urn:resonator:trusted-pipeline".toList

/-- `TURTLE_PREFIXES` -/
def turtleHeader : Text :=
  ("@prefix carrier: <http://resonator.network/v2/carrier#> .\n" ++
    "@prefix antenna: <http://resonator.network/v2/antenna#> .\n" ++
    "@prefix design: <http://resonator.network/v2/design#> .\n" ++
    "@prefix sp: <http://spinrdf.org/sp#> .\n" ++
    "@prefix spin: <http://spinrdf.org/spin#> .\n" ++
    "@prefix xsd: <http://www.w3.org/2001/XMLSchema#> .").toList

/-- The document that the store parses for a text. -/
def turtleDocument (turtle : Text) : Text := turtleHeader ++ turtle ++ ['\n']

def antennaIri (name : String) : Text := antennaNs ++ name.toList

theorem antennaIri_ne_type (name : String) : antennaIri name ≠ Rdf.typePredicate := by
  intro same
  have fronts : antennaNs.take 8 = "http://r".toList ∧ Rdf.typePredicate.take 8 = "http://w".toList ∧
      8 ≤ antennaNs.length := by decide
  have front := congrArg (List.take 8) same
  rw [antennaIri, List.take_append_of_le_length fronts.2.2, fronts.1, fronts.2.1] at front
  exact absurd front (by decide)

def stringLiteral (value : Text) : Term :=
  .literal value "http://www.w3.org/2001/XMLSchema#string".toList none

/-- The parser of Turtle documents: the triples of a document or its error. -/
abbrev Parser := Text → Except Text Graph

section Store

variable (parse : Parser)

/-- A document that does not parse leaves the store as it was. -/
def insertTurtle (store : Dataset) (turtle : Text) : Dataset × Except Text Unit :=
  match parse (turtleDocument turtle) with
  | .error reason => (store, .error reason)
  | .ok triples => (store.insert triples, .ok ())

def insertTurtleToGraph (store : Dataset) (turtle graph : Text) : Dataset × Except Text Unit :=
  match parse (turtleDocument turtle) with
  | .error reason => (store, .error reason)
  | .ok triples => (store.setNamed graph ((store.named graph).add triples), .ok ())

def clearGraph (store : Dataset) (graph : Text) : Dataset := store.setNamed graph []

/-- `DELETE WHERE { ?s a type ; ?p ?o }` -/
def deleteInstances (store : Dataset) (type : Text) : Dataset :=
  { store with default := store.default.without (store.default.instances type) }

/-- The two resets of `replace_pipeline`. -/
def resetPipeline (store : Dataset) : Dataset :=
  deleteInstances (deleteInstances store (antennaIri "ScriptNode")) (antennaIri "ScriptSource")

def replacePipeline (store : Dataset) (ttl : Text) : Dataset × Except Text Unit :=
  match insertTurtle parse (resetPipeline store) ttl with
  | (inserted, .error reason) => (inserted, .error reason)
  | (inserted, .ok ()) =>
      insertTurtleToGraph parse (clearGraph inserted trustedPipelineGraph) ttl trustedPipelineGraph

end Store

def resourceText : Resource → Text
  | .iri value => value
  | .blank label => label

/-- `term_to_string` of a bound variable. -/
def termText : Term → Text
  | .resource resource => resourceText resource
  | .literal value _ _ => value

/-- `str::parse::<u32>` -/
def parseU32 (text : Text) : Option Nat := (parseUsize text).filter (· < 2 ^ 32)

section Queries

structure ScriptHead where
  body : Text
  language : Text
  whereClause : Option Text
deriving DecidableEq, Repr

inductive Port where
  | input (channel : Text)
  | output (channel : Text)
deriving DecidableEq, Repr

def scriptRow (node : Resource) (body : Term) (language input output condition : Option Term) :
    Row Text ScriptHead Port where
  key := resourceText node
  head := {
    body := termText body
    language := (language.map termText).getD "javascript".toList
    whereClause := condition.map termText }
  extras := (input.map (Port.input ∘ termText)).toList ++
    (output.map (Port.output ∘ termText)).toList

/-- The solutions of the script node query over a graph. -/
def scriptRows (graph : Graph) : List (Row Text ScriptHead Port) := do
  let node ← graph.instances (antennaIri "ScriptNode")
  let source ← graph.resources node (antennaIri "scriptSource")
  let body ← graph.objects source (antennaIri "body")
  let language ← graph.optional source (antennaIri "language")
  let input ← graph.optional node (antennaIri "in")
  let output ← graph.optional node (antennaIri "out")
  let condition ← graph.optional node (antennaIri "where")
  return scriptRow node body language input output condition

structure ScriptNodeDef where
  uri : Text
  body : Text
  language : Text
  ins : List Text
  outs : List Text
  whereClause : Option Text
deriving DecidableEq, Repr

def Port.channelIn : Port → Option Text
  | .input channel => some channel
  | .output _ => none

def Port.channelOut : Port → Option Text
  | .input _ => none
  | .output channel => some channel

def scriptNodeDef (entry : Row Text ScriptHead Port) : ScriptNodeDef where
  uri := entry.key
  body := entry.head.body
  language := entry.head.language
  ins := entry.extras.filterMap Port.channelIn
  outs := entry.extras.filterMap Port.channelOut
  whereClause := entry.head.whereClause

/-- The graph of the script node query: with peer-scripting off it is the trusted one. -/
def scriptGraph (peerScripting : Bool) (store : Dataset) : Graph :=
  if peerScripting then store.default else store.named trustedPipelineGraph

def queryScriptNodes (peerScripting : Bool)
    (order : List (Row Text ScriptHead Port) → List (Row Text ScriptHead Port)) (store : Dataset) :
    List ScriptNodeDef :=
  (collect (order (scriptRows (scriptGraph peerScripting store)))).map scriptNodeDef

structure RouterHead where
  inA : Text
  inB : Text
  backendType : Text
  endpoint : Text
  model : Text
  systemPrompt : Text
  maxTokens : Nat
deriving DecidableEq, Repr

def routerRow (node : Resource) (inA inB backendType : Term)
    (endpoint model output systemPrompt maxTokens : Option Term) : Row Text RouterHead Text where
  key := resourceText node
  head := {
    inA := termText inA
    inB := termText inB
    backendType := termText backendType
    endpoint := (endpoint.map termText).getD []
    model := (model.map termText).getD "default".toList
    systemPrompt := (systemPrompt.map termText).getD []
    maxTokens := ((maxTokens.map termText).bind parseU32).getD 512 }
  extras := (output.map termText).toList

/-- The solutions of the router query over a graph. -/
def routerRows (graph : Graph) : List (Row Text RouterHead Text) := do
  let node ← graph.instances (antennaIri "SemanticRouter")
  let inA ← graph.objects node (antennaIri "inA")
  let inB ← graph.objects node (antennaIri "inB")
  let backend ← graph.resources node (antennaIri "llmBackend")
  let backendType ← graph.objects backend (antennaIri "backendType")
  let endpoint ← graph.optional backend (antennaIri "endpoint")
  let model ← graph.optional backend (antennaIri "model")
  let output ← graph.optional node (antennaIri "out")
  let systemPrompt ← graph.optional node (antennaIri "systemPrompt")
  let maxTokens ← graph.optional node (antennaIri "maxTokens")
  return routerRow node inA inB backendType endpoint model output systemPrompt maxTokens

structure SemanticRouterDef where
  uri : Text
  inA : Text
  inB : Text
  outs : List Text
  backendType : Text
  endpoint : Text
  model : Text
  systemPrompt : Text
  maxTokens : Nat
deriving DecidableEq, Repr

def semanticRouterDef (entry : Row Text RouterHead Text) : SemanticRouterDef where
  uri := entry.key
  inA := entry.head.inA
  inB := entry.head.inB
  outs := entry.extras
  backendType := entry.head.backendType
  endpoint := entry.head.endpoint
  model := entry.head.model
  systemPrompt := entry.head.systemPrompt
  maxTokens := entry.head.maxTokens

/-- The router query reads the default graph in every build. -/
def querySemanticRouters
    (order : List (Row Text RouterHead Text) → List (Row Text RouterHead Text)) (store : Dataset) :
    List SemanticRouterDef :=
  (collect (order (routerRows store.default))).map semanticRouterDef

end Queries

end LeanAntenna
