import Antenna.PipelineCore
import Antenna.StoreSteps

/-!
Where the script nodes come from. The trusted graph holds what `replace_pipeline` put there; the
default graph also holds what the reset left over.
-/

namespace LeanAntenna

open Text Replay Rdf FirstWins

section Replaced

variable {parse : Parser} {store : Dataset} {ttl : Text}

theorem insertTurtle_ok {triples : Graph} (parsed : parse (turtleDocument ttl) = .ok triples) :
    insertTurtle parse store ttl = (store.insert triples, .ok ()) := by
  rw [insertTurtle, parsed]

theorem insertTurtle_error {reason : Text} (failed : parse (turtleDocument ttl) = .error reason) :
    insertTurtle parse store ttl = (store, .error reason) := by
  rw [insertTurtle, failed]

/-- A pipeline that parses replaces the old one, and lies in both graphs. -/
theorem replacePipeline_parsed {triples : Graph}
    (parsed : parse (turtleDocument ttl) = .ok triples) :
    replacePipeline parse store ttl =
      (((resetPipeline store).insert triples).setNamed trustedPipelineGraph
        (Graph.add [] triples), .ok ()) := by
  have mirrored : ∀ inserted : Dataset,
      insertTurtleToGraph parse (clearGraph inserted trustedPipelineGraph) ttl
        trustedPipelineGraph =
      (inserted.setNamed trustedPipelineGraph (Graph.add [] triples), .ok ()) := by
    intro inserted
    rw [insertTurtleToGraph, parsed]
    simp only [clearGraph, Dataset.setNamed, Prod.mk.injEq, and_true]
    congr 1
    funext other
    split <;> rfl
  rw [replacePipeline, insertTurtle_ok parsed]
  exact mirrored _

theorem parsed_of_replaced (replaced : (replacePipeline parse store ttl).2 = .ok ()) :
    ∃ triples, parse (turtleDocument ttl) = .ok triples := by
  cases parsed : parse (turtleDocument ttl) with
  | ok triples => exact ⟨triples, rfl⟩
  | error reason =>
      rw [replacePipeline, insertTurtle_error parsed] at replaced
      contradiction

end Replaced

section Trusted

variable {Carrier : Type} (parse : Parser) (host : Host Dataset Carrier)

/-- The host whose store loads Turtle as `insert_turtle` does. -/
def storeHost : Host Dataset Carrier := { host with insertTurtle := insertTurtle parse }

/-- An update that leaves the trusted graph as it is. -/
def Spares (sparql : Text) : Prop :=
  ∀ store, (host.update store sparql).1.named trustedPipelineGraph =
    store.named trustedPipelineGraph

/-- With peer-scripting off, the script nodes after any run are those of a fresh store, whatever the
store held before and whatever Turtle the run inserts. -/
theorem script_nodes_from_bundle
    (order : List (Row Text ScriptHead Port) → List (Row Text ScriptHead Port)) {store : Dataset} {ttl : Text} (replaced : (replacePipeline parse store ttl).2 = .ok ())
    {context : Context Dataset Carrier}
    (begun : context.world.store = (replacePipeline parse store ttl).1)
    {ticks : List (TickInputs Carrier)}
    (spared : ∀ inputs ∈ ticks, ∀ line ∈ inputs.lines ++ inputs.emits,
      ∀ sparql, updateOf line = some sparql → Spares host sparql) :
    queryScriptNodes false order
        (replay (Context.tick (storeHost parse host)) context ticks).world.store =
      queryScriptNodes false order (replacePipeline parse Dataset.empty ttl).1 := by
  obtain ⟨triples, parsed⟩ := parsed_of_replaced replaced
  let bundled := fun store : Dataset =>
    store.named trustedPipelineGraph = Graph.add [] triples
  have inserts : ∀ store line, bundled store →
      bundled ((storeHost parse host).insertTurtle store line).1 := by
    intro store line held
    change bundled (insertTurtle parse store line).1
    cases outcome : parse (turtleDocument line) with
    | error reason => rwa [insertTurtle_error outcome]
    | ok added => rwa [insertTurtle_ok outcome]
  have held : bundled context.world.store := by
    rw [begun, replacePipeline_parsed parsed]
    exact Dataset.setNamed_same _ _ _
  have kept := kept_ticks inserts held fun inputs member line listed sparql runs store held =>
    (spared inputs member line listed sparql runs store).trans held
  have fresh : (replacePipeline parse Dataset.empty ttl).1.named trustedPipelineGraph =
      Graph.add [] triples := by
    rw [replacePipeline_parsed parsed]
    exact Dataset.setNamed_same _ _ _
  have same := kept.trans fresh.symm
  simp only [queryScriptNodes, scriptGraph, Bool.false_eq_true, if_false, same]

def bundleNode : Resource := .iri "urn:node".toList

def bundleSource : Resource := .iri "urn:source".toList

def bundleTtl : Text :=
  ("<urn:node> a antenna:ScriptNode ; antenna:scriptSource <urn:source> . " ++
    "<urn:source> antenna:body \"new\" .").toList

/-- What a pipeline of one node denotes, with the body its source is given. -/
def bundleGraph (body : Text) : Graph :=
  [Graph.typeTriple bundleNode (antennaIri "ScriptNode"),
    ⟨bundleNode, antennaIri "scriptSource", .resource bundleSource⟩,
    ⟨bundleSource, antennaIri "body", stringLiteral body⟩]

/-- A peer's line that gives the source another body. -/
def peerTtl : Text := "<urn:source> antenna:body \"old\" .".toList

def bundleParse : Parser := fun document =>
  if document = turtleDocument bundleTtl then .ok (bundleGraph "new".toList)
  else if document = turtleDocument peerTtl then
    .ok [⟨bundleSource, antennaIri "body", stringLiteral "old".toList⟩]
  else .error "unexpected document".toList

theorem bundleParse_bundle :
    bundleParse (turtleDocument bundleTtl) = .ok (bundleGraph "new".toList) := by
  rw [bundleParse, if_pos (Eq.refl (turtleDocument bundleTtl))]

theorem bundleParse_peer : bundleParse (turtleDocument peerTtl) =
    .ok [⟨bundleSource, antennaIri "body", stringLiteral "old".toList⟩] := by
  have other : turtleDocument peerTtl ≠ turtleDocument bundleTtl := by
    have texts : peerTtl ≠ bundleTtl := by decide
    rw [turtleDocument, turtleDocument, List.append_assoc, List.append_assoc]
    exact fun same => texts (List.append_cancel_right (List.append_cancel_left same))
  rw [bundleParse, if_neg other, if_pos (Eq.refl (turtleDocument peerTtl))]

def datasetHost : Host Dataset Unit where
  query _ _ := .ok (.boolean true)
  update store _ := (store, .ok ())
  insertTurtle store _ := (store, .ok ())
  resolveActiveTheme _ := .ok []
  verifySignedBlocklist _ _ := .ok []
  call _ _ := ((), .ok [])

def storeContext (store : Dataset) : Context Dataset Unit where
  world := { store, carrier := (), pendingAutoExport := none, effects := [] }
  accountId := []
  bootstrapEmit := none
  pendingAccountLoad := none
  startupEmitted := true

theorem storeContext_store (store : Dataset) : (storeContext store).world.store = store := rfl

def peerTick : TickInputs Unit where
  carrier := ()
  iterated := .ok ()
  events := []
  lines := [peerTtl]
  queries := []
  emits := []

theorem script_nodes_from_bundle_peer :
    queryScriptNodes false id
        (replay (Context.tick (storeHost bundleParse datasetHost))
          (storeContext (replacePipeline bundleParse Dataset.empty bundleTtl).1)
          [peerTick]).world.store =
      queryScriptNodes false id (replacePipeline bundleParse Dataset.empty bundleTtl).1 := by
  have data : updateOf peerTtl = none := by decide
  refine script_nodes_from_bundle bundleParse datasetHost id
    (congrArg Prod.snd (replacePipeline_parsed bundleParse_bundle)) (storeContext_store _) ?_
  intro inputs member line listed sparql runs
  obtain rfl := List.mem_singleton.mp member
  have read : line ∈ [peerTtl] := listed
  rw [List.mem_singleton.mp read, data] at runs
  contradiction

end Trusted

end LeanAntenna
