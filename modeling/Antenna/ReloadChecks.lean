import Antenna.PipelineChecks

/-!
When a replaced pipeline is the only source of the script nodes. The reset deletes the subjects of
two classes, and the loader joins bodies and channels of any subject.
-/

namespace LeanAntenna

open Text Rdf FirstWins

/-- The node's channels. -/
def ScriptNodeDef.Has (node : ScriptNodeDef) : Port → Prop
  | .input channel => channel ∈ node.ins
  | .output channel => channel ∈ node.outs

/-- The nodes by their URI, with body, inputs and outputs. -/
def nodeView (nodes : List ScriptNodeDef) : View Text Text Port := fun uri =>
  (nodes.find? (·.uri = uri)).map fun node => (node.body, {port | node.Has port})

/-- The loader can find these nodes: SPARQL leaves the order of the solutions open. -/
def CanLoad (peerScripting : Bool) (store : Dataset) (seen : View Text Text Port) : Prop :=
  ∃ order, (∀ rows, (order rows).Perm rows) ∧
    nodeView (queryScriptNodes peerScripting order store) = seen

/-- A script node of the graph with a source and the source's body. -/
structure Scripted (graph : Graph) (node source : Resource) (body : Term) : Prop where
  typed : Graph.typeTriple node (antennaIri "ScriptNode") ∈ graph
  sourced : ⟨node, antennaIri "scriptSource", .resource source⟩ ∈ graph
  filled : ⟨source, antennaIri "body", body⟩ ∈ graph

/-- The bodies the graph gives a script node. -/
def scriptBodies (graph : Graph) (uri : Text) : Set Text :=
  {text | ∃ node source body, Scripted graph node source body ∧ resourceText node = uri ∧
    termText body = text}

/-- The channels the graph gives a script node. -/
def scriptPorts (graph : Graph) (uri : Text) : Set Port :=
  {port | ∃ node source body channel, Scripted graph node source body ∧ resourceText node = uri ∧
    ((⟨node, antennaIri "in", channel⟩ ∈ graph ∧ port = .input (termText channel)) ∨
      (⟨node, antennaIri "out", channel⟩ ∈ graph ∧ port = .output (termText channel)))}

/-- Beside the leftover triples no node has a body or channel that the fresh ones do not give it. -/
structure Undisturbed (leftover fresh : Graph) : Prop where
  bodies : ∀ node source body, Scripted (leftover.add fresh) node source body →
    termText body ∈ scriptBodies fresh (resourceText node)
  inputs : ∀ node source body, Scripted (leftover.add fresh) node source body →
    ∀ channel, ⟨node, antennaIri "in", channel⟩ ∈ leftover.add fresh →
      Port.input (termText channel) ∈ scriptPorts fresh (resourceText node)
  outputs : ∀ node source body, Scripted (leftover.add fresh) node source body →
    ∀ channel, ⟨node, antennaIri "out", channel⟩ ∈ leftover.add fresh →
      Port.output (termText channel) ∈ scriptPorts fresh (resourceText node)

section Rows

theorem mem_scriptRows {graph : Graph} {row : Row Text ScriptHead Port} :
    row ∈ scriptRows graph ↔ ∃ node source body, Scripted graph node source body ∧
      ∃ language ∈ graph.optional source (antennaIri "language"),
      ∃ input ∈ graph.optional node (antennaIri "in"),
      ∃ output ∈ graph.optional node (antennaIri "out"),
      ∃ condition ∈ graph.optional node (antennaIri "where"),
        row = scriptRow node body language input output condition := by
  simp only [scriptRows, List.bind_eq_flatMap, List.pure_def, List.mem_flatMap, Graph.mem_instances,
    Graph.mem_resources, Graph.mem_objects, List.mem_singleton]
  constructor
  · rintro ⟨node, typed, source, sourced, body, filled, rest⟩
    exact ⟨node, source, body, ⟨typed, sourced, filled⟩, rest⟩
  · rintro ⟨node, source, body, ⟨typed, sourced, filled⟩, rest⟩
    exact ⟨node, typed, source, sourced, body, filled, rest⟩

theorem exists_optional (graph : Graph) (subject : Resource) (predicate : Text) :
    ∃ binding, binding ∈ graph.optional subject predicate :=
  List.exists_mem_of_ne_nil _ (Graph.optional_ne_nil subject predicate)

theorem heads_scriptRows (graph : Graph) (uri : Text) :
    heads ((scriptRows graph).map (Row.mapHead ScriptHead.body)) uri = scriptBodies graph uri := by
  ext text
  rw [mem_heads_map]
  constructor
  · rintro ⟨_, ⟨row, member, rfl, rfl⟩, rfl⟩
    obtain ⟨node, source, body, scripted, _, -, _, -, _, -, _, -, rfl⟩ := mem_scriptRows.mp member
    exact ⟨node, source, body, scripted, rfl, rfl⟩
  · rintro ⟨node, source, body, scripted, rfl, rfl⟩
    obtain ⟨language, spoken⟩ := exists_optional graph source (antennaIri "language")
    obtain ⟨input, fed⟩ := exists_optional graph node (antennaIri "in")
    obtain ⟨output, given⟩ := exists_optional graph node (antennaIri "out")
    obtain ⟨condition, asked⟩ := exists_optional graph node (antennaIri "where")
    exact ⟨_, ⟨_, mem_scriptRows.mpr ⟨node, source, body, scripted, language, spoken, input, fed,
      output, given, condition, asked, rfl⟩, rfl, rfl⟩, rfl⟩

theorem mem_scriptRow_extras {node : Resource} {body : Term}
    {language input output condition : Option Term} {port : Port} :
    port ∈ (scriptRow node body language input output condition).extras ↔
      (∃ channel, input = some channel ∧ port = .input (termText channel)) ∨
        ∃ channel, output = some channel ∧ port = .output (termText channel) := by
  cases input <;> cases output <;> simp [scriptRow]

theorem extras_scriptRows (graph : Graph) (uri : Text) :
    extras ((scriptRows graph).map (Row.mapHead ScriptHead.body)) uri = scriptPorts graph uri := by
  rw [extras_map]
  ext port
  constructor
  · rintro ⟨row, member, rfl, inside⟩
    obtain ⟨node, source, body, scripted, language, -, input, fed, output, given, condition, -,
      rfl⟩ := mem_scriptRows.mp member
    rcases mem_scriptRow_extras.mp inside with ⟨channel, rfl, rfl⟩ | ⟨channel, rfl, rfl⟩
    · exact ⟨node, source, body, channel, scripted, rfl,
        Or.inl ⟨Graph.mem_optional_some.mp fed, rfl⟩⟩
    · exact ⟨node, source, body, channel, scripted, rfl,
        Or.inr ⟨Graph.mem_optional_some.mp given, rfl⟩⟩
  · rintro ⟨node, source, body, channel, scripted, rfl, wired⟩
    obtain ⟨language, spoken⟩ := exists_optional graph source (antennaIri "language")
    obtain ⟨condition, asked⟩ := exists_optional graph node (antennaIri "where")
    rcases wired with ⟨triple, rfl⟩ | ⟨triple, rfl⟩
    · obtain ⟨output, given⟩ := exists_optional graph node (antennaIri "out")
      exact ⟨_, mem_scriptRows.mpr ⟨node, source, body, scripted, language, spoken, some channel,
        Graph.mem_optional_some.mpr triple, output, given, condition, asked, rfl⟩, rfl,
        mem_scriptRow_extras.mpr (Or.inl ⟨channel, rfl, rfl⟩)⟩
    · obtain ⟨input, fed⟩ := exists_optional graph node (antennaIri "in")
      exact ⟨_, mem_scriptRows.mpr ⟨node, source, body, scripted, language, spoken, input, fed,
        some channel, Graph.mem_optional_some.mpr triple, condition, asked, rfl⟩, rfl,
        mem_scriptRow_extras.mpr (Or.inr ⟨channel, rfl, rfl⟩)⟩

theorem has_scriptNodeDef (entry : Row Text ScriptHead Port) (port : Port) :
    (scriptNodeDef entry).Has port ↔ port ∈ entry.extras := by
  cases port with
  | input channel =>
      simp only [ScriptNodeDef.Has, scriptNodeDef, List.mem_filterMap]
      constructor
      · rintro ⟨port, member, same⟩
        cases port with
        | input other =>
            cases same
            exact member
        | output other => cases same
      · exact fun member => ⟨_, member, rfl⟩
  | output channel =>
      simp only [ScriptNodeDef.Has, scriptNodeDef, List.mem_filterMap]
      constructor
      · rintro ⟨port, member, same⟩
        cases port with
        | input other => cases same
        | output other =>
            cases same
            exact member
      · exact fun member => ⟨_, member, rfl⟩

theorem nodeView_scriptNodeDef (entries : List (Row Text ScriptHead Port)) (uri : Text) :
    nodeView (entries.map scriptNodeDef) uri =
      (view entries uri).map fun entry => (entry.1.body, entry.2) := by
  have keys : (fun node : ScriptNodeDef => decide (node.uri = uri)) ∘ scriptNodeDef =
      fun entry => decide (entry.key = uri) := rfl
  rw [nodeView, List.find?_map, keys, view]
  cases entries.find? (·.key = uri) with
  | none => rfl
  | some entry =>
      simp only [Option.map_some, has_scriptNodeDef]
      rfl

/-- What the loader can find is what the bodies and channels of the graph allow. -/
theorem canLoad_iff {peerScripting : Bool} {store : Dataset} {seen : View Text Text Port} :
    CanLoad peerScripting store seen ↔
      Possible ((scriptRows (scriptGraph peerScripting store)).map (Row.mapHead ScriptHead.body))
        seen := by
  rw [possible_map]
  constructor
  · rintro ⟨order, permutes, rfl⟩
    refine ⟨_, ⟨_, permutes _, rfl⟩, funext fun uri => ?_⟩
    exact nodeView_scriptNodeDef _ uri
  · rintro ⟨inner, ⟨ordered, permutes, rfl⟩, rfl⟩
    obtain ⟨arrange, arranges, given⟩ := exists_arrangement permutes
    refine ⟨arrange, arranges, funext fun uri => ?_⟩
    rw [queryScriptNodes, given, nodeView_scriptNodeDef]

end Rows

section Reload

theorem Scripted.mono {left right : Graph} (within : ∀ triple ∈ left, triple ∈ right)
    {node source : Resource} {body : Term} (scripted : Scripted left node source body) :
    Scripted right node source body :=
  ⟨within _ scripted.typed, within _ scripted.sourced, within _ scripted.filled⟩

theorem undisturbed_iff {leftover fresh : Graph} :
    Undisturbed leftover fresh ↔ ∀ uri,
      scriptBodies (leftover.add fresh) uri = scriptBodies fresh uri ∧
        scriptPorts (leftover.add fresh) uri = scriptPorts fresh uri := by
  have within : ∀ triple ∈ fresh, triple ∈ leftover.add fresh :=
    fun triple member => Graph.mem_add.mpr (Or.inr member)
  constructor
  · rintro ⟨bodies, inputs, outputs⟩ uri
    constructor
    · ext text
      constructor
      · rintro ⟨node, source, body, scripted, rfl, rfl⟩
        exact bodies node source body scripted
      · rintro ⟨node, source, body, scripted, rfl, rfl⟩
        exact ⟨node, source, body, scripted.mono within, rfl, rfl⟩
    · ext port
      constructor
      · rintro ⟨node, source, body, channel, scripted, rfl, ⟨wired, rfl⟩ | ⟨wired, rfl⟩⟩
        · exact inputs node source body scripted channel wired
        · exact outputs node source body scripted channel wired
      · rintro ⟨node, source, body, channel, scripted, rfl, wired⟩
        exact ⟨node, source, body, channel, scripted.mono within, rfl,
          wired.imp (And.imp_left (within _)) (And.imp_left (within _))⟩
  · intro same
    refine ⟨?_, ?_, ?_⟩
    · intro node source body scripted
      rw [← (same _).1]
      exact ⟨node, source, body, scripted, rfl, rfl⟩
    · intro node source body scripted channel wired
      rw [← (same _).2]
      exact ⟨node, source, body, channel, scripted, rfl, Or.inl ⟨wired, rfl⟩⟩
    · intro node source body scripted channel wired
      rw [← (same _).2]
      exact ⟨node, source, body, channel, scripted, rfl, Or.inr ⟨wired, rfl⟩⟩

/-- A replaced pipeline is the only source of the script nodes exactly if what the reset left over
gives none of its nodes another body or channel. -/
theorem replacePipeline_source_iff {parse : Parser} {store : Dataset} {ttl : Text}
    {triples : Graph} (parsed : parse (turtleDocument ttl) = .ok triples) :
    (∀ seen, CanLoad true (replacePipeline parse store ttl).1 seen ↔
      CanLoad true (insertTurtle parse Dataset.empty ttl).1 seen) ↔
      Undisturbed (resetPipeline store).default triples := by
  have reloaded : scriptGraph true (replacePipeline parse store ttl).1 =
      (resetPipeline store).default.add triples := by
    rw [replacePipeline_parsed parsed]
    rfl
  have loaded : scriptGraph true (insertTurtle parse Dataset.empty ttl).1 = triples := by
    rw [insertTurtle_ok parsed]
    exact Graph.nil_add triples
  simp only [canLoad_iff, reloaded, loaded]
  rw [same_possible_iff, undisturbed_iff]
  simp only [heads_scriptRows, extras_scriptRows]

/-- A body the graph gives a node can be the one the loader finds. -/
theorem exists_load_of_body {peerScripting : Bool} {store : Dataset} {uri body : Text}
    (given : body ∈ scriptBodies (scriptGraph peerScripting store) uri) :
    ∃ seen, CanLoad peerScripting store seen ∧ (seen uri).map Prod.fst = some body := by
  rw [← heads_scriptRows] at given
  have free : ¬ Stuck (fun _ => True)
      ((scriptRows (scriptGraph peerScripting store)).map (Row.mapHead ScriptHead.body)) := by
    rintro ⟨key, filled, none⟩
    obtain ⟨head, member⟩ := Set.nonempty_iff_ne_empty.mpr filled
    exact none head member trivial
  obtain ⟨seen, possible, -, named⟩ := exists_good_view free given trivial
  exact ⟨seen, canLoad_iff.mpr possible, by rw [named]; rfl⟩

theorem body_of_load {peerScripting : Bool} {store : Dataset} {seen : View Text Text Port}
    (loads : CanLoad peerScripting store seen) {uri body : Text}
    (named : (seen uri).map Prod.fst = some body) :
    body ∈ scriptBodies (scriptGraph peerScripting store) uri := by
  rcases entry_of_possible (canLoad_iff.mp loads) uri with ⟨unseen, -⟩ | ⟨head, member, found⟩
  · simp [unseen] at named
  · rw [heads_scriptRows] at member
    obtain rfl : head = body := by simpa [found] using named
    exact member

theorem bundle_scripted (body : Text) :
    Scripted (bundleGraph body) bundleNode bundleSource (stringLiteral body) where
  typed := by simp [bundleGraph]
  sourced := by simp [bundleGraph]
  filled := by simp [bundleGraph]

theorem bundle_bodies {body text : Text}
    (given : text ∈ scriptBodies (bundleGraph body) (resourceText bundleNode)) : text = body := by
  obtain ⟨node, source, object, ⟨-, -, filled⟩, -, rfl⟩ := given
  have unsourced : antennaIri "body" ≠ antennaIri "scriptSource" := by simp [antennaIri]
  simp only [bundleGraph, Graph.typeTriple, List.mem_cons, Triple.mk.injEq, antennaIri_ne_type,
    unsourced, false_and, and_false, List.not_mem_nil, or_false, false_or] at filled
  rw [filled.2.2]
  rfl

/-- A store that an earlier boot or a peer gave a body for the source. -/
def staleStore : Dataset := (insertTurtle bundleParse Dataset.empty peerTtl).1

theorem untyped_reset {store : Dataset}
    (untyped : ∀ triple ∈ store.default, triple.predicate ≠ Rdf.typePredicate) :
    resetPipeline store = store := by
  have none : ∀ type, store.default.instances type = [] := by
    intro type
    rw [List.eq_nil_iff_forall_not_mem]
    intro subject member
    exact untyped _ (Graph.mem_instances.mp member) rfl
  have kept : ∀ type, deleteInstances store type = store := by
    intro type
    rw [deleteInstances, none, Graph.without]
    simp
  rw [resetPipeline, kept, kept]

theorem staleStore_default : staleStore.default =
    [⟨bundleSource, antennaIri "body", stringLiteral "old".toList⟩] := by
  rw [staleStore, insertTurtle_ok bundleParse_peer]
  exact Graph.nil_add _

theorem stale_left : ⟨bundleSource, antennaIri "body", stringLiteral "old".toList⟩ ∈
    (resetPipeline staleStore).default := by
  rw [untyped_reset, staleStore_default]
  · exact List.mem_singleton.mpr rfl
  · intro triple member
    rw [staleStore_default] at member
    rw [List.mem_singleton.mp member]
    exact antennaIri_ne_type "body"

/-- The body left over can win over the one of the new pipeline. -/
theorem stale_body_loads :
    (replacePipeline bundleParse staleStore bundleTtl).2 = .ok () ∧
      (∃ seen, CanLoad true (replacePipeline bundleParse staleStore bundleTtl).1 seen ∧
        (seen (resourceText bundleNode)).map Prod.fst = some "old".toList) ∧
      ¬ ∃ seen, CanLoad true (insertTurtle bundleParse Dataset.empty bundleTtl).1 seen ∧
        (seen (resourceText bundleNode)).map Prod.fst = some "old".toList := by
  refine ⟨by rw [replacePipeline_parsed bundleParse_bundle], ?_, ?_⟩
  · refine exists_load_of_body ⟨bundleNode, bundleSource, stringLiteral "old".toList, ?_, rfl, rfl⟩
    rw [replacePipeline_parsed bundleParse_bundle]
    have scripted := bundle_scripted "new".toList
    exact ⟨Graph.mem_add.mpr (Or.inr scripted.typed), Graph.mem_add.mpr (Or.inr scripted.sourced),
      Graph.mem_add.mpr (Or.inl stale_left)⟩
  · rintro ⟨seen, loads, named⟩
    have given := body_of_load loads named
    rw [insertTurtle_ok bundleParse_bundle] at given
    have fresh : scriptGraph true (Dataset.empty.insert (bundleGraph "new".toList)) =
        bundleGraph "new".toList := Graph.nil_add _
    rw [fresh] at given
    exact absurd (bundle_bodies given) (by decide)

/-- On a fresh store nothing is left over. -/
theorem replacePipeline_source_iff_empty :
    Undisturbed (resetPipeline Dataset.empty).default (bundleGraph "new".toList) ∧
      ∀ seen, CanLoad true (replacePipeline bundleParse Dataset.empty bundleTtl).1 seen ↔
        CanLoad true (insertTurtle bundleParse Dataset.empty bundleTtl).1 seen := by
  have nothing : (resetPipeline Dataset.empty).default = [] := rfl
  have undisturbed : Undisturbed (resetPipeline Dataset.empty).default
      (bundleGraph "new".toList) := by
    apply undisturbed_iff.mpr
    intro uri
    rw [nothing, Graph.nil_add]
    exact ⟨rfl, rfl⟩
  exact ⟨undisturbed, (replacePipeline_source_iff bundleParse_bundle).mpr undisturbed⟩

end Reload

end LeanAntenna
