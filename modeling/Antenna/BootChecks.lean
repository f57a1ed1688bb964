import Antenna.BootCore
import Antenna.Library.RdfBlank
import Antenna.Library.Refresh
import Antenna.Library.Transition

/-!
What a boot makes of the store that earlier boots and runs left: the theme graph and the trusted one
are rebuilt, and in the default graph the pipeline's nodes and sources are replaced. Booting again and
again with the same documents settles.
-/

namespace LeanAntenna

open Rdf Refresh Transition

theorem andThen_ok {State Done Next : Type} {outcome : State × Except Text Done}
    {next : State → Done → State × Except Text Next} {final : State} {done : Next}
    (succeeded : andThen outcome next = (final, .ok done)) :
    ∃ state middle, outcome = (state, .ok middle) ∧ next state middle = (final, .ok done) := by
  obtain ⟨state, failed | middle⟩ := outcome
  · cases succeeded
  · exact ⟨state, middle, rfl, succeeded⟩

theorem andThen_done {State Done Next : Type} (state : State) (done : Done)
    (next : State → Done → State × Except Text Next) :
    andThen (state, .ok done) next = next state done := rfl

section Loading

variable {parse : Parser} {store after : Dataset} {ttl graph : Text}

theorem insertTurtle_loaded (loaded : insertTurtle parse store ttl = (after, .ok ())) :
    after = store.insert (loadedGraph parse ttl) := by
  unfold insertTurtle at loaded
  unfold loadedGraph
  split at loaded
  · cases loaded
  · rename_i triples parsed
    cases loaded
    rw [parsed]
    rfl

theorem insertTurtleToGraph_loaded (loaded : insertTurtleToGraph parse store ttl graph = (after, .ok ())) :
    after = store.setNamed graph ((store.named graph).add (loadedGraph parse ttl)) := by
  unfold insertTurtleToGraph at loaded
  unfold loadedGraph
  split at loaded
  · cases loaded
  · rename_i triples parsed
    cases loaded
    rw [parsed]
    rfl

theorem setNamed_other {store : Dataset} {name other : Text} {triples : Graph} (differs : other ≠ name) :
    (store.setNamed name triples).named other = store.named other := if_neg differs

/-- The texts are added to one graph and nothing else changes. -/
structure AddsTo (parse : Parser) (graph : Text) (texts : List Text) (before after : Dataset) :
    Prop where
  held : ∀ triple, triple ∈ after.named graph ↔
    triple ∈ before.named graph ∨ ∃ ttl ∈ texts, triple ∈ loadedGraph parse ttl
  others : ∀ other, other ≠ graph → after.named other = before.named other
  default : after.default = before.default

theorem insertTurtleToGraph_addsTo
    (loaded : insertTurtleToGraph parse store ttl graph = (after, .ok ())) :
    AddsTo parse graph [ttl] store after := by
  rw [insertTurtleToGraph_loaded loaded]
  refine ⟨fun triple => ?_, fun other differs => setNamed_other differs, rfl⟩
  simp

theorem AddsTo.trans {middle : Dataset} {front back : List Text}
    (first : AddsTo parse graph front store middle) (second : AddsTo parse graph back middle after) :
    AddsTo parse graph (front ++ back) store after := by
  refine ⟨fun triple => ?_, fun other differs => ?_, second.default.trans first.default⟩
  · rw [second.held, first.held]
    simp only [List.mem_append, or_assoc]
    constructor
    · rintro (held | ⟨ttl, member, loaded⟩ | ⟨ttl, member, loaded⟩)
      · exact Or.inl held
      · exact Or.inr ⟨ttl, Or.inl member, loaded⟩
      · exact Or.inr ⟨ttl, Or.inr member, loaded⟩
    · rintro (held | ⟨ttl, member | member, loaded⟩)
      · exact Or.inl held
      · exact Or.inr (Or.inl ⟨ttl, member, loaded⟩)
      · exact Or.inr (Or.inr ⟨ttl, member, loaded⟩)
  · rw [second.others other differs, first.others other differs]

theorem loadAllToGraph_addsTo {texts : List Text}
    (loaded : loadAllToGraph parse graph texts store = (after, .ok ())) :
    AddsTo parse graph texts store after := by
  induction texts generalizing store with
  | nil =>
      cases loaded
      exact ⟨fun triple => by simp, fun other differs => rfl, rfl⟩
  | cons ttl rest ih =>
      obtain ⟨inserted, done, one, more⟩ := andThen_ok loaded
      exact (insertTurtleToGraph_addsTo one).trans (ih more)

theorem loadBundle_loaded {bundle : BootBundle}
    (loaded : loadBundle parse bundle store = (after, .ok ())) :
    (∀ triple, triple ∈ after.named themeGraph ↔
      ∃ ttl ∈ bundle.design ++ [bundle.resolver], triple ∈ loadedGraph parse ttl) ∧
    (∀ other, other ≠ themeGraph → after.named other = store.named other) ∧
    after.default = store.default.add (loadedGraph parse bundle.emoji) := by
  obtain ⟨designed, _, design, remaining⟩ := andThen_ok loaded
  obtain ⟨resolved, _, resolver, emoji⟩ := andThen_ok remaining
  have filled := (loadAllToGraph_addsTo design).trans (insertTurtleToGraph_addsTo resolver)
  rw [insertTurtle_loaded emoji]
  refine ⟨fun triple => ?_, fun other differs => ?_, ?_⟩
  · rw [Dataset.insert_named, filled.held]
    simp [clearGraph]
  · rw [Dataset.insert_named, filled.others other differs]
    exact setNamed_other differs
  · simp only [Dataset.insert, filled.default, clearGraph, Dataset.setNamed_default]

end Loading

section Rebuilding

variable {parse : Parser} {bundle : BootBundle} {inputs : BootInputs} {store after : Dataset}

/-- The triples of a document that is handed in. -/
def loadedOptional (parse : Parser) (ttl : Option Text) : Graph :=
  (ttl.map (loadedGraph parse)).getD []

theorem loadedOptional_some (parse : Parser) (ttl : Text) :
    loadedOptional parse (some ttl) = loadedGraph parse ttl := rfl

/-- A pipeline clears the script nodes and sources of the store, the emoji included. -/
def Drops (parse : Parser) (bundle : BootBundle) (inputs : BootInputs) (store : Dataset)
    (subject : Resource) : Prop :=
  inputs.pipeline.isSome ∧ Cleared (store.insert (loadedGraph parse bundle.emoji)) subject

theorem graphs_differ : trustedPipelineGraph ≠ themeGraph := by decide

/-- What a boot leaves. -/
structure Rebuilt (parse : Parser) (bundle : BootBundle) (inputs : BootInputs)
    (before after : Dataset) : Prop where
  theme : ∀ triple, triple ∈ after.named themeGraph ↔
    ∃ ttl ∈ bundle.design ++ [bundle.resolver], triple ∈ loadedGraph parse ttl
  trusted : ∀ triple, triple ∈ after.named trustedPipelineGraph ↔
    if inputs.pipeline.isSome then triple ∈ loadedOptional parse inputs.pipeline
    else triple ∈ before.named trustedPipelineGraph
  others : ∀ graph, graph ≠ themeGraph → graph ≠ trustedPipelineGraph →
    after.named graph = before.named graph
  default : ∀ triple, triple ∈ after.default ↔
    (triple ∈ before.default ∨ triple ∈ loadedGraph parse bundle.emoji) ∧
        ¬ Drops parse bundle inputs before triple.subject ∨
      triple ∈ loadedOptional parse inputs.pipeline ∨ triple ∈ loadedOptional parse inputs.seed

theorem replacePipeline_loaded {ttl : Text} (loaded : replacePipeline parse store ttl = (after, .ok ())) :
    after = ((resetPipeline store).insert (loadedGraph parse ttl)).setNamed trustedPipelineGraph
      (loadedGraph parse ttl) := by
  obtain ⟨triples, parsed⟩ := parsed_of_replaced (congrArg Prod.snd loaded)
  rw [replacePipeline_parsed parsed] at loaded
  have same : loadedGraph parse ttl = triples := by simp [loadedGraph, parsed, Except.toOption]
  rw [Graph.nil_add] at loaded
  rw [same]
  exact (congrArg Prod.fst loaded).symm

theorem loadPipeline_loaded {pipeline : Option Text}
    (loaded : loadPipeline parse pipeline store = (after, .ok ())) :
    (∀ triple, triple ∈ after.default ↔
      triple ∈ store.default ∧ ¬ (pipeline.isSome ∧ Cleared store triple.subject) ∨
        triple ∈ loadedOptional parse pipeline) ∧
    (∀ triple, triple ∈ after.named trustedPipelineGraph ↔
      if pipeline.isSome then triple ∈ loadedOptional parse pipeline
      else triple ∈ store.named trustedPipelineGraph) ∧
    ∀ graph, graph ≠ trustedPipelineGraph → after.named graph = store.named graph := by
  cases pipeline with
  | none =>
      cases loaded
      simp [loadedOptional]
  | some ttl =>
      rw [replacePipeline_loaded loaded]
      refine ⟨fun triple => ?_, fun triple => ?_, fun graph differs => setNamed_other differs⟩
      · simp only [Dataset.setNamed_default, Dataset.insert, Graph.mem_add, mem_resetPipeline]
        simp [loadedOptional]
      · simp [loadedOptional]

theorem loadSeed_loaded {seed : Option Text} (loaded : loadSeed parse seed store = (after, .ok ())) :
    (∀ triple, triple ∈ after.default ↔
      triple ∈ store.default ∨ triple ∈ loadedOptional parse seed) ∧ after.named = store.named := by
  cases seed with
  | none =>
      cases loaded
      simp [loadedOptional]
  | some ttl =>
      rw [insertTurtle_loaded loaded]
      simp [Dataset.insert, loadedOptional]

theorem bootStore_rebuilt (booted : bootStore parse bundle inputs store = (after, .ok ())) :
    Rebuilt parse bundle inputs store after := by
  obtain ⟨bundled, _, base, remaining⟩ := andThen_ok booted
  obtain ⟨piped, _, pipeline, seed⟩ := andThen_ok remaining
  obtain ⟨theme, spared, emoji⟩ := loadBundle_loaded base
  obtain ⟨replaced, mirrored, kept⟩ := loadPipeline_loaded pipeline
  obtain ⟨seeded, named⟩ := loadSeed_loaded seed
  refine ⟨fun triple => ?_, fun triple => ?_, fun graph notTheme notTrusted => ?_, fun triple => ?_⟩
  · rw [named, kept _ graphs_differ.symm, theme]
  · rw [named, mirrored, spared _ graphs_differ]
  · rw [named, kept graph notTrusted, spared graph notTheme]
  · have cleared : Cleared bundled triple.subject ↔
        Cleared (store.insert (loadedGraph parse bundle.emoji)) triple.subject := by
      simp only [Cleared, emoji, Dataset.insert]
    rw [seeded, replaced, emoji, Graph.mem_add, cleared, or_assoc]
    rfl

/-- With a pipeline, what is a script node or a script source after a boot is one in the pipeline or
the seed. -/
theorem Rebuilt.scripts (rebuilt : Rebuilt parse bundle inputs store after)
    (given : inputs.pipeline.isSome) (subject : Resource) {type : Text}
    (script : type ∈ [antennaIri "ScriptNode", antennaIri "ScriptSource"]) :
    Graph.typeTriple subject type ∈ after.default ↔
      Graph.typeTriple subject type ∈ loadedOptional parse inputs.pipeline ∨
        Graph.typeTriple subject type ∈ loadedOptional parse inputs.seed := by
  rw [rebuilt.default]
  apply or_iff_right
  rintro ⟨held, kept⟩
  apply kept
  refine ⟨given, ?_⟩
  have typed : Graph.typeTriple subject type ∈
      (store.insert (loadedGraph parse bundle.emoji)).default := Graph.mem_add.mpr held
  simp only [List.mem_cons, List.not_mem_nil, or_false] at script
  rcases script with rfl | rfl
  · exact Or.inl (Graph.mem_instances.mpr typed)
  · exact Or.inr (Graph.mem_instances.mpr typed)

variable {Carrier : Type} {host : BootHost Carrier} {dag : Dag} {context : Context Dataset Carrier}

theorem newWithTtl_ok (booted : newWithTtl parse host bundle inputs store = (after, .ok (dag, context))) :
    bootStore parse bundle inputs store = (after, .ok ()) ∧
      Dag.load host.llmHttp host.peerScripting host.nodeOrder host.routerOrder after = .ok dag ∧
      ∃ carrier, bootAccount host after carrier inputs.accountId = .ok context := by
  obtain ⟨loaded, _, stored, remaining⟩ := andThen_ok booted
  obtain ⟨rfl, outcome⟩ := Prod.mk.inj remaining
  cases drawn : Dag.load host.llmHttp host.peerScripting host.nodeOrder host.routerOrder loaded with
  | error reason => simp [drawn, bind, Except.bind] at outcome
  | ok dag' =>
      cases begun : host.carrierNew with
      | error reason => simp [drawn, begun, bind, Except.bind] at outcome
      | ok carrier =>
          cases made : bootAccount host loaded carrier inputs.accountId with
          | error reason => simp [drawn, begun, made, bind, Except.bind] at outcome
          | ok made' =>
              simp only [drawn, begun, made, bind, Except.bind, pure, Except.pure, Except.ok.injEq,
                Prod.mk.injEq] at outcome
              obtain ⟨rfl, rfl⟩ := outcome
              exact ⟨stored, rfl, carrier, made⟩

theorem bootAccount_store {carrier : Carrier} {accountId : Option Text}
    (made : bootAccount host after carrier accountId = .ok context) :
    context.world.store = after := by
  unfold bootAccount at made
  split at made
  · split at made
    · cases made
    · cases made
      rfl
  · cases made
    rfl
  · cases made
    rfl

/-- Whatever the store held: after a boot the theme graph is the bundle's, the trusted graph the
pipeline's, and what the default graph says of script nodes and sources is what the pipeline and the
seed say; the rest of the store is kept. -/
theorem boot_rebuilds (booted : newWithTtl parse host bundle inputs store = (after, .ok (dag, context))) :
    Rebuilt parse bundle inputs store after ∧
      (inputs.pipeline.isSome → ∀ subject, ∀ type ∈ [antennaIri "ScriptNode", antennaIri "ScriptSource"],
        (Graph.typeTriple subject type ∈ after.default ↔
          Graph.typeTriple subject type ∈ loadedOptional parse inputs.pipeline ∨
            Graph.typeTriple subject type ∈ loadedOptional parse inputs.seed)) ∧
      context.world.store = after ∧
      Dag.load host.llmHttp host.peerScripting host.nodeOrder host.routerOrder after = .ok dag := by
  obtain ⟨stored, drawn, carrier, made⟩ := newWithTtl_ok booted
  have rebuilt := bootStore_rebuilt stored
  exact ⟨rebuilt, fun given subject type script => rebuilt.scripts given subject script,
    bootAccount_store made, drawn⟩

end Rebuilding

section Success

variable {parse : Parser} {bundle : BootBundle} {inputs : BootInputs}

/-- Every document of a boot. -/
def bootDocuments (bundle : BootBundle) (inputs : BootInputs) : List Text :=
  bundle.design ++ bundle.resolver :: bundle.emoji ::
    (inputs.pipeline.toList ++ inputs.seed.toList)

theorem insertTurtle_parses {ttl : Text} (reads : parses parse ttl) (store : Dataset) :
    insertTurtle parse store ttl = (store.insert (loadedGraph parse ttl), .ok ()) := by
  cases parsed : parse (turtleDocument ttl) with
  | ok triples => simp [insertTurtle, loadedGraph, parsed, Except.toOption]
  | error reason => simp [parses, parsed, Except.toOption] at reads

theorem insertTurtleToGraph_parses {ttl : Text} (reads : parses parse ttl) (store : Dataset)
    (graph : Text) :
    insertTurtleToGraph parse store ttl graph =
      (store.setNamed graph ((store.named graph).add (loadedGraph parse ttl)), .ok ()) := by
  cases parsed : parse (turtleDocument ttl) with
  | ok triples => simp [insertTurtleToGraph, loadedGraph, parsed, Except.toOption]
  | error reason => simp [parses, parsed, Except.toOption] at reads

theorem loadAllToGraph_parses (graph : Text) {texts : List Text}
    (read : ∀ ttl ∈ texts, parses parse ttl) (store : Dataset) :
    ∃ after, loadAllToGraph parse graph texts store = (after, .ok ()) := by
  induction texts generalizing store with
  | nil => exact ⟨store, rfl⟩
  | cons ttl rest ih =>
      rw [loadAllToGraph, insertTurtleToGraph_parses (read ttl (by simp))]
      exact ih (fun other member => read other (List.mem_cons_of_mem _ member)) _

theorem replacePipeline_parses {ttl : Text} (reads : parses parse ttl) (store : Dataset) :
    ∃ after, replacePipeline parse store ttl = (after, .ok ()) := by
  rw [replacePipeline, insertTurtle_parses reads]
  exact ⟨_, insertTurtleToGraph_parses reads _ _⟩

theorem bootStore_parses (read : ∀ ttl ∈ bootDocuments bundle inputs, parses parse ttl)
    (store : Dataset) : ∃ after, bootStore parse bundle inputs store = (after, .ok ()) := by
  have design : ∀ ttl ∈ bundle.design, parses parse ttl :=
    fun ttl member => read ttl (by simp [bootDocuments, member])
  obtain ⟨designed, themes⟩ := loadAllToGraph_parses themeGraph design (clearGraph store themeGraph)
  have resolver : parses parse bundle.resolver := read _ (by simp [bootDocuments])
  have emoji : parses parse bundle.emoji := read _ (by simp [bootDocuments])
  have piped : ∀ store, ∃ after, loadPipeline parse inputs.pipeline store = (after, .ok ()) := by
    intro store
    cases given : inputs.pipeline with
    | none => exact ⟨store, rfl⟩
    | some ttl => exact replacePipeline_parses (read ttl (by simp [bootDocuments, given])) store
  have seeded : ∀ store, ∃ after, loadSeed parse inputs.seed store = (after, .ok ()) := by
    intro store
    cases given : inputs.seed with
    | none => exact ⟨store, rfl⟩
    | some ttl => exact ⟨_, insertTurtle_parses (read ttl (by simp [bootDocuments, given])) store⟩
  rw [bootStore, loadBundle, themes, andThen_done, loadResolverStr,
    insertTurtleToGraph_parses resolver, andThen_done, insertTurtle_parses emoji, andThen_done]
  generalize Dataset.insert _ _ = bundled
  obtain ⟨replaced, pipeline⟩ := piped bundled
  rw [pipeline, andThen_done]
  exact seeded replaced

theorem load_without_routers {llmHttp peerScripting : Bool}
    {nodeOrder : List (FirstWins.Row Text ScriptHead Port) → List (FirstWins.Row Text ScriptHead Port)}
    {store : Dataset}
    (none : ∀ subject, Graph.typeTriple subject (antennaIri "SemanticRouter") ∉ store.default) :
    ∃ dag, Dag.load llmHttp peerScripting nodeOrder id store = .ok dag := by
  have instances : store.default.instances (antennaIri "SemanticRouter") = [] := by
    apply List.eq_nil_iff_forall_not_mem.mpr
    intro subject member
    exact none subject (Graph.mem_instances.mp member)
  have rows : routerRows store.default = [] := by rw [routerRows, instances]; rfl
  have routers : querySemanticRouters id store = [] := by
    rw [querySemanticRouters, rows]
    rfl
  rw [Dag.load, Dag.spawn, routers]
  split
  · exact ⟨_, rfl⟩
  · exact ⟨_, rfl⟩

def sampleBundle : BootBundle := ⟨[peerTtl], peerTtl, peerTtl⟩

def sampleInputs : BootInputs := ⟨some "a".toList, some bundleTtl, some peerTtl⟩

def sampleHost : BootHost Unit where
  llmHttp := false
  peerScripting := true
  nodeOrder := id
  routerOrder := id
  carrierNew := .ok ()
  call _ _ := ((), .ok [])

theorem sample_pipeline :
    loadedOptional bundleParse sampleInputs.pipeline = bundleGraph "new".toList := by
  rw [sampleInputs, loadedOptional_some, loadedGraph, bundleParse_bundle]
  rfl

theorem sample_statement : loadedGraph bundleParse peerTtl =
    [⟨bundleSource, antennaIri "body", stringLiteral "old".toList⟩] := by
  rw [loadedGraph, bundleParse_peer]
  rfl

theorem sample_parses : ∀ ttl ∈ bootDocuments sampleBundle sampleInputs, parses bundleParse ttl := by
  have statement : parses bundleParse peerTtl := by
    rw [parses, bundleParse_peer]
    rfl
  have pipeline : parses bundleParse bundleTtl := by
    rw [parses, bundleParse_bundle]
    rfl
  intro ttl member
  have listed : ttl ∈ [peerTtl, peerTtl, peerTtl, bundleTtl, peerTtl] := member
  simp only [List.mem_cons, List.not_mem_nil, or_false] at listed
  rcases listed with rfl | rfl | rfl | rfl | rfl
  · exact statement
  · exact statement
  · exact statement
  · exact pipeline
  · exact statement

theorem sample_unrouted (body : Text) :
    (∀ subject, Graph.typeTriple subject (antennaIri "SemanticRouter") ∉ bundleGraph body) ∧
    ∀ subject, Graph.typeTriple subject (antennaIri "SemanticRouter") ∉
      [(⟨bundleSource, antennaIri "body", stringLiteral body⟩ : Triple)] := by
  have others : antennaIri "SemanticRouter" ≠ antennaIri "ScriptNode" := by decide
  refine ⟨fun subject => ?_, fun subject => ?_⟩
  · simp [bundleGraph, Graph.typeTriple, others, (antennaIri_ne_type _).symm]
  · simp [Graph.typeTriple, (antennaIri_ne_type _).symm]

theorem sample_boots :
    ∃ after dag, newWithTtl bundleParse sampleHost sampleBundle sampleInputs pipelineStore =
      (after, .ok (dag, bootContext after () [] "a".toList none (some "a".toList))) := by
  obtain ⟨after, stored⟩ := bootStore_parses sample_parses pipelineStore
  have unrouted : ∀ subject,
      Graph.typeTriple subject (antennaIri "SemanticRouter") ∉ after.default := by
    intro subject held
    have piped := (sample_unrouted "new".toList).1
    have stated := (sample_unrouted "old".toList).2
    rcases ((bootStore_rebuilt stored).default _).mp held with ⟨old | emoji, -⟩ | pipeline | seed
    · exact piped subject old
    · rw [sampleBundle, sample_statement] at emoji
      exact stated subject emoji
    · rw [sample_pipeline] at pipeline
      exact piped subject pipeline
    · rw [sampleInputs, loadedOptional_some, sample_statement] at seed
      exact stated subject seed
  obtain ⟨dag, drawn⟩ := load_without_routers unrouted
  refine ⟨after, dag, ?_⟩
  rw [newWithTtl, stored, andThen_done]
  refine Prod.ext rfl ?_
  change (Dag.load false true id id after >>= _) = _
  rw [drawn]
  rfl

theorem boot_rebuilds_sample :
    ∃ after dag context, newWithTtl bundleParse sampleHost sampleBundle sampleInputs pipelineStore =
      (after, .ok (dag, context)) ∧
        Rebuilt bundleParse sampleBundle sampleInputs pipelineStore after := by
  obtain ⟨after, dag, booted⟩ := sample_boots
  exact ⟨after, dag, _, booted, (boot_rebuilds booted).1⟩

end Success

section Restarts

variable {bundle : BootBundle} {inputs : BootInputs} {store settled final : Dataset}

/-- One boot in a row of them. Each has a parser of its own, since every load gives its blank nodes
fresh labels. -/
def bootStep (bundle : BootBundle) (inputs : BootInputs) (store : Dataset) (parse : Parser) :
    Option Dataset :=
  match bootStore parse bundle inputs store with
  | (after, .ok ()) => some after
  | (_, .error _) => none

theorem bootStep_some {parse : Parser} {after : Dataset}
    (stepped : bootStep bundle inputs store parse = some after) :
    bootStore parse bundle inputs store = (after, .ok ()) := by
  unfold bootStep at stepped
  split at stepped
  · rename_i booted
    cases stepped
    exact booted
  · cases stepped

def factsOf (graph : Graph) : Set Triple := {triple | triple ∈ graph}

/-- The triple makes its subject a script node or source, and the boots have a pipeline that replaces
these. -/
def DeclaresScript (pipeline : Option Text) (triple : Triple) : Prop :=
  pipeline.isSome ∧ (triple = Graph.typeTriple triple.subject (antennaIri "ScriptNode") ∨
    triple = Graph.typeTriple triple.subject (antennaIri "ScriptSource"))

/-- What the boot does to the default graph: the emoji are the base, the pipeline and the seed the
source. -/
def bootFacts (parse : Parser) (bundle : BootBundle) (inputs : BootInputs) (facts : Set Triple) :
    Set Triple :=
  refresh Triple.subject (DeclaresScript inputs.pipeline) (factsOf (loadedGraph parse bundle.emoji))
    (factsOf (loadedOptional parse inputs.pipeline) ∪ factsOf (loadedOptional parse inputs.seed)) facts

theorem drops_iff_claimed {parse : Parser} {subject : Resource} :
    Drops parse bundle inputs store subject ↔
      subject ∈ claimed Triple.subject (DeclaresScript inputs.pipeline)
        (factsOf store.default ∪ factsOf (loadedGraph parse bundle.emoji)) := by
  simp only [Drops, Cleared, Graph.mem_instances, Dataset.insert, Graph.mem_add]
  constructor
  · rintro ⟨given, typed | typed⟩
    · exact ⟨_, typed, ⟨given, Or.inl rfl⟩, rfl⟩
    · exact ⟨_, typed, ⟨given, Or.inr rfl⟩, rfl⟩
  · rintro ⟨triple, member, ⟨given, typed | typed⟩, rfl⟩
    · rw [typed] at member
      exact ⟨given, Or.inl member⟩
    · rw [typed] at member
      exact ⟨given, Or.inr member⟩

/-- The default graph of the store refines the set of facts. -/
theorem Rebuilt.facts {parse : Parser} (rebuilt : Rebuilt parse bundle inputs store final) :
    factsOf final.default = bootFacts parse bundle inputs (factsOf store.default) := by
  ext triple
  refine (rebuilt.default triple).trans ?_
  rw [drops_iff_claimed]
  rfl

/-- The documents of the default graph and the trusted one. -/
def bootTexts (bundle : BootBundle) (inputs : BootInputs) : List Text :=
  bundle.emoji :: (inputs.pipeline.toList ++ inputs.seed.toList)

/-- Two boots read the same triples, blank nodes included. -/
def ReadsAlike (bundle : BootBundle) (inputs : BootInputs) (left right : Parser) : Prop :=
  ∀ ttl ∈ bootTexts bundle inputs, loadedGraph left ttl = loadedGraph right ttl

variable {first parse : Parser}

theorem ReadsAlike.optional (alike : ReadsAlike bundle inputs parse first) {ttl : Option Text}
    (listed : ∀ text ∈ ttl, text ∈ bootTexts bundle inputs) :
    loadedOptional parse ttl = loadedOptional first ttl := by
  cases ttl with
  | none => rfl
  | some text => exact alike text (listed text rfl)

theorem ReadsAlike.pipeline (alike : ReadsAlike bundle inputs parse first) :
    loadedOptional parse inputs.pipeline = loadedOptional first inputs.pipeline :=
  alike.optional fun text given => by simp [bootTexts, Option.mem_def.mp given]

theorem ReadsAlike.facts (alike : ReadsAlike bundle inputs parse first) (facts : Set Triple) :
    bootFacts parse bundle inputs facts = bootFacts first bundle inputs facts := by
  have emoji : loadedGraph parse bundle.emoji = loadedGraph first bundle.emoji :=
    alike bundle.emoji (by simp [bootTexts])
  have seed : loadedOptional parse inputs.seed = loadedOptional first inputs.seed :=
    alike.optional fun text given => by simp [bootTexts, Option.mem_def.mp given]
  rw [bootFacts, bootFacts, emoji, alike.pipeline, seed]

/-- A boot with the documents of the row keeps a store in which these have settled. -/
theorem Rebuilt.keeps {before after : Dataset} (rebuilt : Rebuilt parse bundle inputs before after)
    (alike : ReadsAlike bundle inputs parse first)
    (fixed : bootFacts first bundle inputs (factsOf settled.default) = factsOf settled.default)
    (mirrored : inputs.pipeline.isSome → ∀ triple,
      triple ∈ settled.named trustedPipelineGraph ↔ triple ∈ loadedOptional first inputs.pipeline)
    (same : SameStore before settled) : SameStore after settled := by
  have default : factsOf before.default = factsOf settled.default := Set.ext same.default
  have kept : factsOf after.default = factsOf settled.default := by
    rw [rebuilt.facts, alike.facts, default, fixed]
  refine ⟨fun triple => Set.ext_iff.mp kept triple, fun triple => ?_⟩
  rw [rebuilt.trusted, alike.pipeline]
  by_cases given : inputs.pipeline.isSome
  · rw [if_pos given, mirrored given]
  · rw [if_neg given, same.trusted]

/-- Restarting with the same documents settles: after the second boot the default graph and the
trusted one stay what they are, however often the program boots again. -/
theorem boots_settle {second : Parser} {later : List Parser}
    (alike : ∀ parse ∈ second :: later, ReadsAlike bundle inputs parse first)
    (twice : runSteps (bootStep bundle inputs) store [first, second] = some settled)
    (again : runSteps (bootStep bundle inputs) settled later = some final) :
    SameStore final settled := by
  obtain ⟨once, one, rest⟩ := runSteps_cons.mp twice
  obtain ⟨_, two, done⟩ := runSteps_cons.mp rest
  cases done
  have begun := bootStore_rebuilt (bootStep_some one)
  have booted := bootStore_rebuilt (bootStep_some two)
  have alikeTwo := alike second (by simp)
  have fixed : bootFacts first bundle inputs (factsOf settled.default) = factsOf settled.default := by
    rw [booted.facts, alikeTwo.facts, begun.facts]
    exact refresh_settles
  have mirrored : inputs.pipeline.isSome → ∀ triple,
      triple ∈ settled.named trustedPipelineGraph ↔
        triple ∈ loadedOptional first inputs.pipeline := by
    intro given triple
    rw [booted.trusted, if_pos given, alikeTwo.pipeline]
  exact runSteps_preserves (fun _ parse => ReadsAlike bundle inputs parse first)
    (fun current => SameStore current settled)
    (fun _ _ _ same alike stepped =>
      (bootStore_rebuilt (bootStep_some stepped)).keeps alike fixed mirrored same)
    sameStore_refl
    (stepsMeet_of_forall (fun parse member => alike parse (List.mem_cons_of_mem _ member)) _) again

theorem boots_settle_sample :
    ∃ settled final,
      runSteps (bootStep sampleBundle sampleInputs) pipelineStore [bundleParse, bundleParse] =
        some settled ∧
      runSteps (bootStep sampleBundle sampleInputs) settled [bundleParse] = some final ∧
        SameStore final settled := by
  have boots : ∀ store, ∃ after, bootStep sampleBundle sampleInputs store bundleParse = some after := by
    intro store
    obtain ⟨after, booted⟩ := bootStore_parses sample_parses store
    exact ⟨after, by rw [bootStep, booted]⟩
  obtain ⟨once, one⟩ := boots pipelineStore
  obtain ⟨settled, two⟩ := boots once
  obtain ⟨final, three⟩ := boots settled
  have twice := runSteps_cons.mpr ⟨once, one, runSteps_cons.mpr ⟨settled, two, runSteps_nil _ _⟩⟩
  have again := runSteps_cons.mpr ⟨final, three, runSteps_nil _ _⟩
  refine ⟨settled, final, twice, again, boots_settle ?_ twice again⟩
  intro parse member ttl listed
  simp only [List.mem_cons, List.not_mem_nil, or_false, or_self] at member
  rw [member]

/-- No document of the boot makes a script node or source of the subject. -/
def Unscripted (bundle : BootBundle) (inputs : BootInputs) (subject : Resource) (parse : Parser) :
    Prop :=
  ∀ ttl ∈ bootTexts bundle inputs, ∀ type ∈ [antennaIri "ScriptNode", antennaIri "ScriptSource"],
    Graph.typeTriple subject type ∉ loadedGraph parse ttl

theorem Unscripted.optional {subject : Resource} (unscripted : Unscripted bundle inputs subject parse)
    {ttl : Option Text} (listed : ∀ text ∈ ttl, text ∈ bootTexts bundle inputs) {type : Text}
    (script : type ∈ [antennaIri "ScriptNode", antennaIri "ScriptSource"]) :
    Graph.typeTriple subject type ∉ loadedOptional parse ttl := by
  cases ttl with
  | none => exact List.not_mem_nil
  | some text => exact unscripted text (listed text rfl) type script

theorem Rebuilt.unscripted {before after : Dataset} {subject : Resource}
    (rebuilt : Rebuilt parse bundle inputs before after)
    (unscripted : Unscripted bundle inputs subject parse) (given : inputs.pipeline.isSome) {type : Text}
    (script : type ∈ [antennaIri "ScriptNode", antennaIri "ScriptSource"]) :
    Graph.typeTriple subject type ∉ after.default := by
  intro typed
  rcases (rebuilt.scripts given subject script).mp typed with pipeline | seed
  · refine unscripted.optional (fun text given => ?_) script pipeline
    simp [bootTexts, Option.mem_def.mp given]
  · refine unscripted.optional (fun text given => ?_) script seed
    simp [bootTexts, Option.mem_def.mp given]

end Restarts

end LeanAntenna
