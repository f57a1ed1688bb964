import Antenna.DagSteps

/-!
Which threads hold the ends of a ring once the DAG is loaded. The caller of `load` keeps the
broadcast map, so it counts as a writer.
-/

namespace LeanAntenna

open Rdf FirstWins

namespace DagThread

def readers : DagThread → List Nat
  | .node thread => thread.inboxes.map Prod.snd
  | .router thread =>
      match thread.backend with
      | .platform _ channels => [thread.readerA, thread.readerB, channels.responseReader]
      | _ => [thread.readerA, thread.readerB]

def writers : DagThread → List Nat
  | .node _ => []
  | .router thread =>
      match thread.backend with
      | .platform _ channels => [channels.requestWriter]
      | _ => []

end DagThread

/-- The caller of `load`, or a spawned thread by its place among the threads. -/
inductive Holder where
  | main
  | spawned (index : Nat)
deriving DecidableEq, Repr

namespace Dag

def HoldsWriter (dag : Dag) (ring : Nat) : Holder → Prop
  | .main => ∃ channel, (channel, ring) ∈ dag.channelWriters
  | .spawned index => ∃ entry, dag.threads[index]? = some entry ∧ ring ∈ entry.1.writers

def HoldsReader (dag : Dag) (ring : Nat) : Holder → Prop
  | .main => False
  | .spawned index => ∃ entry, dag.threads[index]? = some entry ∧ ring ∈ entry.1.readers

/-- Single producer, single consumer, for every ring that was allocated. -/
structure Spsc (dag : Dag) : Prop where
  writer : ∀ ring < dag.allocated, ∀ left right,
    dag.HoldsWriter ring left → dag.HoldsWriter ring right → left = right
  reader : ∀ ring < dag.allocated, ∀ left right,
    dag.HoldsReader ring left → dag.HoldsReader ring right → left = right

/-- No spawned thread writes a ring, and each reads rings of its own. -/
structure Separate (dag : Dag) : Prop where
  silent : ∀ entry ∈ dag.threads, entry.1.writers = []
  bounded : ∀ entry ∈ dag.threads, ∀ ring ∈ entry.1.readers, ring < dag.allocated
  apart : dag.threads.Pairwise fun left right => ∀ ring ∈ left.1.readers, ring ∉ right.1.readers

theorem Separate.spsc {dag : Dag} (separate : dag.Separate) : dag.Spsc where
  writer := by
    have main : ∀ ring holder, dag.HoldsWriter ring holder → holder = .main := by
      intro ring holder held
      cases holder with
      | main => rfl
      | spawned index =>
          obtain ⟨entry, found, member⟩ := held
          rw [separate.silent entry (List.mem_of_getElem? found)] at member
          cases member
    intro ring _ left right heldLeft heldRight
    rw [main ring left heldLeft, main ring right heldRight]
  reader := by
    intro ring _ left right heldLeft heldRight
    cases left with
    | main => exact heldLeft.elim
    | spawned first =>
        cases right with
        | main => exact heldRight.elim
        | spawned second =>
            obtain ⟨left, foundLeft, readsLeft⟩ := heldLeft
            obtain ⟨right, foundRight, readsRight⟩ := heldRight
            obtain ⟨insideLeft, rfl⟩ := List.getElem?_eq_some_iff.mp foundLeft
            obtain ⟨insideRight, rfl⟩ := List.getElem?_eq_some_iff.mp foundRight
            have pairs := List.pairwise_iff_getElem.mp separate.apart
            rcases Nat.lt_trichotomy first second with below | same | above
            · exact absurd readsRight (pairs first second insideLeft insideRight below ring readsLeft)
            · rw [same]
            · exact absurd readsLeft (pairs second first insideRight insideLeft above ring readsRight)

/-- A thread that writes nothing and reads new rings only keeps the threads separate. -/
theorem Separate.spawn {dag : Dag} (separate : dag.Separate) {next : Dag}
    {entry : DagThread × List Text} (threads : next.threads = dag.threads ++ [entry])
    (grown : dag.allocated ≤ next.allocated) (quiet : entry.1.writers = [])
    (fresh : ∀ ring ∈ entry.1.readers, dag.allocated ≤ ring ∧ ring < next.allocated) :
    next.Separate where
  silent := by
    rw [threads]
    intro other member
    rcases List.mem_append.mp member with old | new
    · exact separate.silent other old
    · rw [List.mem_singleton.mp new]
      exact quiet
  bounded := by
    rw [threads]
    intro other member ring read
    rcases List.mem_append.mp member with old | new
    · have below := separate.bounded other old ring read
      omega
    · rw [List.mem_singleton.mp new] at read
      exact (fresh ring read).2
  apart := by
    rw [threads, List.pairwise_append]
    refine ⟨separate.apart, List.pairwise_singleton _ _, ?_⟩
    intro other old new same ring read also
    rw [List.mem_singleton.mp same] at also
    have below := separate.bounded other old ring read
    have above := (fresh ring also).1
    omega

theorem separate_empty : empty.Separate :=
  ⟨by simp [empty], by simp [empty], by simp [empty]⟩

theorem Separate.addNode {dag : Dag} (separate : dag.Separate) (node : ScriptNodeDef) :
    (dag.addNode node).Separate := by
  apply separate.spawn rfl (Nat.le_add_right _ _) rfl
  intro ring member
  obtain ⟨⟨channel, number⟩, inside, rfl⟩ := List.mem_map.mp member
  have bounds := List.mem_zipIdx inside
  simp only [Dag.addNode]
  omega

theorem Separate.addPlatform {dag : Dag} (separate : dag.Separate) : dag.addPlatform.Separate where
  silent := separate.silent
  bounded := fun entry member ring read =>
    Nat.lt_of_lt_of_le (separate.bounded entry member ring read) (Nat.le_add_right _ _)
  apart := separate.apart

theorem separate_nodes (nodes : List ScriptNodeDef) : (nodes.foldl Dag.addNode empty).Separate := by
  suffices kept : ∀ dag : Dag, dag.Separate → (nodes.foldl Dag.addNode dag).Separate from
    kept empty separate_empty
  induction nodes with
  | nil => exact fun dag held => held
  | cons node rest ih => exact fun dag held => ih _ (held.addNode node)

/-- Only the backend type `platform` gives a platform backend. -/
theorem platform_of_created {Channels : Type} {llmHttp : Bool} {backendType endpoint model : Text}
    {channels held : Channels} {name : Text}
    (created : createBackend llmHttp backendType endpoint model
      (platformChannels channels backendType) = .ok (.platform name held)) :
    backendType = "platform".toList ∧ held = channels := by
  unfold createBackend at created
  split at created
  · split at created
    · split at created
      · cases created
      · cases created
    · cases created
  · split at created
    · rename_i platform
      rw [platformChannels, if_pos platform] at created
      cases created
      exact ⟨platform, rfl⟩
    · cases created

theorem Separate.withRouter {dag : Dag} (separate : dag.Separate) {router : SemanticRouterDef}
    {backend : LlmBackend BackendChannels}
    (own : ∀ model channels, backend ≠ .platform model channels) :
    (dag.withRouter router backend).Separate := by
  apply separate.spawn rfl (Nat.le_add_right _ _)
  · cases backend with
    | ollama endpoint model => rfl
    | http endpoint model => rfl
    | platform model channels => exact absurd rfl (own model channels)
  · intro ring member
    have two : ring ∈ [dag.allocated, dag.allocated + 1] := by
      cases backend with
      | ollama endpoint model => exact member
      | http endpoint model => exact member
      | platform model channels => exact absurd rfl (own model channels)
    simp only [List.mem_cons, List.not_mem_nil, or_false] at two
    simp only [Dag.withRouter]
    omega

/-- The backend that a platform router is given. -/
theorem created_platform {llmHttp : Bool} {endpoint model : Text} {channels : BackendChannels}
    {backend : LlmBackend BackendChannels}
    (created : createBackend llmHttp "platform".toList endpoint model
      (platformChannels channels "platform".toList) = .ok backend) :
    backend = .platform model channels := by
  have apart : "platform".toList ≠ "ollama".toList ∧ "platform".toList ≠ "http".toList := by decide
  unfold createBackend platformChannels at created
  rw [if_neg (not_or.mpr apart), if_pos rfl, if_pos rfl] at created
  cases created
  rfl

variable {llmHttp : Bool} {nodes : List ScriptNodeDef} {routers : List SemanticRouterDef} {dag : Dag}

theorem spawn_separate (spawned : spawn llmHttp nodes routers = .ok dag)
    (none : ∀ router ∈ routers, router.backendType ≠ "platform".toList) : dag.Separate := by
  unfold spawn at spawned
  split at spawned
  · cases spawned
    exact separate_empty
  · apply addRouters_preserves Separate _ (separate_nodes nodes).addPlatform spawned
    intro later held router member backend created
    apply held.withRouter
    rintro model channels rfl
    exact none router member (platform_of_created created).1

theorem addRouters_allocated {channels : BackendChannels} {start final : Dag}
    (done : addRouters llmHttp channels start routers = .ok final) :
    start.allocated ≤ final.allocated := by
  apply addRouters_preserves (fun later => start.allocated ≤ later.allocated) _ (Nat.le_refl _) done
  intro later held router _ backend _
  exact Nat.le_trans held (Nat.le_add_right _ _)

/-- A platform router writes the request ring, which the caller of `load` writes as well. -/
theorem not_spsc_of_platform (spawned : spawn llmHttp nodes routers = .ok dag)
    {router : SemanticRouterDef} (member : router ∈ routers)
    (platform : router.backendType = "platform".toList) : ¬ dag.Spsc := by
  intro spsc
  unfold spawn at spawned
  split at spawned
  · rename_i nothing
    rw [nothing.2] at member
    cases member
  · have present := addRouters_writers spawned
      (List.mem_append_right _ (List.mem_singleton.mpr rfl))
    have inside := addRouters_allocated spawned
    obtain ⟨others, threads, matched⟩ := addRouters_spawned spawned
    obtain ⟨entry, among, thread, rfl, given⟩ := forall₂_left matched member
    obtain ⟨index, found⟩ := List.mem_iff_getElem?.mp
      (threads ▸ List.mem_append_right _ among : (DagThread.router thread, router.outs) ∈ dag.threads)
    have backend := given.backend
    rw [platform] at backend
    have writes := created_platform backend
    have both := spsc.writer _ (Nat.lt_of_lt_of_le (Nat.lt_add_of_pos_right Nat.two_pos) inside)
      .main (.spawned index) ⟨_, present⟩ ⟨_, found, by simp [DagThread.writers, writes]⟩
    cases both

/-- The first solution of some router's URI, which is the one that counts, names the platform
backend. -/
def PlatformRouter (routerOrder : List (Row Text RouterHead Text) → List (Row Text RouterHead Text))
    (store : Dataset) : Prop :=
  ∃ row, (routerOrder (routerRows store.default)).find? (·.key = row.key) = some row ∧
    row.head.backendType = "platform".toList

theorem platformRouter_iff
    (routerOrder : List (Row Text RouterHead Text) → List (Row Text RouterHead Text))
    (store : Dataset) : PlatformRouter routerOrder store ↔
      ∃ router ∈ querySemanticRouters routerOrder store, router.backendType = "platform".toList := by
  simp only [querySemanticRouters, List.mem_map, exists_exists_and_eq_and]
  constructor
  · rintro ⟨row, first, platform⟩
    obtain ⟨entry, member, -, same⟩ := mem_collect_of_first first
    exact ⟨entry, member, (congrArg RouterHead.backendType same).trans platform⟩
  · rintro ⟨entry, member, platform⟩
    obtain ⟨row, first, same⟩ := first_of_mem_collect member
    have key : row.key = entry.key := by simpa using List.find?_some first
    exact ⟨row, by rw [key, first], (congrArg RouterHead.backendType same).trans platform⟩

/-- Every ring of a loaded DAG has one writing and one reading thread at most exactly if no platform
router was loaded. -/
theorem load_spsc_iff {llmHttp peerScripting : Bool}
    {nodeOrder : List (Row Text ScriptHead Port) → List (Row Text ScriptHead Port)}
    {routerOrder : List (Row Text RouterHead Text) → List (Row Text RouterHead Text)}
    {store : Dataset} {dag : Dag}
    (loaded : load llmHttp peerScripting nodeOrder routerOrder store = .ok dag) :
    dag.Spsc ↔ ¬ PlatformRouter routerOrder store := by
  rw [platformRouter_iff]
  constructor
  · rintro spsc ⟨router, member, platform⟩
    exact not_spsc_of_platform loaded member platform spsc
  · intro none
    apply (spawn_separate loaded _).spsc
    intro router member platform
    exact none ⟨router, member, platform⟩

end Dag

section Sample

def routerNode : Resource := .iri "urn:router".toList

def routerBackend : Resource := .iri "urn:backend".toList

/-- One router over a backend of the given type. -/
def routerGraph (backendType : Text) : Graph :=
  [Graph.typeTriple routerNode (antennaIri "SemanticRouter"),
    ⟨routerNode, antennaIri "inA", .resource (.iri "urn:a".toList)⟩,
    ⟨routerNode, antennaIri "inB", .resource (.iri "urn:b".toList)⟩,
    ⟨routerNode, antennaIri "llmBackend", .resource routerBackend⟩,
    ⟨routerBackend, antennaIri "backendType", stringLiteral backendType⟩]

def routerStore (backendType : Text) : Dataset := ⟨routerGraph backendType, fun _ => []⟩

theorem routerGraph_backendType {kind : Text} {backend : Resource} {term : Term}
    (given : ⟨backend, antennaIri "backendType", term⟩ ∈ routerGraph kind) :
    term = stringLiteral kind := by
  have others : antennaIri "backendType" ≠ antennaIri "inA" ∧
      antennaIri "backendType" ≠ antennaIri "inB" ∧
      antennaIri "backendType" ≠ antennaIri "llmBackend" := by simp [antennaIri]
  simp only [routerGraph, Graph.typeTriple, List.mem_cons, Triple.mk.injEq, antennaIri_ne_type,
    others, false_and, and_false, List.not_mem_nil, or_false, false_or] at given
  exact given.2.2

theorem routerRows_sample {kind : Text} {row : Row Text RouterHead Text}
    (member : row ∈ routerRows (routerGraph kind)) : row.head.backendType = kind := by
  obtain ⟨node, inA, inB, backend, backendType, -, -, -, -, given, _, -, _, -, _, -, _, -, _, -,
    rfl⟩ := mem_routerRows.mp member
  rw [routerGraph_backendType given]
  rfl

theorem exists_routerRow (kind : Text) : ∃ row, row ∈ routerRows (routerGraph kind) := by
  have bound := fun subject predicate =>
    List.exists_mem_of_ne_nil _ (@Graph.optional_ne_nil (routerGraph kind) subject predicate)
  obtain ⟨endpoint, first⟩ := bound routerBackend (antennaIri "endpoint")
  obtain ⟨model, second⟩ := bound routerBackend (antennaIri "model")
  obtain ⟨output, third⟩ := bound routerNode (antennaIri "out")
  obtain ⟨systemPrompt, fourth⟩ := bound routerNode (antennaIri "systemPrompt")
  obtain ⟨maxTokens, fifth⟩ := bound routerNode (antennaIri "maxTokens")
  refine ⟨_, mem_routerRows.mpr ⟨routerNode, .resource (.iri "urn:a".toList),
    .resource (.iri "urn:b".toList), routerBackend, stringLiteral kind, ?_, ?_, ?_, ?_, ?_,
    endpoint, first, model, second, output, third, systemPrompt, fourth, maxTokens, fifth, rfl⟩⟩
  all_goals simp [routerGraph]

theorem load_sample {kind : Text} (known : KnownBackend true kind) :
    ∃ dag, Dag.load true false id id (routerStore kind) = .ok dag := by
  apply Dag.spawn_ok_iff.mpr
  intro router member
  obtain ⟨entry, collected, rfl⟩ := List.mem_map.mp member
  obtain ⟨row, first, same⟩ := first_of_mem_collect collected
  have named := routerRows_sample (List.mem_of_find?_eq_some first)
  rw [same] at named
  rwa [semanticRouterDef, named]

/-- One platform router is enough: the main thread and the router's both write the request ring. -/
theorem platform_router_shares_ring :
    ∃ dag, Dag.load true false id id (routerStore "platform".toList) = .ok dag ∧ ¬ dag.Spsc := by
  obtain ⟨dag, loaded⟩ := load_sample (Or.inl (Eq.refl "platform".toList))
  obtain ⟨row, member⟩ := exists_routerRow "platform".toList
  have present : ((routerRows (routerGraph "platform".toList)).find?
      fun other => decide (other.key = row.key)).isSome = true := by
    rw [List.find?_isSome]
    exact ⟨row, member, decide_eq_true rfl⟩
  obtain ⟨first, found⟩ := Option.isSome_iff_exists.mp present
  have same : first.key = row.key := by simpa using List.find?_some found
  obtain ⟨router, among, platform⟩ := (Dag.platformRouter_iff id (routerStore "platform".toList)).mp
    ⟨first, by rw [same]; exact found, routerRows_sample (List.mem_of_find?_eq_some found)⟩
  exact ⟨dag, loaded, Dag.not_spsc_of_platform loaded among platform⟩

/-- An Ollama router shares no ring. -/
theorem load_spsc_iff_ollama :
    ∃ dag, Dag.load true false id id (routerStore "ollama".toList) = .ok dag ∧ dag.Spsc := by
  obtain ⟨dag, loaded⟩ := load_sample (Or.inr ⟨rfl, Or.inl (Eq.refl "ollama".toList)⟩)
  refine ⟨dag, loaded, (Dag.load_spsc_iff loaded).mpr ?_⟩
  rintro ⟨row, first, platform⟩
  have named := routerRows_sample (List.mem_of_find?_eq_some first)
  rw [platform] at named
  exact absurd named (by decide)

end Sample

end LeanAntenna
