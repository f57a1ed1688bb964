import Antenna.DagCore

/-!
The backends that a build can create, the run of the router phase, and the solutions of the router
query as facts about the graph.
-/

namespace LeanAntenna

open Rdf FirstWins

/-- The backend types for which `createBackend` gives a backend. -/
def KnownBackend (llmHttp : Bool) (backendType : Text) : Prop :=
  backendType = "platform".toList ∨
    llmHttp = true ∧ (backendType = "ollama".toList ∨ backendType = "http".toList)

instance (llmHttp : Bool) (backendType : Text) : Decidable (KnownBackend llmHttp backendType) :=
  inferInstanceAs (Decidable (_ ∨ _))

theorem createBackend_ok_iff {Channels : Type} (llmHttp : Bool) (backendType endpoint model : Text)
    (channels : Channels) :
    (∃ backend, createBackend llmHttp backendType endpoint model
      (Dag.platformChannels channels backendType) = .ok backend) ↔
        KnownBackend llmHttp backendType := by
  have apart : "platform".toList ≠ "ollama".toList ∧ "platform".toList ≠ "http".toList := by decide
  unfold createBackend KnownBackend Dag.platformChannels
  by_cases platform : backendType = "platform".toList
  · subst platform
    rw [if_neg (not_or.mpr apart), if_pos rfl, if_pos rfl]
    exact iff_of_true ⟨_, rfl⟩ (Or.inl rfl)
  · rw [or_iff_right platform]
    by_cases http : backendType = "ollama".toList ∨ backendType = "http".toList
    · rw [if_pos http]
      cases llmHttp with
      | true =>
          rw [if_pos rfl]
          apply iff_of_true _ ⟨rfl, http⟩
          split
          · exact ⟨_, rfl⟩
          · exact ⟨_, rfl⟩
      | false =>
          rw [if_neg Bool.false_ne_true]
          apply iff_of_false
          · rintro ⟨backend, created⟩
            cases created
          · rintro ⟨enabled, -⟩
            cases enabled
    · rw [if_neg http, if_neg platform]
      apply iff_of_false
      · rintro ⟨backend, created⟩
        cases created
      · rintro ⟨-, named⟩
        exact http named

namespace Dag

variable {llmHttp : Bool} {channels : BackendChannels}

theorem addRouter_ok {dag added : Dag} {router : SemanticRouterDef}
    (done : addRouter llmHttp channels dag router = .ok added) :
    ∃ backend, createBackend llmHttp router.backendType router.endpoint router.model
      (platformChannels channels router.backendType) = .ok backend ∧
        added = dag.withRouter router backend := by
  unfold addRouter at done
  split at done
  · cases done
  · rename_i backend created
    cases done
    exact ⟨backend, created, rfl⟩

theorem addRouter_known (channels : BackendChannels) (dag : Dag) {router : SemanticRouterDef} :
    (∃ added, addRouter llmHttp channels dag router = .ok added) ↔
      KnownBackend llmHttp router.backendType := by
  rw [← createBackend_ok_iff llmHttp router.backendType router.endpoint router.model channels]
  constructor
  · rintro ⟨added, done⟩
    obtain ⟨backend, created, -⟩ := addRouter_ok done
    exact ⟨backend, created⟩
  · rintro ⟨backend, created⟩
    exact ⟨_, by rw [addRouter, created]⟩

/-- What each added router preserves holds after the router phase. -/
theorem addRouters_preserves (invariant : Dag → Prop) {routers : List SemanticRouterDef}
    (preserved : ∀ dag, invariant dag → ∀ router ∈ routers, ∀ backend,
      createBackend llmHttp router.backendType router.endpoint router.model
        (platformChannels channels router.backendType) = .ok backend →
          invariant (dag.withRouter router backend))
    {dag final : Dag} (start : invariant dag)
    (done : addRouters llmHttp channels dag routers = .ok final) : invariant final := by
  induction routers generalizing dag with
  | nil =>
      cases done
      exact start
  | cons router rest ih =>
      unfold addRouters at done
      split at done
      · cases done
      · rename_i added first
        obtain ⟨backend, created, rfl⟩ := addRouter_ok first
        apply ih (fun dag held other member => preserved dag held other (List.mem_cons_of_mem _ member))
          _ done
        exact preserved dag start router List.mem_cons_self backend created

/-- The router phase succeeds exactly if every router's backend can be created. -/
theorem addRouters_ok_iff {dag : Dag} {routers : List SemanticRouterDef} :
    (∃ final, addRouters llmHttp channels dag routers = .ok final) ↔
      ∀ router ∈ routers, KnownBackend llmHttp router.backendType := by
  induction routers generalizing dag with
  | nil => exact iff_of_true ⟨dag, rfl⟩ (by simp)
  | cons router rest ih =>
      rw [List.forall_mem_cons, ← addRouter_known channels dag]
      cases first : addRouter llmHttp channels dag router with
      | error reason => simp [addRouters, first]
      | ok added => simp [addRouters, first, ih]

theorem spawn_ok_iff {nodes : List ScriptNodeDef} {routers : List SemanticRouterDef} :
    (∃ dag, spawn llmHttp nodes routers = .ok dag) ↔
      ∀ router ∈ routers, KnownBackend llmHttp router.backendType := by
  unfold spawn
  split
  · rename_i nothing
    rw [nothing.2]
    exact iff_of_true ⟨empty, rfl⟩ (by simp)
  · exact addRouters_ok_iff

theorem addRouters_writers {dag final : Dag} {routers : List SemanticRouterDef}
    (done : addRouters llmHttp channels dag routers = .ok final) :
    dag.channelWriters ⊆ final.channelWriters := by
  apply addRouters_preserves (fun later => dag.channelWriters ⊆ later.channelWriters) _
    (List.Subset.refl _) done
  intro later held router _ backend _
  exact List.subset_append_of_subset_left _ held

/-- The thread spawned for a router, with the writers of its two inboxes. -/
structure Spawned (llmHttp : Bool) (channels : BackendChannels) (dag : Dag)
    (router : SemanticRouterDef) (thread : RouterThread) : Prop where
  uri : thread.uri = router.uri
  inputA : (router.inA, thread.readerA) ∈ dag.channelWriters
  inputB : (router.inB, thread.readerB) ∈ dag.channelWriters
  backend : createBackend llmHttp router.backendType router.endpoint router.model
    (platformChannels channels router.backendType) = .ok thread.backend
  systemPrompt : thread.systemPrompt = router.systemPrompt
  maxTokens : thread.maxTokens = router.maxTokens

theorem forall₂_left {Left Right : Type} {related : Left → Right → Prop} {lefts : List Left}
    {rights : List Right} (matched : List.Forall₂ related lefts rights) {right : Right}
    (member : right ∈ rights) : ∃ left ∈ lefts, related left right := by
  induction matched with
  | nil => cases member
  | cons first _ ih =>
      rcases List.mem_cons.mp member with rfl | later
      · exact ⟨_, List.mem_cons_self, first⟩
      · obtain ⟨left, inside, related⟩ := ih later
        exact ⟨left, List.mem_cons_of_mem _ inside, related⟩

/-- The router phase spawns one thread for each router, in order. -/
theorem addRouters_spawned {dag final : Dag} {routers : List SemanticRouterDef}
    (done : addRouters llmHttp channels dag routers = .ok final) :
    ∃ spawned, final.threads = dag.threads ++ spawned ∧
      List.Forall₂ (fun entry router => ∃ thread, entry = (.router thread, router.outs) ∧
        Spawned llmHttp channels final router thread) spawned routers := by
  induction routers generalizing dag with
  | nil =>
      cases done
      exact ⟨[], by simp, List.Forall₂.nil⟩
  | cons router rest ih =>
      unfold addRouters at done
      split at done
      · cases done
      · rename_i added first
        obtain ⟨backend, created, rfl⟩ := addRouter_ok first
        obtain ⟨spawned, threads, matched⟩ := ih done
        have kept := addRouters_writers done
        refine ⟨_ :: spawned, by rw [threads, withRouter, List.append_assoc]; rfl, ?_⟩
        refine List.Forall₂.cons ⟨_, rfl, rfl, kept ?_, kept ?_, created, rfl, rfl⟩ matched
        · simp [withRouter]
        · simp [withRouter]

end Dag

theorem mem_routerRows {graph : Graph} {row : Row Text RouterHead Text} :
    row ∈ routerRows graph ↔ ∃ node inA inB backend backendType,
      Graph.typeTriple node (antennaIri "SemanticRouter") ∈ graph ∧
      ⟨node, antennaIri "inA", inA⟩ ∈ graph ∧ ⟨node, antennaIri "inB", inB⟩ ∈ graph ∧
      ⟨node, antennaIri "llmBackend", .resource backend⟩ ∈ graph ∧
      ⟨backend, antennaIri "backendType", backendType⟩ ∈ graph ∧
      ∃ endpoint ∈ graph.optional backend (antennaIri "endpoint"),
      ∃ model ∈ graph.optional backend (antennaIri "model"),
      ∃ output ∈ graph.optional node (antennaIri "out"),
      ∃ systemPrompt ∈ graph.optional node (antennaIri "systemPrompt"),
      ∃ maxTokens ∈ graph.optional node (antennaIri "maxTokens"),
        row = routerRow node inA inB backendType endpoint model output systemPrompt maxTokens := by
  simp only [routerRows, List.bind_eq_flatMap, List.pure_def, List.mem_flatMap, Graph.mem_instances,
    Graph.mem_resources, Graph.mem_objects, List.mem_singleton]
  constructor
  · rintro ⟨node, typed, inA, first, inB, second, backend, served, backendType, kind, rest⟩
    exact ⟨node, inA, inB, backend, backendType, typed, first, second, served, kind, rest⟩
  · rintro ⟨node, inA, inB, backend, backendType, typed, first, second, served, kind, rest⟩
    exact ⟨node, typed, inA, first, inB, second, backend, served, backendType, kind, rest⟩

end LeanAntenna
