import Antenna.DagWiring

/-!
What the default graph can do to the routers of the DAG. The trusted graph gates the script nodes
only: routers are read from the default graph in every build.
-/

namespace LeanAntenna

open Rdf FirstWins

/-- What a router's thread is spawned with. -/
structure RouterSpawn where
  inA : Text
  inB : Text
  backend : LlmBackend Unit
  systemPrompt : Text
deriving DecidableEq, Repr

def LlmBackend.settings {Channels : Type} : LlmBackend Channels → LlmBackend Unit
  | .ollama endpoint model => .ollama endpoint model
  | .http endpoint model => .http endpoint model
  | .platform model _ => .platform model ()

def spawnOf (llmHttp : Bool) (head : RouterHead) : Except Text RouterSpawn :=
  (createBackend llmHttp head.backendType head.endpoint head.model
    (Dag.platformChannels () head.backendType)).map fun backend =>
      ⟨head.inA, head.inB, backend, head.systemPrompt⟩

namespace Dag

/-- The channel whose broadcasts fill the ring. -/
def channelOf (dag : Dag) (ring : Nat) : Option Text :=
  (dag.channelWriters.find? (·.2 = ring)).map Prod.fst

def routerRow (dag : Dag) : DagThread × List Text → Option (Row Text RouterSpawn Text)
  | (.node _, _) => none
  | (.router thread, outs) => some {
      key := thread.uri
      head := {
        inA := (dag.channelOf thread.readerA).getD []
        inB := (dag.channelOf thread.readerB).getD []
        backend := thread.backend.settings
        systemPrompt := thread.systemPrompt }
      extras := outs }

/-- The router threads of the DAG by their URI. -/
def routers (dag : Dag) : View Text RouterSpawn Text := view (dag.threads.filterMap dag.routerRow)

end Dag

/-- With peer-scripting off, a load of the store can spawn these routers. -/
def CanSpawn (llmHttp : Bool) (store : Dataset) (seen : View Text RouterSpawn Text) : Prop :=
  ∃ nodeOrder routerOrder, (∀ rows, (nodeOrder rows).Perm rows) ∧
    (∀ rows, (routerOrder rows).Perm rows) ∧
      ∃ dag, Dag.load llmHttp false nodeOrder routerOrder store = .ok dag ∧ dag.routers = seen

def CanFail (llmHttp : Bool) (store : Dataset) : Prop :=
  ∃ nodeOrder routerOrder, (∀ rows, (nodeOrder rows).Perm rows) ∧
    (∀ rows, (routerOrder rows).Perm rows) ∧
      ∃ reason, Dag.load llmHttp false nodeOrder routerOrder store = .error reason

/-- Some solution of the router query names a backend that cannot be created. -/
def Failing (llmHttp : Bool) (graph : Graph) : Prop :=
  ∃ row ∈ routerRows graph, ¬ KnownBackend llmHttp row.head.backendType

/-- All the solutions for some router name such a backend. -/
def Stranded (llmHttp : Bool) (graph : Graph) : Prop :=
  ∃ row ∈ routerRows graph, ∀ other ∈ routerRows graph, other.key = row.key →
    ¬ KnownBackend llmHttp other.head.backendType

def routerSpawns (llmHttp : Bool) (graph : Graph) (uri : Text) : Set RouterSpawn :=
  {spawn | ∃ row ∈ routerRows graph, row.key = uri ∧ spawnOf llmHttp row.head = .ok spawn}

def routerOuts (graph : Graph) (uri : Text) : Set Text :=
  {channel | ∃ row ∈ routerRows graph, row.key = uri ∧ channel ∈ row.extras}

/-- Two graphs with the same solutions of the router query, as far as a load can tell. -/
structure SameRouters (llmHttp : Bool) (left right : Graph) : Prop where
  failing : Failing llmHttp left ↔ Failing llmHttp right
  stranded : Stranded llmHttp left ↔ Stranded llmHttp right
  spawns : ¬ Stranded llmHttp left → ∀ uri,
    routerSpawns llmHttp left uri = routerSpawns llmHttp right uri
  outs : ¬ Stranded llmHttp left → ∀ uri, routerOuts left uri = routerOuts right uri

namespace Dag

/-- Every ring in the broadcast map has one channel, and new rings have new numbers. -/
structure Numbered (dag : Dag) : Prop where
  distinct : (dag.channelWriters.map Prod.snd).Nodup
  bounded : ∀ entry ∈ dag.channelWriters, entry.2 < dag.allocated

theorem Numbered.extend {dag next : Dag} (numbered : dag.Numbered)
    {added : List (Text × Nat)} (writers : next.channelWriters = dag.channelWriters ++ added)
    (grown : dag.allocated ≤ next.allocated) (distinct : (added.map Prod.snd).Nodup)
    (fresh : ∀ entry ∈ added, dag.allocated ≤ entry.2 ∧ entry.2 < next.allocated) :
    next.Numbered where
  distinct := by
    rw [writers, List.map_append, List.nodup_append]
    refine ⟨numbered.distinct, distinct, ?_⟩
    intro ring old other new same
    obtain ⟨first, inside, rfl⟩ := List.mem_map.mp old
    obtain ⟨second, outside, rfl⟩ := List.mem_map.mp new
    have below := numbered.bounded first inside
    have above := (fresh second outside).1
    omega
  bounded := by
    rw [writers]
    intro entry member
    rcases List.mem_append.mp member with old | new
    · exact Nat.lt_of_lt_of_le (numbered.bounded entry old) grown
    · exact (fresh entry new).2

theorem numbered_empty : empty.Numbered := ⟨List.nodup_nil, by simp [empty]⟩

theorem Numbered.addNode {dag : Dag} (numbered : dag.Numbered) (node : ScriptNodeDef) :
    (dag.addNode node).Numbered := by
  apply numbered.extend rfl (Nat.le_add_right _ _)
  · rw [List.zipIdx_map_snd]
    exact List.nodup_range'
  · rintro ⟨channel, ring⟩ member
    have bounds := List.mem_zipIdx member
    simp only [Dag.addNode]
    omega

theorem Numbered.addPlatform {dag : Dag} (numbered : dag.Numbered) : dag.addPlatform.Numbered := by
  apply numbered.extend rfl (Nat.le_add_right _ _) (by simp)
  intro entry member
  rw [List.mem_singleton.mp member]
  simp only [Dag.addPlatform]
  omega

theorem Numbered.withRouter {dag : Dag} (numbered : dag.Numbered) (router : SemanticRouterDef)
    (backend : LlmBackend BackendChannels) : (dag.withRouter router backend).Numbered := by
  apply numbered.extend rfl (Nat.le_add_right _ _) (by simp)
  intro entry member
  simp only [List.mem_cons, List.not_mem_nil, or_false] at member
  rcases member with rfl | rfl
  · simp only [Dag.withRouter]
    omega
  · simp only [Dag.withRouter]
    omega

theorem numbered_nodes (nodes : List ScriptNodeDef) : (nodes.foldl Dag.addNode empty).Numbered := by
  suffices kept : ∀ dag : Dag, dag.Numbered → (nodes.foldl Dag.addNode dag).Numbered from
    kept empty numbered_empty
  induction nodes with
  | nil => exact fun dag held => held
  | cons node rest ih => exact fun dag held => ih _ (held.addNode node)

theorem Numbered.channelOf {dag : Dag} (numbered : dag.Numbered) {channel : Text} {ring : Nat}
    (member : (channel, ring) ∈ dag.channelWriters) : dag.channelOf ring = some channel := by
  cases found : dag.channelWriters.find? (·.2 = ring) with
  | none =>
      rw [List.find?_eq_none] at found
      exact absurd (decide_eq_true rfl) (found _ member)
  | some entry =>
      have same : entry.2 = ring := by simpa using List.find?_some found
      have equal := List.inj_on_of_nodup_map numbered.distinct (List.mem_of_find?_eq_some found)
        member same
      rw [Dag.channelOf, found, equal]
      rfl

end Dag

theorem createBackend_settings {Channels : Type} (llmHttp : Bool)
    (backendType endpoint model : Text) (channels : Channels) :
    (createBackend llmHttp backendType endpoint model
      (Dag.platformChannels channels backendType)).map LlmBackend.settings =
        createBackend llmHttp backendType endpoint model (Dag.platformChannels () backendType) := by
  unfold createBackend
  split
  · split
    · split
      · rfl
      · rfl
    · rfl
  · split
    · rename_i platform
      rw [Dag.platformChannels, Dag.platformChannels, if_pos platform, if_pos platform]
      rfl
    · rfl

theorem spawnOf_ok_iff {llmHttp : Bool} {head : RouterHead} :
    (∃ spawn, spawnOf llmHttp head = .ok spawn) ↔ KnownBackend llmHttp head.backendType := by
  rw [← createBackend_ok_iff llmHttp head.backendType head.endpoint head.model ()]
  unfold spawnOf
  cases createBackend llmHttp head.backendType head.endpoint head.model
      (Dag.platformChannels () head.backendType) with
  | error reason => simp [Except.map]
  | ok backend => simp [Except.map]

namespace Dag

variable {llmHttp : Bool} {nodes : List ScriptNodeDef} {entries : List (Row Text RouterHead Text)}
  {dag : Dag}

/-- A spawned thread shows the solution that it was spawned for. -/
theorem routerRow_of_spawned (numbered : dag.Numbered) {channels : BackendChannels}
    {entry : Row Text RouterHead Text} {thread : RouterThread}
    (spawned : Spawned llmHttp channels dag (semanticRouterDef entry) thread) :
    ∃ shown, dag.routerRow (.router thread, (semanticRouterDef entry).outs) = some shown ∧
      shown.mapHead Except.ok = entry.mapHead (spawnOf llmHttp) := by
  refine ⟨_, rfl, ?_⟩
  have settings : createBackend llmHttp entry.head.backendType entry.head.endpoint entry.head.model
      (platformChannels () entry.head.backendType) = .ok thread.backend.settings := by
    rw [← createBackend_settings llmHttp _ _ _ channels]
    exact congrArg (Except.map LlmBackend.settings) spawned.backend
  simp only [Row.mapHead, spawnOf, settings, Except.map, spawned.uri, spawned.systemPrompt,
    numbered.channelOf spawned.inputA, numbered.channelOf spawned.inputB, Option.getD_some]
  rfl

theorem routerRow_nodes (dag : Dag) :
    (nodes.foldl addNode empty).threads.filterMap dag.routerRow = [] := by
  suffices kept : ∀ before : Dag, before.threads.filterMap dag.routerRow = [] →
      (nodes.foldl addNode before).threads.filterMap dag.routerRow = [] from kept empty rfl
  induction nodes with
  | nil => exact fun before none => none
  | cons node rest ih =>
      intro before none
      apply ih
      simp [addNode, none, routerRow]

/-- A loaded DAG shows the solutions that the router query was collected to. -/
theorem routerRows_of_spawn (spawned : spawn llmHttp nodes (entries.map semanticRouterDef) = .ok dag) :
    (dag.threads.filterMap dag.routerRow).map (Row.mapHead Except.ok) =
      entries.map (Row.mapHead (spawnOf llmHttp)) := by
  unfold spawn at spawned
  split at spawned
  · rename_i nothing
    cases spawned
    rw [List.map_eq_nil_iff.mp nothing.2]
    rfl
  · rename_i something
    have numbered : dag.Numbered := addRouters_preserves Numbered
      (fun later held router _ backend _ => held.withRouter router backend)
      (numbered_nodes nodes).addPlatform spawned
    obtain ⟨threads, split, matched⟩ := addRouters_spawned spawned
    rw [split, List.filterMap_append]
    have first : (nodes.foldl addNode empty).addPlatform.threads.filterMap dag.routerRow = [] :=
      routerRow_nodes dag
    rw [first, List.nil_append]
    rw [List.forall₂_map_right_iff] at matched
    clear something split spawned
    induction matched with
    | nil => rfl
    | cons one _ ih =>
        obtain ⟨thread, rfl, given⟩ := one
        obtain ⟨shown, named, same⟩ := routerRow_of_spawned numbered given
        rw [List.filterMap_cons_some named, List.map_cons, List.map_cons, same, ih]

end Dag

/-- The views of spawned routers among the views of all that the solutions can say. -/
def created (seen : View Text RouterSpawn Text) : View Text (Except Text RouterSpawn) Text :=
  fun uri => (seen uri).map fun entry => (.ok entry.1, entry.2)

theorem created_injective {left right : View Text RouterSpawn Text}
    (same : created left = created right) : left = right := by
  funext uri
  have equal := congrFun same uri
  unfold created at equal
  cases first : left uri with
  | none =>
      cases second : right uri with
      | none => rfl
      | some entry => simp [first, second] at equal
  | some entry =>
      cases second : right uri with
      | none => simp [first, second] at equal
      | some other =>
          simp only [first, second, Option.map_some, Option.some.injEq, Prod.mk.injEq,
            Except.ok.injEq] at equal
          exact congrArg some (Prod.ext equal.1 equal.2)

theorem allGood_iff_created {outer : View Text (Except Text RouterSpawn) Text} :
    AllGood (fun head => ∃ spawn, head = .ok spawn) outer ↔ ∃ seen, outer = created seen := by
  constructor
  · intro good
    refine ⟨fun uri => (outer uri).bind fun entry => entry.1.toOption.map (·, entry.2),
      funext fun uri => ?_⟩
    unfold created
    cases named : outer uri with
    | none => simp [named]
    | some entry =>
        obtain ⟨head, outs⟩ := entry
        obtain ⟨spawn, rfl⟩ := good uri head outs named
        simp [named, Except.toOption]
  · rintro ⟨seen, rfl⟩ uri head held named
    obtain ⟨entry, -, same⟩ := Option.map_eq_some_iff.mp named
    exact ⟨entry.1, (congrArg Prod.fst same).symm⟩

section Loads

variable {llmHttp : Bool} {store : Dataset}

/-- The rows of the router query, each with what its thread would be spawned with. -/
def spawnRows (llmHttp : Bool) (graph : Graph) : List (Row Text (Except Text RouterSpawn) Text) :=
  (routerRows graph).map (Row.mapHead (spawnOf llmHttp))

theorem created_routers {nodes : List ScriptNodeDef} {entries : List (Row Text RouterHead Text)}
    {dag : Dag} (spawned : Dag.spawn llmHttp nodes (entries.map semanticRouterDef) = .ok dag) :
    created dag.routers = fun uri =>
      (view entries uri).map fun entry => (spawnOf llmHttp entry.1, entry.2) := by
  have shown := Dag.routerRows_of_spawn spawned
  funext uri
  rw [← view_map, ← shown, view_map]
  rfl

theorem canSpawn_iff {seen : View Text RouterSpawn Text} :
    CanSpawn llmHttp store seen ↔ Possible (spawnRows llmHttp store.default) (created seen) := by
  rw [spawnRows, possible_map]
  constructor
  · rintro ⟨nodeOrder, routerOrder, -, permutes, dag, loaded, rfl⟩
    exact ⟨_, ⟨_, permutes _, rfl⟩, created_routers loaded⟩
  · rintro ⟨inner, ⟨ordered, permutes, rfl⟩, same⟩
    obtain ⟨arrange, arranges, given⟩ := exists_arrangement permutes
    have known : ∀ router ∈ (collect ordered).map semanticRouterDef,
        KnownBackend llmHttp router.backendType := by
      intro router member
      obtain ⟨entry, inside, rfl⟩ := List.mem_map.mp member
      have named := congrFun same entry.key
      rw [view_of_mem (keys_collect_nodup ordered) inside] at named
      obtain ⟨other, -, equal⟩ := Option.map_eq_some_iff.mp named
      exact spawnOf_ok_iff.mp ⟨other.1, (congrArg Prod.fst equal).symm⟩
    obtain ⟨dag, spawned⟩ := Dag.spawn_ok_iff.mpr known
    refine ⟨id, arrange, List.Perm.refl, arranges, dag, ?_, ?_⟩
    · rw [Dag.load, querySemanticRouters, given]
      exact spawned
    · exact created_injective ((created_routers spawned).trans same.symm)

theorem canFail_iff : CanFail llmHttp store ↔ Failing llmHttp store.default := by
  constructor
  · rintro ⟨nodeOrder, routerOrder, -, permutes, reason, failed⟩
    have unknown : ¬ ∀ router ∈ querySemanticRouters routerOrder store,
        KnownBackend llmHttp router.backendType := by
      intro known
      obtain ⟨dag, spawned⟩ : ∃ dag, Dag.spawn llmHttp (queryScriptNodes false nodeOrder store)
          (querySemanticRouters routerOrder store) = .ok dag := Dag.spawn_ok_iff.mpr known
      rw [Dag.load, spawned] at failed
      cases failed
    push Not at unknown
    obtain ⟨router, member, unknown⟩ := unknown
    obtain ⟨entry, collected, rfl⟩ := List.mem_map.mp member
    obtain ⟨row, first, same⟩ := first_of_mem_collect collected
    refine ⟨row, (permutes _).mem_iff.mp (List.mem_of_find?_eq_some first), ?_⟩
    rw [same]
    exact unknown
  · rintro ⟨row, member, unknown⟩
    have free : ¬ Stuck (fun _ => True) (routerRows store.default) := by
      rintro ⟨key, filled, none⟩
      obtain ⟨head, inside⟩ := Set.nonempty_iff_ne_empty.mpr filled
      exact none head inside trivial
    obtain ⟨seen, ⟨ordered, permutes, rfl⟩, -, named⟩ :=
      exists_good_view free ⟨row, member, Eq.refl row.key, rfl⟩ trivial
    obtain ⟨arrange, arranges, given⟩ := exists_arrangement permutes
    refine ⟨id, arrange, List.Perm.refl, arranges, ?_⟩
    cases loaded : Dag.load llmHttp false id arrange store with
    | error reason => exact ⟨reason, rfl⟩
    | ok dag =>
        obtain ⟨entry, found, same⟩ := Option.map_eq_some_iff.mp named
        have known := Dag.spawn_ok_iff.mp ⟨dag, loaded⟩ (semanticRouterDef entry) (by
          rw [querySemanticRouters, given]
          exact List.mem_map_of_mem (List.mem_of_find?_eq_some found))
        have head : entry.head = row.head := congrArg Prod.fst same
        rw [← head] at unknown
        exact absurd known unknown

theorem mem_heads_spawnRows {graph : Graph} {uri : Text} {head : Except Text RouterSpawn} :
    head ∈ heads (spawnRows llmHttp graph) uri ↔
      ∃ row ∈ routerRows graph, row.key = uri ∧ spawnOf llmHttp row.head = head := by
  rw [spawnRows, mem_heads_map]
  constructor
  · rintro ⟨_, ⟨row, member, same, rfl⟩, spawned⟩
    exact ⟨row, member, same, spawned⟩
  · rintro ⟨row, member, same, spawned⟩
    exact ⟨row.head, ⟨row, member, same, rfl⟩, spawned⟩

theorem stuck_iff_stranded {graph : Graph} :
    Stuck (fun head => ∃ spawn, head = .ok spawn) (spawnRows llmHttp graph) ↔
      Stranded llmHttp graph := by
  constructor
  · rintro ⟨uri, filled, bad⟩
    obtain ⟨head, inside⟩ := Set.nonempty_iff_ne_empty.mpr filled
    obtain ⟨row, member, rfl, -⟩ := mem_heads_spawnRows.mp inside
    refine ⟨row, member, ?_⟩
    intro other among same known
    exact bad _ (mem_heads_spawnRows.mpr ⟨other, among, same, rfl⟩) (spawnOf_ok_iff.mpr known)
  · rintro ⟨row, member, bad⟩
    refine ⟨row.key, Set.nonempty_iff_ne_empty.mp
      ⟨_, mem_heads_spawnRows.mpr ⟨row, member, rfl, rfl⟩⟩, ?_⟩
    rintro head inside good
    obtain ⟨other, among, same, rfl⟩ := mem_heads_spawnRows.mp inside
    exact bad other among same (spawnOf_ok_iff.mp good)

theorem same_heads_iff {left right : Graph} {uri : Text} :
    (∀ head, (∃ spawn, head = .ok spawn) →
      (head ∈ heads (spawnRows llmHttp left) uri ↔ head ∈ heads (spawnRows llmHttp right) uri)) ↔
        routerSpawns llmHttp left uri = routerSpawns llmHttp right uri := by
  simp only [mem_heads_spawnRows, forall_exists_index, Set.ext_iff, routerSpawns, Set.mem_ofPred_eq]
  constructor
  · intro same spawn
    exact same _ spawn rfl
  · rintro same head spawn rfl
    exact same spawn

/-- The routers of a DAG do not notice that triples were added to the default graph. -/
structure RoutersUnaffected (llmHttp : Bool) (store : Dataset) (triples : Graph) : Prop where
  fails : CanFail llmHttp (store.insert triples) ↔ CanFail llmHttp store
  spawns : ∀ seen, CanSpawn llmHttp (store.insert triples) seen ↔ CanSpawn llmHttp store seen

/-- Added triples leave the routers alone exactly if they leave the solutions of the router query
alone, which no build keeps them from changing. -/
theorem routersUnaffected_iff {triples : Graph} :
    RoutersUnaffected llmHttp store triples ↔
      SameRouters llmHttp store.default (store.default.add triples) := by
  have outs : ∀ graph uri, extras (spawnRows llmHttp graph) uri = routerOuts graph uri :=
    fun graph uri => extras_map _ _ _
  have views : (∀ seen, CanSpawn llmHttp (store.insert triples) seen ↔
      CanSpawn llmHttp store seen) ↔ ∀ seen,
        Possible (spawnRows llmHttp store.default) seen ∧
            AllGood (fun head => ∃ spawn, head = .ok spawn) seen ↔
          Possible (spawnRows llmHttp (store.default.add triples)) seen ∧
            AllGood (fun head => ∃ spawn, head = .ok spawn) seen := by
    simp only [canSpawn_iff, allGood_iff_created, Dataset.insert]
    constructor
    · intro same seen
      constructor
      · rintro ⟨possible, inner, rfl⟩
        exact ⟨(same inner).mpr possible, inner, rfl⟩
      · rintro ⟨possible, inner, rfl⟩
        exact ⟨(same inner).mp possible, inner, rfl⟩
    · intro same seen
      have both := same (created seen)
      exact ⟨fun possible => (both.mpr ⟨possible, seen, rfl⟩).1,
        fun possible => (both.mp ⟨possible, seen, rfl⟩).1⟩
  have failing : (CanFail llmHttp (store.insert triples) ↔ CanFail llmHttp store) ↔
      (Failing llmHttp store.default ↔ Failing llmHttp (store.default.add triples)) := by
    rw [canFail_iff, canFail_iff]
    exact iff_comm
  constructor
  · rintro ⟨fails, spawns⟩
    have same := (same_good_iff _ _ _).mp (views.mp spawns)
    simp only [stuck_iff_stranded, same_heads_iff, outs] at same
    rcases same with ⟨left, right⟩ | ⟨left, right, equal⟩
    · exact ⟨failing.mp fails, iff_of_true left right, fun free => absurd left free,
        fun free => absurd left free⟩
    · exact ⟨failing.mp fails, iff_of_false left right, fun _ uri => (equal uri).1,
        fun _ uri => (equal uri).2⟩
  · rintro ⟨fails, stranded, spawns, outsSame⟩
    refine ⟨failing.mpr fails, views.mpr ((same_good_iff _ _ _).mpr ?_)⟩
    simp only [stuck_iff_stranded, same_heads_iff, outs]
    by_cases stuck : Stranded llmHttp store.default
    · exact Or.inl ⟨stuck, stranded.mp stuck⟩
    · exact Or.inr ⟨stuck, mt stranded.mpr stuck, fun uri => ⟨spawns stuck uri, outsSame stuck uri⟩⟩

end Loads

theorem routerGraph_stranded {kind : Text} (unknown : ¬ KnownBackend true kind) :
    Stranded true (routerGraph kind) := by
  obtain ⟨row, member⟩ := exists_routerRow kind
  refine ⟨row, member, ?_⟩
  intro other among _
  rw [routerRows_sample among]
  exact unknown

/-- One router with a backend type that no build knows, sent by a peer, and the DAG of an empty
store no longer loads. -/
theorem peer_router_blocks_load :
    (¬ CanFail true Dataset.empty ∧ ∃ seen, CanSpawn true Dataset.empty seen) ∧
      CanFail true (Dataset.empty.insert (routerGraph "gpt".toList)) ∧
        ¬ ∃ seen, CanSpawn true (Dataset.empty.insert (routerGraph "gpt".toList)) seen := by
  have added : (Dataset.empty.insert (routerGraph "gpt".toList)).default =
      routerGraph "gpt".toList := Graph.nil_add _
  have stranded : Stranded true (routerGraph "gpt".toList) :=
    routerGraph_stranded (by unfold KnownBackend; decide)
  refine ⟨⟨?_, fun _ => none, ?_⟩, ?_, ?_⟩
  · rintro failed
    obtain ⟨row, member, -⟩ := canFail_iff.mp failed
    cases member
  · apply canSpawn_iff.mpr
    apply possible_of_entries
    intro uri
    exact Or.inl ⟨rfl, by simp [heads, spawnRows, routerRows, Dataset.empty, Graph.instances]⟩
  · rw [canFail_iff, added]
    obtain ⟨row, member, unknown⟩ := stranded
    exact ⟨row, member, unknown row member rfl⟩
  · rintro ⟨seen, spawned⟩
    have possible := canSpawn_iff.mp spawned
    rw [added] at possible
    exact exists_good_iff.mp ⟨_, possible, allGood_iff_created.mpr ⟨seen, rfl⟩⟩
      (stuck_iff_stranded.mpr stranded)

end LeanAntenna
