import Antenna.EmitPump

/-!
From the solutions of the script node query to the subscribers of a channel: what the grouping makes
of the cross product of ports, and to whom the loaded DAG sends what is broadcast.
-/

namespace LeanAntenna

open Rdf FirstWins

/-- A solution of the script node query. -/
structure ScriptSolution where
  node : Resource
  body : Term
  language : Option Term
  input : Option Term
  output : Option Term
  condition : Option Term
deriving DecidableEq, Repr

namespace ScriptSolution

def uri (solution : ScriptSolution) : Text := resourceText solution.node

def row (solution : ScriptSolution) : Row Text ScriptHead Port :=
  scriptRow solution.node solution.body solution.language solution.input solution.output
    solution.condition

end ScriptSolution

/-- `query_script_nodes` on the solutions of its query. -/
def scriptNodesOf (solutions : List ScriptSolution) : List ScriptNodeDef :=
  (collect (solutions.map ScriptSolution.row)).map scriptNodeDef

/-- The solutions that a store yields, in whatever order and multiplicity, are such a list. -/
theorem queryScriptNodes_eq_scriptNodesOf {peerScripting : Bool}
    {order : List (Row Text ScriptHead Port) → List (Row Text ScriptHead Port)} {store : Dataset}
    (inside : order (scriptRows (scriptGraph peerScripting store)) ⊆
      scriptRows (scriptGraph peerScripting store)) :
    ∃ solutions, queryScriptNodes peerScripting order store = scriptNodesOf solutions := by
  have each : ∀ row ∈ order (scriptRows (scriptGraph peerScripting store)),
      ∃ solution : ScriptSolution, solution.row = row := by
    intro row member
    have yielded := inside member
    simp only [scriptRows, List.bind_eq_flatMap, List.mem_flatMap, List.pure_def,
      List.mem_singleton] at yielded
    obtain ⟨node, -, source, -, body, -, language, -, input, -, output, -, condition, -, rfl⟩ := yielded
    exact ⟨⟨node, body, language, input, output, condition⟩, rfl⟩
  obtain ⟨solutions, rows⟩ : ∃ solutions : List ScriptSolution,
      solutions.map ScriptSolution.row = order (scriptRows (scriptGraph peerScripting store)) := by
    generalize order (scriptRows (scriptGraph peerScripting store)) = rows at each
    induction rows with
    | nil => exact ⟨[], rfl⟩
    | cons row rows ih =>
        obtain ⟨first, rfl⟩ := each row List.mem_cons_self
        obtain ⟨rest, rfl⟩ := ih fun later member => each later (List.mem_cons_of_mem _ member)
        exact ⟨first :: rest, rfl⟩
  exact ⟨solutions, by rw [scriptNodesOf, rows, queryScriptNodes]⟩

/-- One definition for each node, with the channels of its solutions. -/
structure Defines (solutions : List ScriptSolution) (nodes : List ScriptNodeDef) : Prop where
  once : (nodes.map ScriptNodeDef.uri).Nodup
  all : ∀ uri, uri ∈ nodes.map ScriptNodeDef.uri ↔ ∃ solution ∈ solutions, solution.uri = uri
  ins : ∀ node ∈ nodes, node.ins.Nodup ∧ ∀ channel, channel ∈ node.ins ↔
    ∃ solution ∈ solutions, solution.uri = node.uri ∧ solution.input.map termText = some channel
  outs : ∀ node ∈ nodes, node.outs.Nodup ∧ ∀ channel, channel ∈ node.outs ↔
    ∃ solution ∈ solutions, solution.uri = node.uri ∧ solution.output.map termText = some channel

/-- The solutions of a node agree on a value. -/
def Single {Value : Type} (solutions : List ScriptSolution) (uri : Text)
    (value : ScriptSolution → Value) : Prop :=
  ∀ left ∈ solutions, ∀ right ∈ solutions, left.uri = uri → right.uri = uri →
    value left = value right

/-- Two definitions of a node that differ in the order of its channels at most, as far as the
solutions determine its fields. -/
structure Agrees (solutions : List ScriptSolution) (left right : ScriptNodeDef) : Prop where
  uri : left.uri = right.uri
  ins : left.ins.Perm right.ins
  outs : left.outs.Perm right.outs
  body : Single solutions left.uri (·.row.head.body) → left.body = right.body
  language : Single solutions left.uri (·.row.head.language) → left.language = right.language
  whereClause : Single solutions left.uri (·.row.head.whereClause) →
    left.whereClause = right.whereClause

section Grouping

variable {solutions : List ScriptSolution}

/-- An entry comes from a solution of its node, and its ports from all of them. -/
theorem collected_entry {entry : Row Text ScriptHead Port}
    (member : entry ∈ collect (solutions.map ScriptSolution.row)) :
    (∃ solution ∈ solutions, solution.uri = entry.key ∧ solution.row.head = entry.head) ∧
      ∀ port, port ∈ entry.extras ↔
        ∃ solution ∈ solutions, solution.uri = entry.key ∧ port ∈ solution.row.extras := by
  have seen := view_of_mem (keys_collect_nodup _) member
  rw [view_collect] at seen
  obtain ⟨row, found, same⟩ := Option.map_eq_some_iff.mp seen
  obtain ⟨solution, given, rfl⟩ := List.mem_map.mp (List.mem_of_find?_eq_some found)
  have key : solution.row.key = entry.key := by simpa using List.find?_some found
  refine ⟨⟨solution, given, key, congrArg Prod.fst same⟩, ?_⟩
  intro port
  have ports := congrArg Prod.snd same
  have within : port ∈ entry.extras ↔ port ∈ extras (solutions.map ScriptSolution.row) entry.key := by
    rw [show extras _ _ = {extra | extra ∈ entry.extras} from ports]
    rfl
  rw [within]
  constructor
  · rintro ⟨row, listed, own, held⟩
    obtain ⟨other, also, rfl⟩ := List.mem_map.mp listed
    exact ⟨other, also, own, held⟩
  · rintro ⟨other, also, own, held⟩
    exact ⟨other.row, List.mem_map_of_mem also, own, held⟩

theorem mem_row_extras (solution : ScriptSolution) (port : Port) :
    port ∈ solution.row.extras ↔
      (∃ channel, port = .input channel ∧ solution.input.map termText = some channel) ∨
        ∃ channel, port = .output channel ∧ solution.output.map termText = some channel := by
  simp only [ScriptSolution.row, scriptRow, List.mem_append, Option.mem_toList,
    Option.map_eq_some_iff, Function.comp_apply]
  constructor
  · rintro (⟨term, given, rfl⟩ | ⟨term, given, rfl⟩)
    · exact .inl ⟨_, rfl, term, given, rfl⟩
    · exact .inr ⟨_, rfl, term, given, rfl⟩
  · rintro (⟨_, rfl, term, given, rfl⟩ | ⟨_, rfl, term, given, rfl⟩)
    · exact .inl ⟨term, given, rfl⟩
    · exact .inr ⟨term, given, rfl⟩

theorem channelIn_iff {port : Port} {channel : Text} :
    port.channelIn = some channel ↔ port = .input channel := by
  cases port <;> simp [Port.channelIn]

theorem channelOut_iff {port : Port} {channel : Text} :
    port.channelOut = some channel ↔ port = .output channel := by
  cases port <;> simp [Port.channelOut]

theorem mem_ins_iff {entry : Row Text ScriptHead Port}
    (member : entry ∈ collect (solutions.map ScriptSolution.row)) (channel : Text) :
    channel ∈ (scriptNodeDef entry).ins ↔ ∃ solution ∈ solutions, solution.uri = entry.key ∧
      solution.input.map termText = some channel := by
  have port : channel ∈ (scriptNodeDef entry).ins ↔ Port.input channel ∈ entry.extras := by
    simp [scriptNodeDef, List.mem_filterMap, channelIn_iff]
  rw [port, (collected_entry member).2]
  simp [mem_row_extras]

theorem mem_outs_iff {entry : Row Text ScriptHead Port}
    (member : entry ∈ collect (solutions.map ScriptSolution.row)) (channel : Text) :
    channel ∈ (scriptNodeDef entry).outs ↔ ∃ solution ∈ solutions, solution.uri = entry.key ∧
      solution.output.map termText = some channel := by
  have port : channel ∈ (scriptNodeDef entry).outs ↔ Port.output channel ∈ entry.extras := by
    simp [scriptNodeDef, List.mem_filterMap, channelOut_iff]
  rw [port, (collected_entry member).2]
  simp [mem_row_extras]

theorem ports_nodup {entry : Row Text ScriptHead Port}
    (member : entry ∈ collect (solutions.map ScriptSolution.row)) :
    (scriptNodeDef entry).ins.Nodup ∧ (scriptNodeDef entry).outs.Nodup := by
  have distinct := extras_collect_nodup _ entry member
  constructor
  · apply distinct.filterMap
    intro left right channel inLeft inRight
    exact (channelIn_iff.mp inLeft).trans (channelIn_iff.mp inRight).symm
  · apply distinct.filterMap
    intro left right channel inLeft inRight
    exact (channelOut_iff.mp inLeft).trans (channelOut_iff.mp inRight).symm

theorem defines_scriptNodesOf (solutions : List ScriptSolution) :
    Defines solutions (scriptNodesOf solutions) := by
  have uris : (scriptNodesOf solutions).map ScriptNodeDef.uri =
      (collect (solutions.map ScriptSolution.row)).map Row.key := by
    rw [scriptNodesOf, List.map_map]
    rfl
  refine ⟨?_, ?_, ?_, ?_⟩
  · rw [uris]
    exact keys_collect_nodup _
  · intro uri
    rw [uris, List.mem_map]
    constructor
    · rintro ⟨entry, member, rfl⟩
      obtain ⟨⟨solution, given, own, -⟩, -⟩ := collected_entry member
      exact ⟨solution, given, own⟩
    · rintro ⟨solution, given, rfl⟩
      have listed : ∃ row ∈ solutions.map ScriptSolution.row, row.key = solution.uri :=
        ⟨_, List.mem_map_of_mem given, rfl⟩
      obtain ⟨row, found⟩ : ∃ row, (solutions.map ScriptSolution.row).find? (·.key = solution.uri) =
          some row := by
        rw [← Option.isSome_iff_exists, List.find?_isSome]
        simpa using listed
      have own : row.key = solution.uri := by simpa using List.find?_some found
      rw [← own] at found ⊢
      obtain ⟨entry, member, same, -⟩ := mem_collect_of_first found
      exact ⟨entry, member, same⟩
  · intro node member
    obtain ⟨entry, collected, rfl⟩ := List.mem_map.mp member
    exact ⟨(ports_nodup collected).1, mem_ins_iff collected⟩
  · intro node member
    obtain ⟨entry, collected, rfl⟩ := List.mem_map.mp member
    exact ⟨(ports_nodup collected).2, mem_outs_iff collected⟩

/-- Any order of the solutions gives the same definitions, up to order. -/
theorem agrees_of_perm {permuted : List ScriptSolution} (same : permuted.Perm solutions) :
    ∀ left ∈ scriptNodesOf solutions, ∃ right ∈ scriptNodesOf permuted,
      Agrees solutions left right := by
  intro left member
  have defined := defines_scriptNodesOf solutions
  have also := defines_scriptNodesOf permuted
  obtain ⟨right, within, uri⟩ : ∃ right ∈ scriptNodesOf permuted, right.uri = left.uri := by
    have named : left.uri ∈ (scriptNodesOf permuted).map ScriptNodeDef.uri := by
      rw [also.all]
      simp only [same.mem_iff]
      exact (defined.all left.uri).mp (List.mem_map_of_mem member)
    exact List.mem_map.mp named
  refine ⟨right, within, ?_⟩
  obtain ⟨leftEntry, collected, rfl⟩ := List.mem_map.mp member
  obtain ⟨rightEntry, recollected, rfl⟩ := List.mem_map.mp within
  obtain ⟨⟨first, given, ownFirst, headFirst⟩, -⟩ := collected_entry collected
  obtain ⟨⟨second, regiven, ownSecond, headSecond⟩, -⟩ := collected_entry recollected
  have heads : ∀ {Value : Type} (value : ScriptHead → Value),
      Single solutions (scriptNodeDef leftEntry).uri (fun solution => value solution.row.head) →
        value leftEntry.head = value rightEntry.head := by
    intro Value value single
    rw [← headFirst, ← headSecond]
    exact single first given second (same.mem_iff.mp regiven) ownFirst (ownSecond.trans uri)
  refine ⟨uri.symm, ?_, ?_, heads _, heads _, heads _⟩
  · rw [List.perm_ext_iff_of_nodup (defined.ins _ member).1 (also.ins _ within).1]
    intro channel
    rw [(defined.ins _ member).2, (also.ins _ within).2, uri]
    simp only [same.mem_iff]
  · rw [List.perm_ext_iff_of_nodup (defined.outs _ member).1 (also.outs _ within).1]
    intro channel
    rw [(defined.outs _ member).2, (also.outs _ within).2, uri]
    simp only [same.mem_iff]

end Grouping

namespace Dag

/-- `Dag::broadcast`: the text is offered to every writer of the channel. -/
def broadcast (dag : Dag) (channel turtle : Text) : List (Nat × Text) :=
  (dag.writers channel).map fun ring => (ring, turtle)

/-- The two inboxes of a router's thread. -/
def routerInboxes (router : SemanticRouterDef × RouterThread) : List (Text × Nat) :=
  [(router.1.inA, router.2.readerA), (router.1.inB, router.2.readerB)]

/-- The threads with the definitions they were spawned for, and the request ring of the platform; the
broadcast map holds the writers of their inboxes and no others. -/
structure Wired (dag : Dag) (scripts : List (ScriptNodeDef × NodeThread)) (platform : List Nat)
    (routing : List (SemanticRouterDef × RouterThread)) : Prop where
  threads : dag.threads = scripts.map (fun script => (.node script.2, script.1.outs)) ++
    routing.map fun router => (.router router.2, router.1.outs)
  writers : dag.channelWriters = scripts.flatMap (·.2.inboxes) ++
    platform.map (antennaIri "llmRequest", ·) ++ routing.flatMap routerInboxes
  inboxes : ∀ script ∈ scripts, script.2.uri = script.1.uri ∧
    script.2.inboxes.map Prod.fst = script.1.ins
  rings : (dag.channelWriters.map Prod.snd).Nodup
  bounded : ∀ writer ∈ dag.channelWriters, writer.2 < dag.allocated

section Wiring

variable {dag : Dag} {scripts : List (ScriptNodeDef × NodeThread)} {platform : List Nat}
  {routing : List (SemanticRouterDef × RouterThread)}

theorem wired_empty : empty.Wired [] [] [] where
  threads := rfl
  writers := rfl
  inboxes := by simp
  rings := List.nodup_nil
  bounded := by simp [empty]

/-- Writers of new rings keep the rings apart. -/
theorem Wired.apart (wired : dag.Wired scripts platform routing) (writers : List (Text × Nat))
    (allocated : Nat) (rings : (writers.map Prod.snd).Nodup)
    (fresh : ∀ writer ∈ writers, dag.allocated ≤ writer.2 ∧ writer.2 < allocated)
    (grown : dag.allocated ≤ allocated) :
    ((dag.channelWriters ++ writers).map Prod.snd).Nodup ∧
      ∀ writer ∈ dag.channelWriters ++ writers, writer.2 < allocated := by
  constructor
  · rw [List.map_append, List.nodup_append]
    refine ⟨wired.rings, rings, ?_⟩
    intro ring old other new equal
    obtain ⟨writer, held, rfl⟩ := List.mem_map.mp old
    obtain ⟨added, inside, rfl⟩ := List.mem_map.mp new
    have below := wired.bounded writer held
    have above := (fresh added inside).1
    omega
  · intro writer member
    rcases List.mem_append.mp member with old | new
    · exact Nat.lt_of_lt_of_le (wired.bounded writer old) grown
    · exact (fresh writer new).2

theorem Wired.addNode (wired : dag.Wired scripts [] []) (node : ScriptNodeDef) :
    (dag.addNode node).Wired
      (scripts ++ [(node, ⟨node.uri, node.body, node.ins.zipIdx dag.allocated⟩)]) [] [] := by
  have rings : ((node.ins.zipIdx dag.allocated).map Prod.snd).Nodup := by
    rw [List.zipIdx_map_snd]
    exact List.nodup_range'
  have fresh : ∀ writer ∈ node.ins.zipIdx dag.allocated,
      dag.allocated ≤ writer.2 ∧ writer.2 < dag.allocated + node.ins.length := by
    intro writer member
    have bounds := List.mem_zipIdx (x := writer.1) (i := writer.2) member
    omega
  obtain ⟨distinct, bounded⟩ := wired.apart _ _ rings fresh (Nat.le_add_right _ _)
  refine ⟨?_, ?_, ?_, distinct, bounded⟩
  · rw [Dag.addNode, wired.threads]
    simp
  · rw [Dag.addNode, wired.writers]
    simp
  · intro script member
    rcases List.mem_append.mp member with old | new
    · exact wired.inboxes script old
    · rw [List.mem_singleton.mp new]
      exact ⟨rfl, List.zipIdx_map_fst _ _⟩

theorem wired_nodes (nodes : List ScriptNodeDef) :
    ∃ scripts, scripts.map Prod.fst = nodes ∧ (nodes.foldl Dag.addNode empty).Wired scripts [] [] := by
  induction nodes using List.reverseRecOn with
  | nil => exact ⟨[], rfl, wired_empty⟩
  | append_singleton nodes node ih =>
      obtain ⟨scripts, same, wired⟩ := ih
      rw [List.foldl_append]
      exact ⟨_, by simp [same], wired.addNode node⟩

theorem Wired.addPlatform (wired : dag.Wired scripts [] []) :
    dag.addPlatform.Wired scripts [dag.allocated] [] := by
  obtain ⟨distinct, bounded⟩ := wired.apart [(antennaIri "llmRequest", dag.allocated)]
    (dag.allocated + 2) (by simp) (by simp) (Nat.le_add_right _ _)
  refine ⟨wired.threads, ?_, wired.inboxes, distinct, bounded⟩
  rw [Dag.addPlatform, wired.writers]
  simp

theorem Wired.withRouter (wired : dag.Wired scripts platform routing) (router : SemanticRouterDef)
    (backend : LlmBackend BackendChannels) :
    ∃ thread, (dag.withRouter router backend).Wired scripts platform
      (routing ++ [(router, thread)]) := by
  obtain ⟨distinct, bounded⟩ := wired.apart
    [(router.inA, dag.allocated), (router.inB, dag.allocated + 1)] (dag.allocated + 2)
    (by simp) (by simp) (Nat.le_add_right _ _)
  refine ⟨⟨router.uri, dag.allocated, dag.allocated + 1, backend, router.systemPrompt,
    router.maxTokens⟩, ?_, ?_, wired.inboxes, distinct, bounded⟩
  · rw [Dag.withRouter, wired.threads]
    simp
  · rw [Dag.withRouter, wired.writers]
    simp [routerInboxes]

theorem wired_routers {llmHttp : Bool} {channels : BackendChannels} {routers : List SemanticRouterDef}
    {final : Dag} (wired : dag.Wired scripts platform routing)
    (done : addRouters llmHttp channels dag routers = .ok final) :
    ∃ added, added.map Prod.fst = routers ∧ final.Wired scripts platform (routing ++ added) := by
  induction routers generalizing dag routing with
  | nil =>
      cases done
      exact ⟨[], rfl, by simpa using wired⟩
  | cons router rest ih =>
      unfold addRouters at done
      split at done
      · cases done
      · rename_i next first
        obtain ⟨backend, -, rfl⟩ := addRouter_ok first
        obtain ⟨thread, wiredNext⟩ := wired.withRouter router backend
        obtain ⟨added, same, wiredFinal⟩ := ih wiredNext done
        exact ⟨(router, thread) :: added, by simp [same], by simpa using wiredFinal⟩

/-- The writers of a channel, by whose inboxes they feed. -/
theorem Wired.writers_eq (wired : dag.Wired scripts platform routing) (channel : Text) :
    dag.writers channel =
      ((scripts.flatMap (·.2.inboxes)).filter (·.1 = channel)).map Prod.snd ++
        (if antennaIri "llmRequest" = channel then platform else []) ++
        ((routing.flatMap routerInboxes).filter (·.1 = channel)).map Prod.snd := by
  have own : ((platform.map (antennaIri "llmRequest", ·)).filter (·.1 = channel)).map Prod.snd =
      if antennaIri "llmRequest" = channel then platform else [] := by
    rw [List.filter_map, List.map_map]
    split
    · rename_i same
      simp [Function.comp_def, same]
    · rename_i other
      simp [Function.comp_def, other]
  rw [Dag.writers, wired.writers, List.filter_append, List.filter_append, List.map_append,
    List.map_append, own]

theorem length_filter_channel (writers : List (Text × Nat)) (channel : Text) :
    (writers.filter (·.1 = channel)).length = (writers.map Prod.fst).count channel := by
  rw [List.count, List.countP_map, ← List.countP_eq_length_filter]
  apply List.countP_congr
  intro writer _
  simp

/-- A script node has one inbox for each of its channels. -/
theorem length_script_writers (scripts : List (ScriptNodeDef × NodeThread))
    (inboxes : ∀ script ∈ scripts, script.2.inboxes.map Prod.fst = script.1.ins)
    (distinct : ∀ script ∈ scripts, script.1.ins.Nodup) (channel : Text) :
    ((scripts.flatMap (·.2.inboxes)).filter (·.1 = channel)).length =
      (scripts.map Prod.fst).countP (channel ∈ ·.ins) := by
  induction scripts with
  | nil => rfl
  | cons script rest ih =>
      have later := ih (fun other member => inboxes other (List.mem_cons_of_mem _ member))
        fun other member => distinct other (List.mem_cons_of_mem _ member)
      have own := (distinct script List.mem_cons_self).count (a := channel)
      rw [List.flatMap_cons, List.filter_append, List.length_append, later, length_filter_channel,
        inboxes script List.mem_cons_self, own, List.map_cons, List.countP_cons, Nat.add_comm]
      simp

theorem length_router_writers (routing : List (SemanticRouterDef × RouterThread)) (channel : Text) :
    ((routing.flatMap routerInboxes).filter (·.1 = channel)).length =
      (routing.map Prod.fst).countP (·.inA = channel) +
        (routing.map Prod.fst).countP (·.inB = channel) := by
  induction routing with
  | nil => rfl
  | cons router rest ih =>
      have own : ((routerInboxes router).filter (·.1 = channel)).length =
          (if router.1.inA = channel then 1 else 0) + (if router.1.inB = channel then 1 else 0) := by
        by_cases left : router.1.inA = channel <;> by_cases right : router.1.inB = channel <;>
          simp [routerInboxes, left, right]
      rw [List.flatMap_cons, List.filter_append, List.length_append, ih, own, List.map_cons,
        List.countP_cons, List.countP_cons]
      simp only [decide_eq_true_eq]
      omega

end Wiring

/-- The ring is an inbox of the channel. -/
def Subscribed (scripts : List (ScriptNodeDef × NodeThread)) (platform : List Nat)
    (routing : List (SemanticRouterDef × RouterThread)) (channel : Text) (ring : Nat) : Prop :=
  (∃ script ∈ scripts, (channel, ring) ∈ script.2.inboxes) ∨
    (antennaIri "llmRequest" = channel ∧ ring ∈ platform) ∨
    ∃ router ∈ routing, (channel, ring) ∈ routerInboxes router

/-- Each channel has one writer for each script node and each router input on it, and the request
ring of the platform on its own; a broadcast offers the text to each of them once and to no other. -/
def DeliversOnce (dag : Dag) (nodes : List ScriptNodeDef) (routers : List SemanticRouterDef) : Prop :=
  ∃ scripts platform routing, scripts.map Prod.fst = nodes ∧ routing.map Prod.fst = routers ∧
    platform.length = (if nodes = [] ∧ routers = [] then 0 else 1) ∧
    dag.Wired scripts platform routing ∧
    ∀ channel,
      (dag.writers channel).length = nodes.countP (channel ∈ ·.ins) +
        (if antennaIri "llmRequest" = channel then platform.length else 0) +
          (routers.countP (·.inA = channel) + routers.countP (·.inB = channel)) ∧
      ∀ turtle, ((dag.broadcast channel turtle).map Prod.fst).Nodup ∧
        ∀ ring offered, (ring, offered) ∈ dag.broadcast channel turtle ↔
          offered = turtle ∧ Subscribed scripts platform routing channel ring

theorem Wired.delivers {dag : Dag} {scripts : List (ScriptNodeDef × NodeThread)} {platform : List Nat}
    {routing : List (SemanticRouterDef × RouterThread)} (wired : dag.Wired scripts platform routing)
    (distinct : ∀ script ∈ scripts, script.1.ins.Nodup)
    (one : platform.length = if scripts.map Prod.fst = [] ∧ routing.map Prod.fst = [] then 0 else 1) :
    dag.DeliversOnce (scripts.map Prod.fst) (routing.map Prod.fst) := by
  refine ⟨scripts, platform, routing, rfl, rfl, one, wired, fun channel => ⟨?_, fun turtle => ⟨?_, ?_⟩⟩⟩
  · rw [wired.writers_eq, List.length_append, List.length_append, List.length_map, List.length_map,
      length_script_writers scripts (fun script member => (wired.inboxes script member).2) distinct,
      length_router_writers, apply_ite List.length, List.length_nil]
  · rw [broadcast, List.map_map]
    have rings := (List.filter_sublist (p := (·.1 = channel)).map Prod.snd).nodup wired.rings
    simpa [Function.comp_def, Dag.writers] using rings
  · intro ring offered
    have member : ring ∈ dag.writers channel ↔ (channel, ring) ∈ dag.channelWriters := by
      simp only [Dag.writers, List.mem_map, List.mem_filter, decide_eq_true_eq]
      constructor
      · rintro ⟨⟨name, number⟩, ⟨held, rfl⟩, rfl⟩
        exact held
      · exact fun held => ⟨_, ⟨held, rfl⟩, rfl⟩
    have sends : (ring, offered) ∈ dag.broadcast channel turtle ↔
        offered = turtle ∧ ring ∈ dag.writers channel := by
      simp [broadcast, and_comm, eq_comm]
    rw [sends, member, wired.writers, List.mem_append, List.mem_append, List.mem_flatMap,
      List.mem_flatMap, List.mem_map, or_assoc]
    simp [Subscribed, and_comm]

end Dag

/-- The definitions come out of the solutions whatever their order, and the DAG loaded with them
delivers what is broadcast once to each subscription. -/
theorem script_nodes_subscribed (solutions : List ScriptSolution) :
    Defines solutions (scriptNodesOf solutions) ∧
    (∀ permuted : List ScriptSolution, permuted.Perm solutions →
      ∀ left ∈ scriptNodesOf solutions, ∃ right ∈ scriptNodesOf permuted,
        Agrees solutions left right) ∧
    ∀ (llmHttp : Bool) (nodes : List ScriptNodeDef) (routers : List SemanticRouterDef) (dag : Dag),
      nodes.Perm (scriptNodesOf solutions) → Dag.spawn llmHttp nodes routers = .ok dag →
        dag.DeliversOnce nodes routers := by
  have defined := defines_scriptNodesOf solutions
  refine ⟨defined, fun permuted same => agrees_of_perm same, ?_⟩
  intro llmHttp nodes routers dag order spawned
  unfold Dag.spawn at spawned
  split at spawned
  · rename_i nothing
    obtain ⟨rfl, rfl⟩ := nothing
    cases spawned
    exact Dag.wired_empty.delivers (by simp) (by simp)
  · rename_i something
    obtain ⟨scripts, rfl, wiredScripts⟩ := Dag.wired_nodes nodes
    obtain ⟨routing, rfl, wired⟩ := Dag.wired_routers wiredScripts.addPlatform spawned
    refine wired.delivers ?_ ?_
    · intro script member
      exact (defined.ins _ (order.mem_iff.mp (List.mem_map_of_mem member))).1
    · rw [List.nil_append, if_neg something]
      rfl

/-- Two solutions of one node with one body, in two languages. -/
def bilingual : List ScriptSolution :=
  [⟨.iri "urn:node".toList, .literal "body".toList [] none, none, none, none, none⟩,
    ⟨.iri "urn:node".toList, .literal "body".toList [] none,
      some (.literal "lua".toList [] none), none, none, none⟩]

theorem script_nodes_subscribed_bilingual :
    ∃ dag, Dag.spawn true (scriptNodesOf bilingual) [] = .ok dag ∧
      dag.DeliversOnce (scriptNodesOf bilingual) [] :=
  ⟨_, rfl, (script_nodes_subscribed bilingual).2.2 true _ [] _ (.refl _) rfl⟩

/-- The order of the solutions shows in the language, and a DAG of nothing has no request ring. -/
theorem language_order_shows :
    (¬ ∀ solutions permuted : List ScriptSolution, permuted.Perm solutions →
      (∀ uri, Single solutions uri (·.row.head.body)) →
        ∀ left ∈ scriptNodesOf solutions, ∃ right ∈ scriptNodesOf permuted,
          left.uri = right.uri ∧ left.body = right.body ∧ left.language = right.language ∧
            left.whereClause = right.whereClause ∧ left.ins.Perm right.ins ∧
            left.outs.Perm right.outs) ∧
    ¬ ∀ (llmHttp : Bool) (nodes : List ScriptNodeDef) (routers : List SemanticRouterDef) (dag : Dag),
      Dag.spawn llmHttp nodes routers = .ok dag →
        ∃ ring, (antennaIri "llmRequest", ring) ∈ dag.channelWriters := by
  constructor
  · intro every
    have single : ∀ uri, Single bilingual uri (·.row.head.body) := by
      have bodies : ∀ solution ∈ bilingual, solution.row.head.body = "body".toList := by decide
      intro uri left member right also _ _
      exact (bodies left member).trans (bodies right also).symm
    obtain ⟨right, member, -, -, language, -⟩ := every bilingual bilingual.reverse
      (List.reverse_perm _) single _ (List.mem_singleton_self _)
    have other : ∀ node ∈ scriptNodesOf bilingual.reverse, node.language = "lua".toList := by decide
    rw [other right member] at language
    exact absurd language (by decide)
  · intro every
    obtain ⟨ring, member⟩ := every true [] [] Dag.empty rfl
    cases member

end LeanAntenna
