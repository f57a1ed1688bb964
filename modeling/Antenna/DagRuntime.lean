import Antenna.DagWiring
import Antenna.EmitPump
import Antenna.PlatformCore
import Antenna.RouterLatch

/-!
A loaded DAG at run time: the script nodes emit, the routers go through their rounds, and the main
thread pumps and broadcasts, in any order.
-/

namespace LeanAntenna

open Text Replay Transition FirstWins

/-- `broadcasts` are the channels and lines that the main thread broadcast besides what it pumped. -/
structure DagRuntime where
  pumping : Pumping
  broadcasts : List (Text × Text)
  routers : Nat → RouterRun

/-- A router's round is one step, taken where its last call has returned. -/
inductive RuntimeAction where
  | emit (route : Nat) (line : Text)
  | poll
  | broadcast (channel line : Text)
  | round (route : Nat) (round : PollRound)

namespace DagRuntime

def start : DagRuntime := ⟨Pumping.start, [], fun _ => RouterRun.start⟩

/-- All that was sent to a ring so far. -/
def sentTo (dag : Dag) (runtime : DagRuntime) (ring : Nat) : List Text :=
  (runtime.pumping.deliveries.filter (·.ring = ring)).map Delivery.line ++
    (runtime.broadcasts.filter fun (channel, _) => ring ∈ dag.writers channel).map Prod.snd

/-- A backend on the network can return anything; a platform backend returns the completion of a
response that it received. -/
def answers (dag : Dag) (runtime : DagRuntime) (router : RouterThread)
    (answer : Except Text Text) : Bool :=
  match router.backend, answer with
  | .platform _ channels, .ok completion =>
      (runtime.sentTo dag channels.responseReader).any fun response =>
        match extractTurtleCompletion response with
        | .ok found => found == completion
        | .error _ => false
  | _, _ => true

def emitAll (pumping : Pumping) (route : Nat) (emitted : List Text) : Pumping :=
  emitted.foldl (fun pumping line => pumping.emit route line) pumping

variable (parse : Text → Except Text Rdf.Graph) (dag : Dag)

/-- What the router sends in this round goes into its mpsc channel. -/
def fireRound (runtime : DagRuntime) (route : Nat) (router : RouterThread) (round : PollRound) :
    DagRuntime :=
  let run := (runtime.routers route).step parse router round
  let fresh := run.firings.drop (runtime.routers route).firings.length
  { runtime with
    pumping := emitAll runtime.pumping route (fresh.flatMap Firing.emitted)
    routers := Function.update runtime.routers route run }

def step (runtime : DagRuntime) : RuntimeAction → Option DagRuntime
  | .emit route line =>
      match dag.threads[route]? with
      | some (.node _, _) => some { runtime with pumping := runtime.pumping.emit route line }
      | _ => none
  | .poll => some { runtime with pumping := runtime.pumping.poll dag }
  | .broadcast channel line =>
      some { runtime with broadcasts := runtime.broadcasts ++ [(channel, line)] }
  | .round route round =>
      match dag.threads[route]? with
      | some (.router router, _) =>
          if runtime.answers dag router round.first && runtime.answers dag router round.second then
            some (runtime.fireRound parse route router round)
          else none
      | _ => none

end DagRuntime

namespace Dag

variable {llmHttp : Bool} {nodes : List ScriptNodeDef} {routers : List SemanticRouterDef} {dag : Dag}

/-- The rings of the script nodes come first, and only their threads. -/
theorem nodes_bounded (nodes : List ScriptNodeDef) :
    (∀ writer ∈ (nodes.foldl addNode empty).channelWriters,
        writer.2 < (nodes.foldl addNode empty).allocated) ∧
      ∀ thread outs, (.router thread, outs) ∉ (nodes.foldl addNode empty).threads := by
  suffices kept : ∀ dag : Dag, ((∀ writer ∈ dag.channelWriters, writer.2 < dag.allocated) ∧
      ∀ thread outs, (.router thread, outs) ∉ dag.threads) →
        (∀ writer ∈ (nodes.foldl addNode dag).channelWriters,
          writer.2 < (nodes.foldl addNode dag).allocated) ∧
        ∀ thread outs, (.router thread, outs) ∉ (nodes.foldl addNode dag).threads by
    exact kept empty ⟨by simp [empty], by simp [empty]⟩
  induction nodes with
  | nil => exact fun dag held => held
  | cons node rest ih =>
      intro dag held
      obtain ⟨bounded, none⟩ := held
      apply ih (dag.addNode node)
      refine ⟨?_, ?_⟩
      · intro writer member
        simp only [addNode] at member ⊢
        rcases List.mem_append.mp member with old | new
        · have below := bounded writer old
          omega
        · have bounds := List.mem_zipIdx new
          omega
      · intro thread outs member
        rcases List.mem_append.mp member with old | new
        · exact none thread outs old
        · cases List.mem_singleton.mp new

/-- The ring behind the request ring is the response ring of every platform router, and has no
writer. -/
structure Unheard (dag : Dag) (request : Nat) : Prop where
  beyond : request + 2 ≤ dag.allocated
  unwritten : request + 1 ∉ dag.channelWriters.map Prod.snd
  shared : ∀ thread outs, (.router thread, outs) ∈ dag.threads → ∀ model channels,
    thread.backend = .platform model channels → channels.responseReader = request + 1

theorem unheard_platform (nodes : List ScriptNodeDef) :
    (nodes.foldl addNode empty).addPlatform.Unheard (nodes.foldl addNode empty).allocated := by
  obtain ⟨bounded, none⟩ := nodes_bounded nodes
  refine ⟨Nat.le_refl _, ?_, ?_⟩
  · intro held
    obtain ⟨writer, member, same⟩ := List.mem_map.mp held
    rcases List.mem_append.mp member with old | new
    · have below := bounded writer old
      omega
    · rw [List.mem_singleton.mp new] at same
      dsimp only at same
      omega
  · intro thread outs member
    exact absurd member (none thread outs)

theorem Unheard.withRouter {request : Nat} (unheard : dag.Unheard request)
    {router : SemanticRouterDef} {backend : LlmBackend BackendChannels}
    (own : ∀ model channels, backend = .platform model channels →
      channels.responseReader = request + 1) :
    (dag.withRouter router backend).Unheard request := by
  obtain ⟨beyond, unwritten, shared⟩ := unheard
  refine ⟨?_, ?_, ?_⟩
  · simp only [Dag.withRouter]
    omega
  · simp only [Dag.withRouter, List.map_append, List.mem_append, not_or]
    refine ⟨unwritten, ?_⟩
    simp only [List.map_cons, List.map_nil, List.mem_cons, List.not_mem_nil, or_false]
    omega
  · intro thread outs member model channels platform
    rcases List.mem_append.mp member with old | new
    · exact shared thread outs old model channels platform
    · cases List.mem_singleton.mp new
      exact own model channels platform

/-- No thread, and not the main one either, writes the ring a platform router waits on. -/
theorem response_unwritten (spawned : spawn llmHttp nodes routers = .ok dag) {thread : RouterThread}
    {outs : List Text} (member : (.router thread, outs) ∈ dag.threads) {model : Text}
    {channels : BackendChannels} (platform : thread.backend = .platform model channels) :
    channels.responseReader ∉ dag.channelWriters.map Prod.snd := by
  unfold spawn at spawned
  split at spawned
  · cases spawned
    cases member
  · have unheard : dag.Unheard (nodes.foldl addNode empty).allocated := by
      apply addRouters_preserves (fun dag => dag.Unheard _) _ (unheard_platform nodes) spawned
      intro later held router _ backend created
      apply held.withRouter
      rintro model channels rfl
      rw [(platform_of_created created).2]
    rw [unheard.shared thread outs member model channels platform]
    exact unheard.unwritten

end Dag

namespace RouterRun

variable {parse : Text → Except Text Rdf.Graph} {router : RouterThread}

theorem step_firings (run : RouterRun) (round : PollRound) :
    (run.step parse router round).firings = run.firings ∨
      ∃ a b, (run.step parse router round).firings =
        run.firings ++ [fire parse router round a b] := by
  unfold step
  split
  · exact Or.inl rfl
  · dsimp only
    split
    · exact Or.inr ⟨_, _, rfl⟩
    · exact Or.inl rfl

end RouterRun

theorem fire_unanswered {parse : Text → Except Text Rdf.Graph} {router : RouterThread}
    {round : PollRound} {reason : Text} (unanswered : round.first = .error reason) (a b : Text) :
    (fire parse router round a b).calls.length = 1 ∧ (fire parse router round a b).emitted = [] := by
  unfold fire
  rw [unanswered]
  exact ⟨rfl, rfl⟩

namespace DagRuntime

variable {dag : Dag} {runtime next : DagRuntime}

theorem emitAll_accounted {pumping : Pumping} (accounted : pumping.Accounted dag) (route : Nat)
    (emitted : List Text) : (emitAll pumping route emitted).Accounted dag := by
  unfold emitAll
  induction emitted generalizing pumping with
  | nil => exact accounted
  | cons line rest ih => exact ih (accounted.emit route line)

theorem emitAll_emitted (pumping : Pumping) (route : Nat) (emitted : List Text) :
    (emitAll pumping route emitted).emitted =
      Function.update pumping.emitted route (pumping.emitted route ++ emitted) := by
  unfold emitAll
  induction emitted generalizing pumping with
  | nil => simp
  | cons line rest ih =>
      rw [List.foldl_cons, ih]
      simp [Pumping.emit, Function.update_idem]

/-- What reaches a ring goes through a writer of the broadcast map. -/
theorem sentTo_unwritten (accounted : runtime.pumping.Accounted dag) {ring : Nat}
    (unwritten : ring ∉ dag.channelWriters.map Prod.snd) : runtime.sentTo dag ring = [] := by
  have written : ∀ channel, ring ∉ dag.writers channel := by
    intro channel member
    obtain ⟨writer, kept, rfl⟩ := List.mem_map.mp member
    exact unwritten (List.mem_map_of_mem (List.mem_filter.mp kept).1)
  unfold sentTo
  rw [List.append_eq_nil_iff, List.map_eq_nil_iff, List.map_eq_nil_iff, List.filter_eq_nil_iff,
    List.filter_eq_nil_iff]
  constructor
  · intro delivery member here
    have asked : delivery ∈ runtime.pumping.taken.flatMap dag.deliveriesOf := by
      rw [← accounted.sent]
      exact List.mem_append_left _ member
    obtain ⟨entry, -, own⟩ := List.mem_flatMap.mp asked
    unfold Dag.deliveriesOf at own
    split at own
    · cases own
    · obtain ⟨target, among, rfl⟩ := List.mem_map.mp own
      obtain ⟨channel, -, inside⟩ := List.mem_flatMap.mp among
      obtain ⟨other, writer, rfl⟩ := List.mem_map.mp inside
      have same : other = ring := of_decide_eq_true here
      exact written channel (same ▸ writer)
  · rintro ⟨channel, line⟩ _ here
    exact written channel (of_decide_eq_true here)

/-- A line that the validator let through, or the statement of an error. -/
def Vetted (parse : Text → Except Text Rdf.Graph) (line : Text) : Prop :=
  (∃ raw, validateTurtle parse raw = .ok line) ∨
    ∃ message, '"' ∉ message ∧ line = errorStatement message

/-- A router's emissions are those of its firings, which send vetted lines only; a router without a
response asks and is silent. -/
structure Settled (parse : Text → Except Text Rdf.Graph) (dag : Dag) (runtime : DagRuntime) :
    Prop where
  accounted : runtime.pumping.Accounted dag
  routed : ∀ route router outs, dag.threads[route]? = some (.router router, outs) →
    runtime.pumping.emitted route = (runtime.routers route).firings.flatMap Firing.emitted
  mute : ∀ route router outs, dag.threads[route]? = some (.router router, outs) →
    ∀ model channels, router.backend = .platform model channels →
      channels.responseReader ∉ dag.channelWriters.map Prod.snd →
        ∀ firing ∈ (runtime.routers route).firings,
          firing.calls.length = 1 ∧ firing.emitted = []
  proper : ∀ route, ∀ firing ∈ (runtime.routers route).firings,
    firing.calls.length ≤ 2 ∧ firing.emitted.length ≤ 1 ∧
      ∀ line ∈ firing.emitted, Vetted parse line

variable {parse : Text → Except Text Rdf.Graph}

theorem start_settled (dag : Dag) : start.Settled parse dag where
  accounted := Pumping.accounted_start dag
  routed _ _ _ _ := rfl
  mute _ _ _ _ _ _ _ _ _ member := absurd member List.not_mem_nil
  proper _ _ member := absurd member List.not_mem_nil

theorem Settled.pump (settled : runtime.Settled parse dag) {pumping : Pumping}
    (accounted : pumping.Accounted dag)
    (others : ∀ route router outs, dag.threads[route]? = some (.router router, outs) →
      pumping.emitted route = runtime.pumping.emitted route) :
    Settled parse dag { runtime with pumping } where
  accounted := accounted
  routed route router outs found :=
    (others route router outs found).trans (settled.routed route router outs found)
  mute := settled.mute
  proper := settled.proper

theorem Settled.round (settled : runtime.Settled parse dag) {route : Nat} {router : RouterThread}
    {outs : List Text} {round : PollRound}
    (found : dag.threads[route]? = some (.router router, outs))
    (answered : runtime.answers dag router round.first = true) :
    (runtime.fireRound parse route router round).Settled parse dag := by
  have fired := @RouterRun.step_firings parse router (runtime.routers route) round
  refine ⟨emitAll_accounted settled.accounted _ _, ?_, ?_, ?_⟩
  · intro other router' outs' found'
    unfold fireRound
    dsimp only
    rw [emitAll_emitted]
    by_cases same : other = route
    · subst same
      rw [Function.update_self, Function.update_self, settled.routed other router' outs' found']
      rcases fired with still | ⟨a, b, more⟩
      · rw [still, List.drop_length, List.flatMap_nil, List.append_nil]
      · rw [more, List.drop_left, List.flatMap_append]
    · rw [Function.update_of_ne same, Function.update_of_ne same]
      exact settled.routed other router' outs' found'
  · intro other router' outs' found' model channels platform unwritten firing member
    unfold fireRound at member
    dsimp only at member
    by_cases same : other = route
    · subst same
      rw [found'] at found
      cases found
      rw [Function.update_self] at member
      have mute := settled.mute other router outs found' model channels platform unwritten
      rcases fired with still | ⟨a, b, more⟩
      · rw [still] at member
        exact mute firing member
      · rw [more] at member
        rcases List.mem_append.mp member with old | new
        · exact mute firing old
        · rw [List.mem_singleton.mp new]
          have silent := sentTo_unwritten settled.accounted unwritten
          cases answer : round.first with
          | error reason => exact fire_unanswered answer a b
          | ok completion => simp [answers, platform, answer, silent] at answered
    · rw [Function.update_of_ne same] at member
      exact settled.mute other router' outs' found' model channels platform unwritten firing member
  · intro other firing member
    unfold fireRound at member
    dsimp only at member
    by_cases same : other = route
    · subst same
      rw [Function.update_self] at member
      rcases fired with still | ⟨a, b, more⟩
      · rw [still] at member
        exact settled.proper other firing member
      · rw [more] at member
        rcases List.mem_append.mp member with old | new
        · exact settled.proper other firing old
        · rw [List.mem_singleton.mp new]
          have proper := fire_proper parse router round a b
          refine ⟨?_, proper.single, ?_⟩
          · rcases proper.asks with one | two <;> omega
          · intro line sent
            rcases proper.emits line sent with ⟨raw, -, valid⟩ | statement
            · exact Or.inl ⟨raw, valid⟩
            · exact Or.inr statement
    · rw [Function.update_of_ne same] at member
      exact settled.proper other firing member

theorem step_settled {action : RuntimeAction} (settled : runtime.Settled parse dag)
    (stepped : step parse dag runtime action = some next) : next.Settled parse dag := by
  cases action with
  | emit route line =>
      simp only [step] at stepped
      split at stepped
      · rename_i node outs found
        cases stepped
        refine settled.pump (settled.accounted.emit route line) ?_
        intro other router outs' found'
        refine Function.update_of_ne ?_ _ _
        rintro rfl
        rw [found] at found'
        cases found'
      · cases stepped
  | poll =>
      cases stepped
      exact settled.pump settled.accounted.poll fun other _ _ _ =>
        congrFun (Pumping.poll_emitted dag runtime.pumping) other
  | broadcast channel line =>
      cases stepped
      exact ⟨settled.accounted, settled.routed, settled.mute, settled.proper⟩
  | round route round =>
      simp only [step] at stepped
      split at stepped
      · rename_i router outs found
        split at stepped
        · rename_i answered
          cases stepped
          exact settled.round found (Bool.and_eq_true_iff.mp answered).1
        · cases stepped
      · cases stepped

theorem run_settled {actions : List RuntimeAction}
    (ran : runSteps (step parse dag) start actions = some runtime) : runtime.Settled parse dag :=
  runSteps_preserves (fun _ _ => True) (Settled parse dag)
    (fun _ _ _ settled _ stepped => step_settled settled stepped) (start_settled dag)
    (stepsMeet_of_forall (fun _ _ => trivial) _) ran

/-- A line that was sent to a ring is a line taken from the channel of its route. -/
theorem taken_of_delivery (accounted : runtime.pumping.Accounted dag) {delivery : Delivery}
    (member : delivery ∈ runtime.pumping.deliveries) :
    delivery.line ∈ linesOf delivery.route runtime.pumping.taken := by
  have asked : delivery ∈ runtime.pumping.taken.flatMap dag.deliveriesOf := by
    rw [← accounted.sent]
    exact List.mem_append_left _ member
  obtain ⟨entry, taken, own⟩ := List.mem_flatMap.mp asked
  unfold Dag.deliveriesOf at own
  split at own
  · cases own
  · obtain ⟨target, -, rfl⟩ := List.mem_map.mp own
    exact List.mem_map.mpr ⟨entry, List.mem_filter.mpr ⟨taken, decide_eq_true rfl⟩, rfl⟩

/-- Whatever the backends answer, what the pump takes from a router and passes on are the lines of its
firings, in order and each once; a firing asks twice at most and sends one line at most, which the
validator let through or which states an error. -/
theorem router_lines_vetted {actions : List RuntimeAction}
    (ran : runSteps (step parse dag) start actions = some runtime) {route : Nat}
    {router : RouterThread} {outs : List Text}
    (found : dag.threads[route]? = some (.router router, outs)) :
    linesOf route runtime.pumping.taken ++ runtime.pumping.queues route =
        (runtime.routers route).firings.flatMap Firing.emitted ∧
      (∀ firing ∈ (runtime.routers route).firings,
        firing.calls.length ≤ 2 ∧ firing.emitted.length ≤ 1) ∧
      (∀ line ∈ linesOf route runtime.pumping.taken, Vetted parse line) ∧
      ∀ delivery ∈ runtime.pumping.deliveries, delivery.route = route →
        Vetted parse delivery.line := by
  have settled := run_settled ran
  have lines : linesOf route runtime.pumping.taken ++ runtime.pumping.queues route =
      (runtime.routers route).firings.flatMap Firing.emitted :=
    (settled.accounted.balance route).trans (settled.routed route router outs found)
  have vetted : ∀ line ∈ linesOf route runtime.pumping.taken, Vetted parse line := by
    intro line member
    have sent : line ∈ (runtime.routers route).firings.flatMap Firing.emitted := by
      rw [← lines]
      exact List.mem_append_left _ member
    obtain ⟨firing, among, own⟩ := List.mem_flatMap.mp sent
    exact (settled.proper route firing among).2.2 line own
  refine ⟨lines, ?_, vetted, ?_⟩
  · intro firing member
    obtain ⟨asks, single, -⟩ := settled.proper route firing member
    exact ⟨asks, single⟩
  · rintro delivery member rfl
    exact vetted delivery.line (taken_of_delivery settled.accounted member)

/-- Whatever is broadcast and pumped, a platform router of a loaded DAG waits in vain: each of its
firings asks once and sends nothing, and none of its lines ever leaves the DAG or goes to a node. -/
theorem platform_router_silent {llmHttp : Bool} {nodes : List ScriptNodeDef}
    {routers : List SemanticRouterDef} (spawned : Dag.spawn llmHttp nodes routers = .ok dag)
    {actions : List RuntimeAction}
    (ran : runSteps (step parse dag) start actions = some runtime) {route : Nat}
    {router : RouterThread} {outs : List Text}
    (found : dag.threads[route]? = some (.router router, outs)) {model : Text}
    {channels : BackendChannels} (platform : router.backend = .platform model channels) :
    (∀ firing ∈ (runtime.routers route).firings,
        firing.calls.length = 1 ∧ firing.emitted = []) ∧
      runtime.pumping.emitted route = [] ∧
      linesOf route runtime.pumping.taken = [] ∧
      ∀ delivery ∈ runtime.pumping.deliveries, delivery.route ≠ route := by
  have settled := run_settled ran
  have unwritten := Dag.response_unwritten spawned (List.mem_of_getElem? found) platform
  have mute := settled.mute route router outs found model channels platform unwritten
  have nothing : runtime.pumping.emitted route = [] := by
    rw [settled.routed route router outs found]
    exact List.flatMap_eq_nil_iff.mpr fun firing member => (mute firing member).2
  have untaken : linesOf route runtime.pumping.taken = [] := by
    have balance := settled.accounted.balance route
    rw [nothing, List.append_eq_nil_iff] at balance
    exact balance.1
  refine ⟨mute, nothing, untaken, ?_⟩
  rintro delivery member rfl
  have line := taken_of_delivery settled.accounted member
  rw [untaken] at line
  cases line

/-- A platform router beside a script node. -/
def askingRouter : SemanticRouterDef :=
  ⟨['r'], ['a'], ['b'], [['c']], "platform".toList, [], [], [], 512⟩

/-- Both inputs come, the host broadcasts a response, and the router times out. -/
def askingRun : List RuntimeAction :=
  [.emit 0 ['x'], .poll, .poll, .poll,
    .broadcast (antennaIri "llmResponse") "antenna:completion \"done\"".toList,
    .round 1 ⟨false, some [['x']], some [['y']], .error ['t'], .error ['t']⟩, .poll, .poll]

/-- What `Dag::load` makes of the two. -/
def askingDag : Dag where
  allocated := 4
  channelWriters := [(antennaIri "llmRequest", 0), (['a'], 2), (['b'], 3)]
  threads := [(.node ⟨['n'], [], []⟩, [['a']]),
    (.router ⟨['r'], 2, 3, .platform [] ⟨0, 1⟩, [], 512⟩, [['c']])]

theorem platform_router_silent_asking :
    ∃ runtime, Dag.spawn false [⟨['n'], [], [], [], [['a']], none⟩] [askingRouter] = .ok askingDag ∧
      runSteps (step (fun _ => .ok []) askingDag) start askingRun = some runtime ∧
      (runtime.routers 1).firings.length = 1 ∧ runtime.pumping.emitted 1 = [] := by
  have spawned : Dag.spawn false [⟨['n'], [], [], [], [['a']], none⟩] [askingRouter] =
      .ok askingDag := by decide
  have outcome : (runSteps (step (fun _ => .ok []) askingDag) start askingRun).map
      (fun runtime => (runtime.routers 1).firings.length) = some 1 := by decide
  obtain ⟨runtime, ran, fired⟩ := Option.map_eq_some_iff.mp outcome
  exact ⟨runtime, spawned, ran, fired, (platform_router_silent spawned ran rfl rfl).2.1⟩

/-- A router over a network backend whose first answer does not parse. -/
def networkDag : Dag where
  allocated := 2
  channelWriters := [(['a'], 0), (['b'], 1)]
  threads := [(.router ⟨['r'], 0, 1, .ollama [] [], [], 512⟩, [['a']])]

def networkRun : List RuntimeAction :=
  [.round 0 ⟨false, some [['x']], some [['y']], .ok ['u'], .ok ['v']⟩, .poll, .poll, .poll, .poll]

theorem router_lines_vetted_retry :
    ∃ runtime, runSteps (step (fun _ => .error ['e', '"']) networkDag) start networkRun =
        some runtime ∧
      (linesOf 0 runtime.pumping.taken).length = 1 ∧
      ∀ line ∈ linesOf 0 runtime.pumping.taken, Vetted (fun _ => .error ['e', '"']) line := by
  have outcome : (runSteps (step (fun _ => .error ['e', '"']) networkDag) start networkRun).map
      (fun runtime => (linesOf 0 runtime.pumping.taken).length) = some 1 := by decide
  obtain ⟨runtime, ran, single⟩ := Option.map_eq_some_iff.mp outcome
  exact ⟨runtime, ran, single, (router_lines_vetted ran rfl).2.2.1⟩

end DagRuntime

end LeanAntenna
