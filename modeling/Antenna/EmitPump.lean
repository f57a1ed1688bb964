import Antenna.DagWiring
import Antenna.TickSteps

/-!
`pump_emits` while the node threads go on emitting: one step of the model is one `emit` of a node, one
`try_recv` of the pump or one `send` of a broadcast.
-/

namespace LeanAntenna

open Replay FirstWins

namespace Dag

/-- The rings of a channel's subscribers, as the broadcast map holds them. -/
def writers (dag : Dag) (channel : Text) : List Nat :=
  (dag.channelWriters.filter (·.1 = channel)).map Prod.snd

/-- The sends of one emission: to every subscriber of every OUT channel. -/
def targets (dag : Dag) (outs : List Text) : List (Text × Nat) :=
  outs.flatMap fun channel => (dag.writers channel).map (channel, ·)

end Dag

/-- A line that the pump has sent to a subscriber's ring, with the route it came from. -/
structure Delivery where
  route : Nat
  channel : Text
  ring : Nat
  line : Text
deriving DecidableEq, Repr

/-- A call of `pump_emits` under way: the route it drains, what it has collected with the routes of
the lines, and the line it broadcasts with the sends that are left. What had been emitted when the
call began is noted beside it. -/
structure PumpCall where
  route : Nat
  collected : List (Nat × Text)
  sending : Option (Text × List (Text × Nat))
  before : Nat → List Text

/-- The mpsc channels of the routes, all that was ever put into them, and what the pump has done. -/
structure Pumping where
  queues : Nat → List Text
  emitted : Nat → List Text
  call : Option PumpCall
  returned : List (List (Nat × Text))
  deliveries : List Delivery

inductive PumpAction where
  | emit (route : Nat) (line : Text)
  | poll
deriving DecidableEq, Repr

namespace Pumping

def start : Pumping := ⟨fun _ => [], fun _ => [], none, [], []⟩

def emit (pumping : Pumping) (route : Nat) (line : Text) : Pumping :=
  { pumping with
    queues := Function.update pumping.queues route (pumping.queues route ++ [line])
    emitted := Function.update pumping.emitted route (pumping.emitted route ++ [line]) }

def begin (pumping : Pumping) : Pumping :=
  { pumping with call := some ⟨0, [], none, pumping.emitted⟩ }

/-- `try_recv` on the route of the call: an empty channel ends the inner loop, the last route the
outer one. -/
def receive (dag : Dag) (pumping : Pumping) (call : PumpCall) : Pumping :=
  match dag.threads[call.route]? with
  | none => { pumping with returned := pumping.returned ++ [call.collected], call := none }
  | some (_, outs) =>
      match pumping.queues call.route with
      | [] => { pumping with call := some { call with route := call.route + 1 } }
      | line :: rest =>
          { pumping with
            queues := Function.update pumping.queues call.route rest
            call := some { call with sending := some (line, dag.targets outs) } }

def poll (dag : Dag) (pumping : Pumping) : Pumping :=
  match pumping.call with
  | none => pumping.begin
  | some call =>
      match call.sending with
      | none => pumping.receive dag call
      | some (line, (channel, ring) :: left) =>
          { pumping with
            deliveries := pumping.deliveries ++ [⟨call.route, channel, ring, line⟩]
            call := some { call with sending := some (line, left) } }
      | some (line, []) =>
          { pumping with
            call := some { call with
              collected := call.collected ++ [(call.route, line)], sending := none } }

def step (dag : Dag) (pumping : Pumping) : PumpAction → Pumping
  | .emit route line => if route < dag.threads.length then pumping.emit route line else pumping
  | .poll => pumping.poll dag

end Pumping

/-- The lines of one route, in order. -/
def linesOf (route : Nat) (entries : List (Nat × Text)) : List Text :=
  (entries.filter (·.1 = route)).map Prod.snd

def deliver (route : Nat) (line : Text) (target : Text × Nat) : Delivery :=
  ⟨route, target.1, target.2, line⟩

/-- The sends that one emission asks for. -/
def Dag.deliveriesOf (dag : Dag) (entry : Nat × Text) : List Delivery :=
  match dag.threads[entry.1]? with
  | none => []
  | some (_, outs) => (dag.targets outs).map (deliver entry.1 entry.2)

section Lines

variable {route : Nat} {front back : List (Nat × Text)}

@[simp] theorem linesOf_nil : linesOf route [] = [] := rfl

@[simp] theorem linesOf_append : linesOf route (front ++ back) = linesOf route front ++ linesOf route back := by
  rw [linesOf, List.filter_append, List.map_append]
  rfl

theorem linesOf_single (other : Nat) (line : Text) :
    linesOf route [(other, line)] = if other = route then [line] else [] := by
  unfold linesOf
  split <;> simp_all

end Lines

namespace PumpCall

/-- What the call has taken from the channels. -/
def taken (call : PumpCall) : List (Nat × Text) :=
  call.collected ++ (call.sending.map fun sending => (call.route, sending.1)).toList

/-- The sends that the line in hand still needs. -/
def pending (call : PumpCall) : List Delivery :=
  match call.sending with
  | none => []
  | some (line, left) => left.map (deliver call.route line)

end PumpCall

namespace Pumping

/-- All that the pump has taken from the channels, in order. -/
def taken (pumping : Pumping) : List (Nat × Text) :=
  pumping.returned.flatten ++ (pumping.call.map PumpCall.taken).getD []

def pending (pumping : Pumping) : List Delivery := (pumping.call.map PumpCall.pending).getD []

/-- Each emission is in its channel or taken, in order, and each taken one is sent to its targets. What
had been emitted when a call began is taken on the routes that the call has left. -/
structure Accounted (dag : Dag) (pumping : Pumping) : Prop where
  balance : ∀ route, linesOf route pumping.taken ++ pumping.queues route = pumping.emitted route
  sent : pumping.deliveries ++ pumping.pending = pumping.taken.flatMap dag.deliveriesOf
  known : ∀ entry ∈ pumping.taken, entry.1 < dag.threads.length
  covered : ∀ call ∈ pumping.call, ∀ route, call.before route <+: pumping.emitted route ∧
    (route < call.route → call.before route <+: linesOf route pumping.taken)

section Steps

variable {dag : Dag} {pumping : Pumping}

theorem accounted_start (dag : Dag) : start.Accounted dag :=
  ⟨fun _ => rfl, rfl, by simp [taken, start], by simp [start]⟩

theorem Accounted.emit (accounted : pumping.Accounted dag) (route : Nat) (line : Text) :
    (pumping.emit route line).Accounted dag where
  balance := by
    intro other
    change linesOf other pumping.taken ++ Function.update pumping.queues route _ other =
      Function.update pumping.emitted route _ other
    by_cases same : other = route
    · subst same
      rw [Function.update_self, Function.update_self, ← List.append_assoc, accounted.balance]
    · rw [Function.update_of_ne same, Function.update_of_ne same, accounted.balance]
  sent := accounted.sent
  known := accounted.known
  covered := by
    intro call under other
    obtain ⟨begun, covered⟩ := accounted.covered call under other
    refine ⟨?_, covered⟩
    change call.before other <+: Function.update pumping.emitted route _ other
    by_cases same : other = route
    · subst same
      rw [Function.update_self]
      exact begun.trans (List.prefix_append _ _)
    · rw [Function.update_of_ne same]
      exact begun

/-- A step of the pump that takes nothing from the channels. -/
theorem Accounted.rearrange (accounted : pumping.Accounted dag) {next : Pumping}
    (queues : next.queues = pumping.queues) (emitted : next.emitted = pumping.emitted)
    (taken : next.taken = pumping.taken)
    (sent : next.deliveries ++ next.pending = pumping.deliveries ++ pumping.pending)
    (covered : ∀ call ∈ next.call, ∀ route, call.before route <+: pumping.emitted route ∧
      (route < call.route → call.before route <+: linesOf route pumping.taken)) :
    next.Accounted dag where
  balance := by
    rw [queues, emitted, taken]
    exact accounted.balance
  sent := by
    rw [sent, taken]
    exact accounted.sent
  known := by
    rw [taken]
    exact accounted.known
  covered := by
    rw [emitted, taken]
    exact covered

theorem Accounted.begin (accounted : pumping.Accounted dag) (idle : pumping.call = none) :
    pumping.begin.Accounted dag := by
  refine accounted.rearrange rfl rfl ?_ ?_ ?_
  · simp [Pumping.taken, Pumping.begin, PumpCall.taken, idle]
  · simp [Pumping.pending, Pumping.begin, PumpCall.pending, idle]
  · intro call same route
    obtain rfl : PumpCall.mk 0 [] none pumping.emitted = call := Option.some.inj same
    exact ⟨List.prefix_rfl, fun below => absurd below (Nat.not_lt_zero route)⟩

/-- Taking a line from its channel leaves its sends to do. -/
theorem Accounted.take (accounted : pumping.Accounted dag) {call : PumpCall}
    (under : pumping.call = some call) (free : call.sending = none) {thread : DagThread}
    {outs : List Text} (found : dag.threads[call.route]? = some (thread, outs)) {line : Text}
    {rest : List Text} (queue : pumping.queues call.route = line :: rest) :
    Accounted dag { pumping with
      queues := Function.update pumping.queues call.route rest
      call := some { call with sending := some (line, dag.targets outs) } } := by
  have held : Pumping.taken { pumping with
      queues := Function.update pumping.queues call.route rest
      call := some { call with sending := some (line, dag.targets outs) } } =
        pumping.taken ++ [(call.route, line)] := by
    simp [Pumping.taken, PumpCall.taken, under, free]
  have quiet : pumping.pending = [] := by simp [Pumping.pending, PumpCall.pending, under, free]
  have sent := accounted.sent
  rw [quiet, List.append_nil] at sent
  constructor
  · intro route
    have balance := accounted.balance route
    rw [held, linesOf_append, linesOf_single]
    change _ ++ Function.update pumping.queues call.route rest route = pumping.emitted route
    by_cases same : call.route = route
    · subst same
      rw [if_pos rfl, Function.update_self, ← balance, queue]
      simp
    · rw [if_neg same, Function.update_of_ne (Ne.symm same), List.append_nil, balance]
  · rw [held, List.flatMap_append, ← sent]
    simp [Pumping.pending, PumpCall.pending, Dag.deliveriesOf, found]
  · rw [held]
    intro entry member
    rcases List.mem_append.mp member with earlier | last
    · exact accounted.known entry earlier
    · rw [List.mem_singleton.mp last]
      exact (List.getElem?_eq_some_iff.mp found).1
  · intro other same route
    obtain rfl : { call with sending := some (line, dag.targets outs) } = other :=
      Option.some.inj same
    obtain ⟨begun, covered⟩ := accounted.covered call under route
    refine ⟨begun, fun below => ?_⟩
    rw [held, linesOf_append]
    exact (covered below).trans (List.prefix_append _ _)

theorem Accounted.receive (accounted : pumping.Accounted dag) {call : PumpCall}
    (under : pumping.call = some call) (free : call.sending = none) :
    (pumping.receive dag call).Accounted dag := by
  unfold Pumping.receive
  cases found : dag.threads[call.route]? with
  | none =>
      refine accounted.rearrange rfl rfl ?_ ?_ ?_
      · simp [Pumping.taken, PumpCall.taken, under, free]
      · simp [Pumping.pending, PumpCall.pending, under, free]
      · simp
  | some entry =>
      obtain ⟨thread, outs⟩ := entry
      dsimp only
      cases queue : pumping.queues call.route with
      | nil =>
          refine accounted.rearrange rfl rfl ?_ ?_ ?_
          · simp [Pumping.taken, PumpCall.taken, under, free]
          · simp [Pumping.pending, PumpCall.pending, under, free]
          · intro next same route
            obtain rfl : { call with route := call.route + 1 } = next := Option.some.inj same
            obtain ⟨begun, covered⟩ := accounted.covered call under route
            refine ⟨begun, fun below => ?_⟩
            by_cases last : route = call.route
            · -- an empty channel has given all that was put into it
              have balance := accounted.balance route
              rw [last, queue, List.append_nil] at balance
              rw [last] at begun ⊢
              rw [balance]
              exact begun
            · exact covered (by simp only at below; omega)
      | cons line rest => exact accounted.take under free found queue

theorem Accounted.poll (accounted : pumping.Accounted dag) : (pumping.poll dag).Accounted dag := by
  unfold Pumping.poll
  cases under : pumping.call with
  | none => exact accounted.begin under
  | some call =>
      dsimp only
      have covered := accounted.covered call under
      cases sending : call.sending with
      | none => exact accounted.receive under sending
      | some hand =>
          obtain ⟨line, left⟩ := hand
          cases left with
          | nil =>
              refine accounted.rearrange rfl rfl ?_ ?_ ?_
              · simp [Pumping.taken, PumpCall.taken, under, sending]
              · simp [Pumping.pending, PumpCall.pending, under, sending]
              · intro next same
                cases same
                exact covered
          | cons target left =>
              obtain ⟨channel, ring⟩ := target
              refine accounted.rearrange rfl rfl ?_ ?_ ?_
              · simp [Pumping.taken, PumpCall.taken, under, sending]
              · simp [Pumping.pending, PumpCall.pending, deliver, under, sending]
              · intro next same
                cases same
                exact covered

theorem Accounted.step (accounted : pumping.Accounted dag) (action : PumpAction) :
    (pumping.step dag action).Accounted dag := by
  cases action with
  | emit route line =>
      unfold Pumping.step
      dsimp only
      split
      · exact accounted.emit route line
      · exact accounted
  | poll => exact accounted.poll

theorem Accounted.replay (accounted : pumping.Accounted dag) (actions : List PumpAction) :
    (Replay.replay (Pumping.step dag) pumping actions).Accounted dag := by
  induction actions generalizing pumping with
  | nil => exact accounted
  | cons action actions ih => exact ih (accounted.step action)

/-- A call that begins when nothing is under way has returned, when it ends, all that had been
emitted before. -/
structure Returns (dag : Dag) (first pumping : Pumping) : Prop where
  grown : first.returned.length ≤ pumping.returned.length
  begun : ∀ call ∈ pumping.call, pumping.returned.length = first.returned.length →
    ∀ route, first.emitted route <+: call.before route
  ended : first.returned.length < pumping.returned.length →
    ∀ route < dag.threads.length, first.emitted route <+: linesOf route pumping.returned.flatten
  emitted : ∀ route, first.emitted route <+: pumping.emitted route

theorem Returns.step {first : Pumping} (returns : Returns dag first pumping)
    (accounted : pumping.Accounted dag) (action : PumpAction) :
    Returns dag first (pumping.step dag action) := by
  obtain ⟨grown, begun, ended, emitted⟩ := returns
  cases action with
  | emit route line =>
      unfold Pumping.step
      dsimp only
      split
      · refine ⟨grown, begun, ended, fun other => ?_⟩
        change _ <+: Function.update pumping.emitted route _ other
        by_cases same : other = route
        · subst same
          rw [Function.update_self]
          exact (emitted other).trans (List.prefix_append _ _)
        · rw [Function.update_of_ne same]
          exact emitted other
      · exact ⟨grown, begun, ended, emitted⟩
  | poll =>
      change Returns dag first (pumping.poll dag)
      unfold Pumping.poll
      cases under : pumping.call with
      | none =>
          refine ⟨grown, ?_, ended, emitted⟩
          intro call same _
          cases same
          exact emitted
      | some call =>
          dsimp only
          have own := begun call under
          split
          · rename_i free
            unfold Pumping.receive
            split
            · rename_i last
              have past : dag.threads.length ≤ call.route := List.getElem?_eq_none_iff.mp last
              have held : pumping.taken = pumping.returned.flatten ++ call.collected := by
                simp [Pumping.taken, PumpCall.taken, under, free]
              have flat : (pumping.returned ++ [call.collected]).flatten =
                  pumping.returned.flatten ++ call.collected := by simp
              refine ⟨by simp only [List.length_append]; omega, by simp, ?_, emitted⟩
              intro _ route below
              change _ <+: linesOf route (pumping.returned ++ [call.collected]).flatten
              rw [flat]
              by_cases here : pumping.returned.length = first.returned.length
              · rw [← held]
                exact (own here route).trans
                  ((accounted.covered call under route).2 (Nat.lt_of_lt_of_le below past))
              · rw [linesOf_append]
                exact (ended (by omega) route below).trans (List.prefix_append _ _)
            · split
              · refine ⟨grown, ?_, ended, emitted⟩
                intro next same
                cases same
                exact own
              · refine ⟨grown, ?_, ended, emitted⟩
                intro next same
                cases same
                exact own
          · refine ⟨grown, ?_, ended, emitted⟩
            intro next same
            cases same
            exact own
          · refine ⟨grown, ?_, ended, emitted⟩
            intro next same
            cases same
            exact own

theorem Returns.replay {first : Pumping} (returns : Returns dag first pumping)
    (accounted : pumping.Accounted dag) (actions : List PumpAction) :
    Returns dag first (Replay.replay (Pumping.step dag) pumping actions) := by
  induction actions generalizing pumping with
  | nil => exact returns
  | cons action actions ih => exact ih (returns.step accounted action) (accounted.step action)

theorem returns_refl (idle : pumping.call = none) : Returns dag pumping pumping :=
  ⟨Nat.le_refl _, by simp [idle], fun more => absurd more (Nat.lt_irrefl _),
    fun _ => List.prefix_rfl⟩

end Steps

section Ending

variable {dag : Dag}

/-- The pump gets from one state to the other while no node emits. -/
def Polls (dag : Dag) (pumping next : Pumping) : Prop :=
  ∃ count, replay (step dag) pumping (List.replicate count .poll) = next

theorem Polls.refl (pumping : Pumping) : Polls dag pumping pumping := ⟨0, rfl⟩

theorem Polls.head {pumping next : Pumping} (later : Polls dag (pumping.poll dag) next) :
    Polls dag pumping next := by
  obtain ⟨count, rfl⟩ := later
  exact ⟨count + 1, rfl⟩

theorem Polls.trans {first second third : Pumping} (left : Polls dag first second)
    (right : Polls dag second third) : Polls dag first third := by
  obtain ⟨front, rfl⟩ := left
  obtain ⟨back, rfl⟩ := right
  refine ⟨front + back, ?_⟩
  rw [List.replicate_add, replay_append]

theorem poll_emitted (dag : Dag) (pumping : Pumping) : (pumping.poll dag).emitted = pumping.emitted := by
  unfold poll receive begin
  repeat' split
  all_goals rfl

theorem Polls.emitted {pumping next : Pumping} (polls : Polls dag pumping next) :
    next.emitted = pumping.emitted := by
  obtain ⟨count, rfl⟩ := polls
  induction count generalizing pumping with
  | zero => rfl
  | succ count ih =>
      rw [List.replicate_succ]
      exact ih.trans (poll_emitted dag pumping)

/-- The call stands at the route with no line in hand. -/
def At (pumping : Pumping) (route : Nat) : Prop :=
  ∃ call, pumping.call = some call ∧ call.sending = none ∧ call.route = route

theorem polls_sends (dag : Dag) (left : List (Text × Nat)) {pumping : Pumping} {call : PumpCall} {line : Text}
    (under : pumping.call = some call) (sending : call.sending = some (line, left)) :
    ∃ next, Polls dag pumping next ∧ next.queues = pumping.queues ∧ next.At call.route := by
  induction left generalizing pumping call with
  | nil =>
      refine ⟨pumping.poll dag, (Polls.refl _).head, ?_, ?_⟩
      · simp only [poll, under, sending]
      · simp only [poll, under, sending]
        exact ⟨_, rfl, rfl, rfl⟩
  | cons target left ih =>
      obtain ⟨channel, ring⟩ := target
      have polled : (pumping.poll dag).call = some { call with sending := some (line, left) } := by
        simp only [poll, under, sending]
      obtain ⟨next, polls, queues, stands⟩ := ih polled rfl
      refine ⟨next, polls.head, ?_, stands⟩
      rw [queues]
      simp only [poll, under, sending]

/-- The inner loop empties the channel of its route and leaves the others. -/
theorem polls_route (queue : List Text) {pumping : Pumping} {route : Nat}
    {entry : DagThread × List Text} (found : dag.threads[route]? = some entry)
    (stands : pumping.At route) (holds : pumping.queues route = queue) :
    ∃ next, Polls dag pumping next ∧ next.At (route + 1) ∧ next.queues route = [] ∧
      ∀ other ≠ route, next.queues other = pumping.queues other := by
  obtain ⟨thread, outs⟩ := entry
  induction queue generalizing pumping with
  | nil =>
      obtain ⟨call, under, free, rfl⟩ := stands
      have polled : pumping.poll dag =
          { pumping with call := some { call with route := call.route + 1 } } := by
        simp only [poll, under, free, receive, found, holds]
      refine ⟨pumping.poll dag, (Polls.refl _).head, ?_, ?_, ?_⟩
      · rw [polled]
        exact ⟨_, rfl, free, rfl⟩
      · rw [polled]
        exact holds
      · intro other _
        rw [polled]
  | cons line rest ih =>
      obtain ⟨call, under, free, rfl⟩ := stands
      have polled : pumping.poll dag = { pumping with
          queues := Function.update pumping.queues call.route rest
          call := some { call with sending := some (line, dag.targets outs) } } := by
        simp only [poll, under, free, receive, found, holds]
      obtain ⟨middle, sends, queues, again⟩ := polls_sends dag (dag.targets outs)
        (show (pumping.poll dag).call = some { call with sending := some (line, dag.targets outs) } by
          rw [polled]) rfl
      have left : middle.queues call.route = rest := by
        rw [queues, polled]
        exact Function.update_self _ _ _
      obtain ⟨next, polls, stands, empty, kept⟩ := ih again left
      refine ⟨next, (sends.head).trans polls, stands, empty, ?_⟩
      intro other differs
      rw [kept other differs, queues, polled]
      exact Function.update_of_ne differs _ _

/-- Behind the last route the call ends. -/
theorem polls_last {pumping : Pumping} {route : Nat} (past : dag.threads.length ≤ route)
    (stands : pumping.At route) :
    ∃ next, Polls dag pumping next ∧ next.call = none ∧ next.queues = pumping.queues := by
  obtain ⟨call, under, free, rfl⟩ := stands
  have last : dag.threads[call.route]? = none := List.getElem?_eq_none_iff.mpr past
  have polled : pumping.poll dag =
      { pumping with returned := pumping.returned ++ [call.collected], call := none } := by
    simp only [poll, under, free, receive, last]
  exact ⟨pumping.poll dag, (Polls.refl _).head, by rw [polled], by rw [polled]⟩

/-- The outer loop empties the channels from its route on and ends the call. -/
theorem polls_routes (dag : Dag) (count : Nat) {pumping : Pumping} {route : Nat}
    (size : route + count = dag.threads.length) (stands : pumping.At route) :
    ∃ next, Polls dag pumping next ∧ next.call = none ∧
      (∀ other, route ≤ other → other < dag.threads.length → next.queues other = []) ∧
      ∀ other < route, next.queues other = pumping.queues other := by
  induction count generalizing pumping route with
  | zero =>
      obtain ⟨next, polls, idle, queues⟩ := polls_last (by omega : dag.threads.length ≤ route) stands
      refine ⟨next, polls, idle, ?_, fun other _ => by rw [queues]⟩
      intro other least below
      omega
  | succ count ih =>
      have below : route < dag.threads.length := by omega
      obtain ⟨middle, inner, again, empty, kept⟩ :=
        polls_route _ (List.getElem?_eq_getElem below) stands rfl
      obtain ⟨next, outer, idle, drained, others⟩ := ih (by omega) again
      refine ⟨next, inner.trans outer, idle, ?_, ?_⟩
      · intro other least small
        by_cases here : other = route
        · rw [here, others route (by omega), empty]
        · exact drained other (by omega) small
      · intro other small
        rw [others other (by omega), kept other (by omega)]

/-- A call under way comes to its end when the nodes stop emitting. -/
theorem polls_idle (dag : Dag) (pumping : Pumping) :
    ∃ next, Polls dag pumping next ∧ next.call = none := by
  cases under : pumping.call with
  | none => exact ⟨pumping, Polls.refl _, under⟩
  | some call =>
      obtain ⟨middle, front, stands⟩ : ∃ middle, Polls dag pumping middle ∧ middle.At call.route := by
        cases sending : call.sending with
        | none => exact ⟨pumping, Polls.refl _, call, under, sending, rfl⟩
        | some hand =>
            obtain ⟨middle, front, -, stands⟩ := polls_sends dag hand.2 under sending
            exact ⟨middle, front, stands⟩
      rcases Nat.le_total dag.threads.length call.route with past | within
      · obtain ⟨next, back, idle, -⟩ := polls_last past stands
        exact ⟨next, front.trans back, idle⟩
      · obtain ⟨next, back, idle, -, -⟩ :=
          polls_routes dag (dag.threads.length - call.route) (by omega) stands
        exact ⟨next, front.trans back, idle⟩

/-- A whole call empties the channels of all routes. -/
theorem polls_drained {pumping : Pumping} (idle : pumping.call = none) :
    ∃ next, Polls dag pumping next ∧ next.call = none ∧
      ∀ route < dag.threads.length, next.queues route = [] := by
  have polled : pumping.poll dag = pumping.begin := by simp only [poll, idle]
  have stands : (pumping.poll dag).At 0 := by
    rw [polled]
    exact ⟨_, rfl, rfl, rfl⟩
  obtain ⟨next, polls, ended, empty, -⟩ := polls_routes dag dag.threads.length (by omega) stands
  exact ⟨next, polls.head, ended, fun route below => empty route (Nat.zero_le _) below⟩

end Ending

end Pumping

namespace Dag

/-- No OUT channel is listed twice, and every ring has one writer. -/
structure Distinct (dag : Dag) : Prop where
  outs : ∀ entry ∈ dag.threads, entry.2.Nodup
  rings : (dag.channelWriters.map Prod.snd).Nodup
  bounded : ∀ writer ∈ dag.channelWriters, writer.2 < dag.allocated

section Wiring

variable {dag : Dag}

theorem distinct_empty : empty.Distinct := ⟨by simp [empty], by simp [empty], by simp [empty]⟩

/-- Writers of new rings and threads without repeated OUT channels keep the DAG distinct. -/
theorem Distinct.extend (distinct : dag.Distinct) {next : Dag} {writers : List (Text × Nat)}
    {threads : List (DagThread × List Text)}
    (written : next.channelWriters = dag.channelWriters ++ writers)
    (spawned : next.threads = dag.threads ++ threads) (grown : dag.allocated ≤ next.allocated)
    (outs : ∀ entry ∈ threads, entry.2.Nodup) (rings : (writers.map Prod.snd).Nodup)
    (fresh : ∀ writer ∈ writers, dag.allocated ≤ writer.2 ∧ writer.2 < next.allocated) :
    next.Distinct where
  outs := by
    rw [spawned]
    intro entry member
    exact (List.mem_append.mp member).elim (distinct.outs entry) (outs entry)
  rings := by
    rw [written, List.map_append, List.nodup_append]
    refine ⟨distinct.rings, rings, ?_⟩
    intro ring old other new equal
    obtain ⟨writer, held, rfl⟩ := List.mem_map.mp old
    obtain ⟨added, inside, rfl⟩ := List.mem_map.mp new
    have below := distinct.bounded writer held
    have above := (fresh added inside).1
    omega
  bounded := by
    rw [written]
    intro writer member
    rcases List.mem_append.mp member with old | new
    · have below := distinct.bounded writer old
      omega
    · exact (fresh writer new).2

theorem Distinct.addNode (distinct : dag.Distinct) {node : ScriptNodeDef} (outs : node.outs.Nodup) :
    (dag.addNode node).Distinct := by
  apply distinct.extend rfl rfl (Nat.le_add_right _ _)
  · simpa using outs
  · rw [List.zipIdx_map_snd]
    exact List.nodup_range'
  · intro writer member
    have bounds := List.mem_zipIdx (x := writer.1) (i := writer.2) member
    simp only [Dag.addNode]
    omega

theorem Distinct.addPlatform (distinct : dag.Distinct) : dag.addPlatform.Distinct := by
  have threads : dag.addPlatform.threads = dag.threads ++ [] := (List.append_nil _).symm
  have grown : dag.allocated ≤ dag.addPlatform.allocated := Nat.le_add_right _ _
  refine distinct.extend rfl threads grown ?_ ?_ ?_
  · simp
  · simp
  · simp [Dag.addPlatform]

theorem Distinct.withRouter (distinct : dag.Distinct) {router : SemanticRouterDef}
    (outs : router.outs.Nodup) (backend : LlmBackend BackendChannels) :
    (dag.withRouter router backend).Distinct := by
  apply distinct.extend rfl rfl (Nat.le_add_right _ _)
  · simpa using outs
  · simp
  · simp [Dag.withRouter]

theorem distinct_nodes {nodes : List ScriptNodeDef} (outs : ∀ node ∈ nodes, node.outs.Nodup) :
    (nodes.foldl Dag.addNode empty).Distinct := by
  induction nodes using List.reverseRecOn with
  | nil => exact distinct_empty
  | append_singleton nodes node ih =>
      rw [List.foldl_append]
      exact (ih fun other member => outs other (by simp [member])).addNode (outs node (by simp))

variable {llmHttp peerScripting : Bool}
  {nodeOrder : List (Row Text ScriptHead Port) → List (Row Text ScriptHead Port)}
  {routerOrder : List (Row Text RouterHead Text) → List (Row Text RouterHead Text)}
  {store : Rdf.Dataset}

theorem load_distinct
    (loaded : load llmHttp peerScripting nodeOrder routerOrder store = .ok dag) : dag.Distinct := by
  have nodeOuts : ∀ node ∈ queryScriptNodes peerScripting nodeOrder store, node.outs.Nodup := by
    intro node member
    obtain ⟨entry, collected, rfl⟩ := List.mem_map.mp member
    apply (extras_collect_nodup _ entry collected).filterMap
    intro left right channel inLeft inRight
    cases left <;> cases right <;> simp_all [Port.channelOut]
  have routerOuts : ∀ router ∈ querySemanticRouters routerOrder store, router.outs.Nodup := by
    intro router member
    obtain ⟨entry, collected, rfl⟩ := List.mem_map.mp member
    exact extras_collect_nodup _ entry collected
  unfold load spawn at loaded
  split at loaded
  · cases loaded
    exact distinct_empty
  · refine addRouters_preserves Distinct ?_ (distinct_nodes nodeOuts).addPlatform loaded
    intro before distinct router member backend _
    exact distinct.withRouter (routerOuts router member) backend

theorem mem_targets {outs : List Text} {channel : Text} {ring : Nat} :
    (channel, ring) ∈ dag.targets outs ↔ channel ∈ outs ∧ (channel, ring) ∈ dag.channelWriters := by
  simp only [targets, writers, List.mem_flatMap, List.mem_map, List.mem_filter, decide_eq_true_eq,
    Prod.mk.injEq]
  constructor
  · rintro ⟨other, listed, number, ⟨⟨name, number'⟩, ⟨held, rfl⟩, rfl⟩, rfl, rfl⟩
    exact ⟨listed, held⟩
  · rintro ⟨listed, held⟩
    exact ⟨channel, listed, ring, ⟨(channel, ring), ⟨held, rfl⟩, rfl⟩, rfl, rfl⟩

/-- An emission is sent to no ring twice. -/
theorem Distinct.targets_nodup (distinct : dag.Distinct) {outs : List Text} (different : outs.Nodup) :
    ((dag.targets outs).map Prod.snd).Nodup := by
  have rings : (dag.targets outs).map Prod.snd = outs.flatMap dag.writers := by
    rw [targets, List.map_flatMap]
    congr 1
    funext channel
    simp
  rw [rings, List.nodup_flatMap]
  refine ⟨fun channel _ => (List.filter_sublist.map Prod.snd).nodup distinct.rings, ?_⟩
  refine different.imp ?_
  intro left right differ ring inLeft inRight
  obtain ⟨first, held, rfl⟩ := List.mem_map.mp inLeft
  obtain ⟨second, held', same⟩ := List.mem_map.mp inRight
  obtain ⟨within, leftName⟩ := List.mem_filter.mp held
  obtain ⟨within', rightName⟩ := List.mem_filter.mp held'
  have one := List.inj_on_of_nodup_map distinct.rings within' within same
  subst one
  exact differ ((of_decide_eq_true leftName).symm.trans (of_decide_eq_true rightName))

end Wiring

end Dag

/-- What the thread of a route emits in a run. -/
def emissionsOf (route : Nat) (actions : List PumpAction) : List Text :=
  actions.filterMap fun action =>
    match action with
    | .emit other line => if other = route then some line else none
    | .poll => none

theorem Pumping.replay_emitted (dag : Dag) {route : Nat} (below : route < dag.threads.length)
    (actions : List PumpAction) (pumping : Pumping) :
    (Replay.replay (Pumping.step dag) pumping actions).emitted route =
      pumping.emitted route ++ emissionsOf route actions := by
  induction actions generalizing pumping with
  | nil => exact (List.append_nil _).symm
  | cons action actions ih =>
      refine (ih (pumping.step dag action)).trans ?_
      cases action with
      | poll =>
          rw [show (pumping.step dag .poll).emitted = pumping.emitted from poll_emitted dag pumping]
          rfl
      | emit other line =>
          by_cases same : other = route
          · subst same
            simp [Pumping.step, Pumping.emit, emissionsOf, below]
          · have kept : (pumping.step dag (.emit other line)).emitted route = pumping.emitted route := by
              unfold Pumping.step Pumping.emit
              dsimp only
              split
              · exact Function.update_of_ne (Ne.symm same) _ _
              · rfl
            simp [kept, emissionsOf, same]

/-- What the pump of a tick returns; a tick that the carrier's error ends does not pump. -/
def TickInputs.pumped {Carrier : Type} (inputs : TickInputs Carrier) : Option (List Text) :=
  match inputs.iterated with
  | .error _ => none
  | .ok () => some inputs.emits

/-- The script's line that an activity dispatches. -/
def Activity.emitted {Carrier : Type} : Activity Carrier → Option Text
  | .emit turtle => some turtle
  | _ => none

theorem TickInputs.activities_emitted {Carrier : Type} (inputs : TickInputs Carrier) :
    inputs.activities.filterMap Activity.emitted = inputs.pumped.getD [] := by
  have others : ∀ {Input : Type} (wrap : Input → Activity Carrier) (entries : List Input),
      (∀ entry, (wrap entry).emitted = none) →
      (entries.map wrap).filterMap Activity.emitted = [] := fun wrap entries silent => by
    simp [List.filterMap_map, silent]
  have own : (inputs.emits.map Activity.emit).filterMap (@Activity.emitted Carrier) =
      inputs.emits := by
    rw [List.filterMap_map]
    exact List.filterMap_some
  unfold TickInputs.activities TickInputs.pumped
  cases inputs.iterated with
  | error reason => rfl
  | ok done =>
      dsimp only
      rw [List.filterMap_append, List.filterMap_append, List.filterMap_append, List.filterMap_append,
        others .event _ fun _ => rfl, others .line _ fun _ => rfl, others .query _ fun _ => rfl, own]
      rfl

theorem ticks_emitted {Carrier : Type} (ticks : List (TickInputs Carrier)) :
    (ticks.flatMap TickInputs.activities).filterMap Activity.emitted =
      (ticks.filterMap TickInputs.pumped).flatten := by
  induction ticks with
  | nil => rfl
  | cons inputs ticks ih =>
      rw [List.flatMap_cons, List.filterMap_append, ih, inputs.activities_emitted, List.filterMap_cons]
      cases inputs.pumped <;> rfl

/-- What holds when the pump rests after a run of it with the threads' emissions. -/
structure Pumped (dag : Dag) (actions : List PumpAction) (pumping : Pumping) : Prop where
  balance : ∀ route < dag.threads.length,
    linesOf route pumping.returned.flatten ++ pumping.queues route = emissionsOf route actions
  known : ∀ entry ∈ pumping.returned.flatten, entry.1 < dag.threads.length
  sent : pumping.deliveries = pumping.returned.flatten.flatMap dag.deliveriesOf

/-- No emission is lost, duplicated or reordered: in every run of a loaded DAG each emission is
returned in its thread's order or still in its channel, is sent once to every subscriber of the
thread's OUT channels, is returned by the next whole call, and is dispatched in the tick that
returned it. -/
theorem pump_emits_exactly_once {llmHttp peerScripting : Bool}
    {nodeOrder : List (Row Text ScriptHead Port) → List (Row Text ScriptHead Port)}
    {routerOrder : List (Row Text RouterHead Text) → List (Row Text RouterHead Text)}
    {store : Rdf.Dataset} {dag : Dag}
    (loaded : Dag.load llmHttp peerScripting nodeOrder routerOrder store = .ok dag) :
    (∀ entry ∈ dag.threads, entry.2.Nodup ∧ ((dag.targets entry.2).map Prod.snd).Nodup ∧
      ∀ channel ring, (channel, ring) ∈ dag.targets entry.2 ↔
        channel ∈ entry.2 ∧ (channel, ring) ∈ dag.channelWriters) ∧
    ∀ actions pumping, replay (Pumping.step dag) .start actions = pumping →
      (pumping.call = none → Pumped dag actions pumping) ∧
      (pumping.call = none → ∀ during later, replay (Pumping.step dag) pumping during = later →
        pumping.returned.length < later.returned.length → ∀ route < dag.threads.length,
          emissionsOf route actions <+: linesOf route later.returned.flatten) ∧
      (∃ polls later, replay (Pumping.step dag) pumping (List.replicate polls .poll) = later ∧
        later.call = none ∧ ∀ route < dag.threads.length,
          linesOf route later.returned.flatten = emissionsOf route actions) ∧
      ∀ {Store Carrier : Type} (host : Host Store Carrier) (context : Context Store Carrier) ticks,
        ticks.filterMap TickInputs.pumped = pumping.returned.map (·.map Prod.snd) →
          replay (Context.tick host) context ticks =
            replay (Context.perform host) context (ticks.flatMap TickInputs.activities) ∧
          (ticks.flatMap TickInputs.activities).filterMap Activity.emitted =
            pumping.returned.flatten.map Prod.snd := by
  have distinct := Dag.load_distinct loaded
  refine ⟨fun entry member => ⟨distinct.outs entry member,
    distinct.targets_nodup (distinct.outs entry member), fun _ _ => Dag.mem_targets⟩, ?_⟩
  rintro actions pumping rfl
  generalize run : replay (Pumping.step dag) .start actions = pumping
  have accounted : pumping.Accounted dag := by
    rw [← run]
    exact (Pumping.accounted_start dag).replay actions
  have emitted : ∀ route < dag.threads.length, pumping.emitted route = emissionsOf route actions := by
    intro route below
    rw [← run]
    exact Pumping.replay_emitted dag below actions .start
  refine ⟨?_, ?_, ?_, ?_⟩
  · intro idle
    have held : pumping.taken = pumping.returned.flatten := by simp [Pumping.taken, idle]
    have quiet : pumping.pending = [] := by simp [Pumping.pending, idle]
    refine ⟨fun route below => ?_, ?_, ?_⟩
    · rw [← emitted route below, ← accounted.balance, held]
    · rw [← held]
      exact accounted.known
    · have sent := accounted.sent
      rwa [quiet, List.append_nil, held] at sent
  · rintro idle during later rfl longer route below
    rw [← emitted route below]
    exact ((Pumping.returns_refl idle).replay accounted during).ended longer route below
  · obtain ⟨resting, front, idle⟩ := Pumping.polls_idle dag pumping
    obtain ⟨later, back, ended, empty⟩ := Pumping.polls_drained idle
    obtain ⟨polls, reached⟩ := front.trans back
    refine ⟨polls, later, reached, ended, fun route below => ?_⟩
    have balance := ((accounted.replay (List.replicate polls .poll))).balance route
    rw [reached, empty route below, List.append_nil, (front.trans back).emitted,
      emitted route below] at balance
    rw [← balance]
    simp [Pumping.taken, ended]
  · intro Store Carrier host context ticks returns
    refine ⟨Context.ticks_eq_replay host context ticks, ?_⟩
    rw [ticks_emitted, returns, List.map_flatten]

/-- A router's emissions among them. -/
theorem pump_emits_exactly_once_ollama :
    ∃ dag, Dag.load true false id id (routerStore "ollama".toList) = .ok dag ∧
      ∀ actions, (replay (Pumping.step dag) .start actions).call = none →
        Pumped dag actions (replay (Pumping.step dag) .start actions) := by
  obtain ⟨dag, loaded⟩ := load_sample (Or.inr ⟨rfl, Or.inl (Eq.refl "ollama".toList)⟩)
  exact ⟨dag, loaded, fun actions =>
    ((pump_emits_exactly_once loaded).2 actions _ rfl).1⟩

end LeanAntenna
