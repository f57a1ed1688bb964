import Antenna.PipelineCore
import Antenna.RunLoop
import Antenna.WsLink

/-!
The program behind a WebSocket port, as `main` starts it with one: the worker's ticks beside the accept
loop and the forwarder. A read takes the next line if there is one and never blocks.
-/

namespace LeanAntenna

open Text Replay Transition

/-- The actions of the link that are the worker's. -/
def WsLinkAction.ofWorker : WsLinkAction → Bool
  | .send _ => true
  | .receive => true
  | _ => false

/-- `unsent` is what the worker has still to send of its last activity. -/
structure WsProcess (Store Carrier : Type) where
  context : Context Store Carrier
  stage : WorkerStage
  link : WsLink
  unsent : List Text
  performed : List (Activity Carrier)

inductive WsStep (Carrier : Type) where
  | serve (action : WsLinkAction)
  | send
  | receive
  | move (move : TickMove Carrier)

namespace WsProcess

variable {Store Carrier : Type} (host : Host Store Carrier)

/-- The prefixes greet every client. -/
def greeting : Option Text := some (trim turtleHeader)

def start (context : Context Store Carrier) : WsProcess Store Carrier :=
  ⟨context, .polling, WsLink.start, [], []⟩

def perform (process : WsProcess Store Carrier) (activity : Activity Carrier) (stage : WorkerStage) :
    WsProcess Store Carrier :=
  let context := process.context.perform host activity
  { process with
    context
    stage
    unsent := AntennaHandle.fresh process.context context
    performed := process.performed ++ [activity] }

def receive (process : WsProcess Store Carrier) : WsProcess Store Carrier :=
  match process.link.inbound, process.link.receive with
  | line :: _, some link => { process with link }.perform host (.line line) .lines
  | _, _ => { process with stage := .queries }

def take (process : WsProcess Store Carrier) :
    Option (Activity Carrier) × WorkerStage → WsProcess Store Carrier
  | (some activity, stage) => process.perform host activity stage
  | (none, stage) => { process with stage }

/-- The worker sends what an activity had to say before it goes on. -/
def step (process : WsProcess Store Carrier) : WsStep Carrier → Option (WsProcess Store Carrier)
  | .serve action =>
      if action.ofWorker then none
      else (process.link.step greeting action).map fun link => { process with link }
  | .send =>
      match process.unsent with
      | [] => none
      | message :: unsent =>
          (process.link.step greeting (.send message)).map fun link => { process with link, unsent }
  | .receive =>
      if process.unsent = [] ∧ process.stage ∈ [.events, .lines] then some (process.receive host)
      else none
  | .move move =>
      if process.unsent = [] then (move.leads process.stage).map (process.take host) else none

end WsProcess

namespace WsLink

variable {greeting : Option Text} {link next : WsLink} {action : WsLinkAction}

theorem onServer_ends {action : WsAction} (stepped : link.onServer action = some next) :
    next.sent = link.sent ∧ next.received = link.received := by
  obtain ⟨server, -, rfl⟩ := Option.map_eq_some_iff.mp stepped
  exact ⟨rfl, rfl⟩

/-- The threads of the server leave the worker's ends of the channels alone. -/
theorem step_ends (serves : action.ofWorker = false) (stepped : link.step greeting action = some next) :
    next.sent = link.sent ∧ next.received = link.received := by
  cases action with
  | send message => cases serves
  | receive => cases serves
  | accept =>
      simp only [step] at stepped
      split at stepped
      · cases stepped
        exact ⟨rfl, rfl⟩
      · cases stepped
  | handshake complete =>
      simp only [step] at stepped
      split at stepped
      · cases stepped
        exact ⟨rfl, rfl⟩
      · cases stepped
  | greet written =>
      simp only [step] at stepped
      split at stepped
      · cases stepped
        exact ⟨rfl, rfl⟩
      · cases stepped
  | register =>
      simp only [step, register] at stepped
      split at stepped
      · obtain ⟨server, -, rfl⟩ := Option.map_eq_some_iff.mp stepped
        exact ⟨rfl, rfl⟩
      · cases stepped
  | poll =>
      simp only [step] at stepped
      split at stepped
      · cases stepped
        exact ⟨rfl, rfl⟩
      · cases stepped
  | read event =>
      simp only [step, read] at stepped
      split at stepped
      all_goals
        cases stepped
      all_goals
        exact ⟨rfl, rfl⟩
  | write outcome =>
      simp only [step, write] at stepped
      split at stepped
      · split at stepped
        · cases stepped
          exact ⟨rfl, rfl⟩
        · cases outcome with
          | done =>
              cases stepped
              exact ⟨rfl, rfl⟩
          | wouldBlock =>
              cases stepped
              exact ⟨rfl, rfl⟩
          | failed =>
              cases stepped
              exact ⟨rfl, rfl⟩
      · cases stepped
  | flush outcome =>
      simp only [step, flush] at stepped
      split at stepped
      all_goals
        cases stepped
      all_goals
        exact ⟨rfl, rfl⟩
  | panic =>
      simp only [step, panic] at stepped
      split at stepped
      all_goals
        cases stepped
      all_goals
        exact ⟨rfl, rfl⟩
  | check => exact onServer_ends stepped
  | take => exact onServer_ends stepped
  | timeout => exact onServer_ends stepped
  | recheck => exact onServer_ends stepped
  | forward => exact onServer_ends stepped

end WsLink

namespace WsProcess

variable {Store Carrier : Type} {host : Host Store Carrier} {begins : Context Store Carrier}
  {process next : WsProcess Store Carrier}

open AntennaHandle (fresh inputLines)

/-- The worker did what ticks do on the lines that it read, and sent what they send but for the rest
of the last activity. -/
structure Runs (host : Host Store Carrier) (begins : Context Store Carrier)
    (process : WsProcess Store Carrier) : Prop where
  ticking : Ticking host begins process.context process.stage process.performed
  lines : inputLines process.performed = process.link.received
  sent : process.link.sent ++ process.unsent = fresh begins process.context
  orderly : process.link.Orderly greeting

theorem start_runs : (start begins).Runs host begins where
  ticking := .start
  lines := rfl
  sent := List.drop_length.symm
  orderly := WsLink.start_orderly

/-- An activity, in front of which the worker may have taken a line from the link. -/
theorem Runs.perform (runs : process.Runs host begins) (idle : process.unsent = [])
    {activity : Activity Carrier} {stage : WorkerStage}
    (advances : Advances process.stage activity stage) {link : WsLink} (orderly : link.Orderly greeting)
    (received : link.received = process.link.received ++ activity.input.toList)
    (sent : link.sent = process.link.sent) :
    ({ process with link }.perform host activity stage).Runs host begins where
  ticking := runs.ticking.perform advances
  lines := by
    change inputLines (process.performed ++ [activity]) = link.received
    rw [AntennaHandle.inputLines_snoc, runs.lines, received]
  sent := by
    have before := runs.sent
    rw [idle, List.append_nil] at before
    change link.sent ++ _ = fresh begins (process.context.perform host activity)
    rw [sent, before, runs.ticking.fresh_perform]
    rfl
  orderly := orderly

theorem Runs.receive (runs : process.Runs host begins) (idle : process.unsent = [])
    (reading : process.stage ∈ [.events, .lines]) : (process.receive host).Runs host begins := by
  unfold WsProcess.receive
  cases waiting : process.link.inbound with
  | nil => exact { runs with ticking := runs.ticking.pass (.read reading) }
  | cons line rest =>
      have taken : process.link.receive =
          some { process.link with
            inbound := rest
            received := process.link.received ++ [line] } := by
        rw [WsLink.receive, waiting]
      have moved : process.link.step greeting .receive = some _ := taken
      rw [taken]
      exact runs.perform idle (.line reading line) (WsLink.step_orderly runs.orderly moved) rfl rfl

theorem step_runs {action : WsStep Carrier} (runs : process.Runs host begins)
    (stepped : process.step host action = some next) : next.Runs host begins := by
  cases action with
  | serve action =>
      simp only [step] at stepped
      split at stepped
      · cases stepped
      · rename_i serves
        obtain ⟨link, moved, rfl⟩ := Option.map_eq_some_iff.mp stepped
        obtain ⟨sent, received⟩ := WsLink.step_ends (by simpa using serves) moved
        exact { runs with
          lines := runs.lines.trans received.symm
          sent := (congrArg (· ++ process.unsent) sent).trans runs.sent
          orderly := WsLink.step_orderly runs.orderly moved }
  | send =>
      simp only [step] at stepped
      split at stepped
      · cases stepped
      · rename_i message unsent waiting
        obtain ⟨link, moved, rfl⟩ := Option.map_eq_some_iff.mp stepped
        have orderly := WsLink.step_orderly runs.orderly moved
        have put : (process.link.onServer (.send message)).map
            (fun between => { between with sent := between.sent ++ [message] }) = some link := moved
        obtain ⟨between, placed, rfl⟩ := Option.map_eq_some_iff.mp put
        obtain ⟨sent, received⟩ := WsLink.onServer_ends placed
        refine { runs with
          lines := runs.lines.trans received.symm
          sent := ?_
          orderly }
        change (between.sent ++ [message]) ++ unsent = _
        rw [sent, ← runs.sent, waiting, List.append_assoc]
        rfl
  | receive =>
      simp only [step] at stepped
      split at stepped
      · rename_i ready
        cases stepped
        exact runs.receive ready.1 ready.2
      · cases stepped
  | move move =>
      simp only [step] at stepped
      split at stepped
      · rename_i idle
        obtain ⟨⟨activity, stage⟩, leads, rfl⟩ := Option.map_eq_some_iff.mp stepped
        cases activity with
        | none => exact { runs with ticking := runs.ticking.pass (TickMove.passes leads) }
        | some activity =>
            obtain ⟨advances, unread⟩ := TickMove.advances leads
            exact runs.perform idle advances runs.orderly (by simp [unread]) rfl
      · cases stepped

/-- However the sockets, the server's threads and the worker interleave: the program does what ticks do
one after the other on the lines of the clients' texts, each once and in order; and of what these ticks
send, each message goes to one client at most, the clients in their order and behind the prefixes. -/
theorem ws_run_is_ticks {actions : List (WsStep Carrier)}
    (ran : runSteps (step host) (start begins) actions = some process) :
    ∃ (ticks : List (TickInputs Carrier)) (part : List (Activity Carrier)) (last : TickInputs Carrier),
      part <+: last.activities ∧
      process.context =
        replay (Context.perform host) (replay (Context.tick host) begins ticks) part ∧
      inputLines (ticks.flatMap TickInputs.activities ++ part) ++ process.link.inbound =
        process.link.texts.flatMap turtleLines ∧
      (∃ passed, fresh begins process.context = passed ++ process.link.server.pc.inHand ++
          process.link.server.outgoing ++ process.unsent ∧
        ((List.range process.link.server.count).flatMap process.link.server.queues).Sublist passed) ∧
      ∀ client, process.link.Given greeting client := by
  have runs : process.Runs host begins := runSteps_preserves (fun _ _ => True) (Runs host begins)
    (fun _ _ _ runs _ stepped => step_runs runs stepped) start_runs
    (stepsMeet_of_forall (fun _ _ => trivial) _) ran
  obtain ⟨ticks, part, last, front, performed, worker⟩ := runs.ticking.whole
  obtain ⟨passed, split, inside⟩ := runs.orderly.dispersed.passed
  refine ⟨ticks, part, last, front, worker, ?_, ⟨passed, ?_, inside⟩, runs.orderly.given⟩
  · rw [← performed, runs.lines, runs.orderly.inbound]
  · rw [← runs.sent, split]

/-- A client's statement is stored, and the worker's answer to it goes back. -/
def answeredRun : List (WsStep Unit) :=
  [.serve .accept, .serve (.handshake true), .serve (.greet true), .serve .register, .serve .poll,
    .serve (.read (.text " <a> <b> <c> .".toList)), .move .poll, .move .startup, .move .bootstrap,
    .move (.iterate () true), .receive, .send, .serve .check, .serve .take, .serve .recheck,
    .serve .forward, .serve (.read .wouldBlock), .serve (.write .done)]

theorem ws_run_is_ticks_answered :
    ∃ (process : WsProcess Unit Unit) (ticks : List (TickInputs Unit)) (part : List (Activity Unit)),
      runSteps (step idleHost) (start (settled [])) answeredRun = some process ∧
        inputLines (ticks.flatMap TickInputs.activities ++ part) = ["<a> <b> <c> .".toList] ∧
        process.link.server.queues 0 = ["<a> <b> <c> .".toList] := by
  have facts : (runSteps (step idleHost) (start (settled [])) answeredRun).map
      (fun process => (process.link.texts, process.link.inbound, process.link.server.queues 0)) =
        some ([" <a> <b> <c> .".toList], [], ["<a> <b> <c> .".toList]) := by decide
  obtain ⟨process, ran, seen⟩ := Option.map_eq_some_iff.mp facts
  obtain ⟨texts, rest⟩ := Prod.mk.inj seen
  obtain ⟨inbound, queued⟩ := Prod.mk.inj rest
  obtain ⟨ticks, part, last, -, -, lines, -⟩ := ws_run_is_ticks ran
  rw [inbound, List.append_nil, texts] at lines
  refine ⟨process, ticks, part, ran, lines.trans ?_, queued⟩
  decide

end WsProcess

end LeanAntenna
