import Antenna.Library.Utf8
import Antenna.ScriptVm
import Antenna.WakeupChecks

/-!
A script node's thread with its VM: what it receives from its inboxes it hands to its script, one
message at a time. One step is one attempt of a producer, or one step of the thread's loop.
-/

namespace LeanAntenna

open Text Transition RingBuffer

namespace NodeState

variable {count : Nat}

/-- What the thread's next step receives. -/
def fetched (state : NodeState count) : Option (Fin count × List UInt8) :=
  match state.thread with
  | .draining _ current => (state.inboxes current).ring.pop.2.map fun data => (current, data)
  | _ => none

end NodeState

/-- Whether an evaluation of the script's body returns, and what it emits up to its end. -/
structure ScriptOutcome where
  completes : Bool
  emits : List Text
deriving DecidableEq, Repr

/-- One call of `exec`, with the body it evaluates where the VM has one. -/
structure NodeExecution (count : Nat) where
  index : Fin count
  call : ScriptCall
  evaluation : Option Evaluation
  emits : List Text
deriving DecidableEq, Repr

/-- A node as its thread gets it; `behaviour` says what its script does. -/
structure NodeScript (count : Nat) (Hash : Type) where
  engine : ScriptEngine Hash
  body : Text
  channels : Fin count → Text
  behaviour : List (NodeExecution count) → Evaluation → ScriptOutcome

/-- The thread, its VM and its inboxes, with what each inbox took and gave so far. -/
structure NodeRun (count : Nat) (Hash : Type) where
  node : NodeState count
  vm : ScriptVm Hash
  sending : Fin count → Text
  accepted : Fin count → List Text
  received : Fin count → List Text
  executions : List (NodeExecution count)

inductive NodeAction (count : Nat) where
  | send (index : Fin count) (turtle : Text)
  | attempt (index : Fin count)
  | signal (index : Fin count)
  | thread
deriving DecidableEq, Repr

namespace NodeRun

variable {count : Nat} {Hash : Type}

def start (os : TargetOs) (pipeSize : Nat) (positive : 0 < pipeSize) (capacity : Nat) :
    NodeRun count Hash where
  node := NodeState.start os pipeSize positive capacity
  vm := ScriptEngine.new
  sending _ := []
  accepted _ := []
  received _ := []
  executions := []

section Steps

variable [DecidableEq Hash] (script : NodeScript count Hash)

/-- `vm.exec` on a message. An error and a panic of the script are logged, and the loop goes on. -/
def execute (run : NodeRun count Hash) (index : Fin count) (turtle : Text) : NodeRun count Hash :=
  let probe := script.engine.exec run.vm ⟨script.body, turtle, script.channels index, true⟩
  let outcome : ScriptOutcome :=
    match probe.2 with
    | .ok evaluation => script.behaviour run.executions evaluation
    | .error _ => ⟨false, []⟩
  { run with
    vm := probe.1
    executions := run.executions ++ [{
      index
      call := ⟨script.body, turtle, script.channels index, outcome.completes⟩
      evaluation := probe.2.toOption
      emits := outcome.emits }] }

/-- A message is received, and executed unless it is empty. -/
def take (run : NodeRun count Hash) (index : Fin count) (turtle : Text) : NodeRun count Hash :=
  let taken := { run with
    received := Function.update run.received index (run.received index ++ [turtle]) }
  if turtle.isEmpty then taken else taken.execute script index turtle

def accept (run : NodeRun count Hash) (index : Fin count) : NodeRun count Hash :=
  { run with
    accepted := Function.update run.accepted index
      (run.accepted index ++ [run.sending index]) }

def step (run : NodeRun count Hash) : NodeAction count → Option (NodeRun count Hash)
  | .send index turtle => (run.node.step (.call index (Utf8.encode turtle))).map fun node =>
      { run with node, sending := Function.update run.sending index turtle }
  | .attempt index => (run.node.step (.attempt index)).map fun node =>
      if (node.inboxes index).sender = .pushed then { run with node }.accept index
      else { run with node }
  | .signal index => (run.node.step (.signal index)).map fun node => { run with node }
  | .thread => (run.node.step .thread).map fun node =>
      match run.node.fetched with
      | none => { run with node }
      | some (index, data) => { run with node }.take script index (Utf8.lossy data)

end Steps

end NodeRun

namespace NodeState

variable {count : Nat} {state next : NodeState count}

theorem setInbox_ring (index other : Fin count) (inbox : Inbox) :
    ((state.setInbox index inbox).inboxes other).ring =
      if other = index then inbox.ring else (state.inboxes other).ring := by
  by_cases same : other = index
  · subst same
    simp [setInbox]
  · simp [setInbox, same]

theorem setInbox_sender (index other : Fin count) (inbox : Inbox) :
    ((state.setInbox index inbox).inboxes other).sender =
      if other = index then inbox.sender else (state.inboxes other).sender := by
  by_cases same : other = index
  · subst same
    simp [setInbox]
  · simp [setInbox, same]

/-- A step of the thread receives one message or leaves every ring as it is, and disturbs no
producer. -/
theorem stepThread_rings (stepped : state.stepThread = some next) :
    (∀ index, (next.inboxes index).sender = (state.inboxes index).sender) ∧
      ((state.fetched = none ∧
          ∀ index, (next.inboxes index).ring = (state.inboxes index).ring) ∨
        ∃ current data, state.fetched = some (current, data) ∧
          (state.inboxes current).ring.pop.2 = some data ∧
          ∀ index, (next.inboxes index).ring =
            if index = current then (state.inboxes current).ring.pop.1
            else (state.inboxes index).ring) := by
  unfold stepThread at stepped
  unfold fetched
  split at stepped
  · rename_i polling
    rw [polling]
    split at stepped
    · cases stepped
      exact ⟨fun _ => rfl, Or.inl ⟨rfl, fun _ => rfl⟩⟩
    · dsimp only at stepped
      split at stepped <;> cases stepped
      · exact ⟨fun _ => rfl, Or.inl ⟨rfl, fun _ => rfl⟩⟩
      · exact ⟨fun _ => rfl, Or.inl ⟨rfl, fun _ => rfl⟩⟩
  · rename_i revents position scanning
    rw [scanning]
    dsimp only at stepped
    split at stepped
    · rename_i inside
      split at stepped
      · cases stepped
        refine ⟨fun index => ?_, Or.inl ⟨rfl, fun index => ?_⟩⟩
        · change ((state.setInbox _ _).inboxes index).sender = _
          rw [setInbox_sender]
          split
          · rename_i same
            rw [same]
          · rfl
        · change ((state.setInbox _ _).inboxes index).ring = _
          rw [setInbox_ring]
          split
          · rename_i same
            rw [same]
          · rfl
      · cases stepped
        exact ⟨fun _ => rfl, Or.inl ⟨rfl, fun _ => rfl⟩⟩
    · cases stepped
      exact ⟨fun _ => rfl, Or.inl ⟨rfl, fun _ => rfl⟩⟩
  · rename_i revents current draining
    rw [draining]
    dsimp only at stepped
    have senders : ∀ ring index,
        ((state.setInbox current { state.inboxes current with ring }).inboxes index).sender =
          (state.inboxes index).sender := by
      intro ring index
      rw [setInbox_sender]
      split
      · rename_i same
        rw [same]
      · rfl
    split at stepped
    · rename_i ring data popped
      cases stepped
      refine ⟨senders ring, Or.inr ⟨current, data, by simp [popped], by simp [popped], ?_⟩⟩
      intro index
      rw [setInbox_ring, popped]
    · rename_i ring popped
      cases stepped
      obtain ⟨rfl, -⟩ := RingBuffer.pop_none popped
      refine ⟨senders _, Or.inl ⟨by simp [popped], fun index => ?_⟩⟩
      change ((state.setInbox _ _).inboxes index).ring = _
      rw [setInbox_ring]
      split
      · rename_i same
        rw [same]
      · rfl
  · cases stepped

end NodeState

namespace NodeRun

variable {count : Nat} {Hash : Type}

/-- The rings hold what was accepted and not yet received. -/
structure Tracks (run : NodeRun count Hash) (waiting : Fin count → List Text) : Prop where
  rings : ∀ index, ∃ base, (run.node.inboxes index).ring.Represents base
    ((waiting index).map Utf8.encode)
  balance : ∀ index, run.received index ++ waiting index = run.accepted index
  sending : ∀ index data tries, (run.node.inboxes index).sender = .attempting data tries →
    data = Utf8.encode (run.sending index)

/-- No message is so long that its size wraps where it is pushed. -/
def Fits (run : NodeRun count Hash) : NodeAction count → Prop
  | .attempt index => Short (Utf8.encode (run.sending index))
  | _ => True

instance (run : NodeRun count Hash) : ∀ action, Decidable (run.Fits action)
  | .attempt index => inferInstanceAs (Decidable ((Utf8.encode (run.sending index)).length < _))
  | .send _ _ | .signal _ | .thread => isTrue trivial

variable {run next : NodeRun count Hash} {waiting : Fin count → List Text}

theorem start_tracks {os : TargetOs} {pipeSize : Nat} {positive : 0 < pipeSize} {capacity : Nat}
    (divides : capacity ∣ 2 ^ 32) :
    (start os pipeSize positive capacity : NodeRun count Hash).Tracks fun _ => [] where
  rings _ := ⟨0, new_represents divides⟩
  balance _ := rfl
  sending _ _ _ attempting := by cases attempting

theorem Tracks.keep (tracks : run.Tracks waiting) {index : Fin count} {inbox : Inbox} {turtle : Text}
    (ring : inbox.ring = (run.node.inboxes index).ring)
    (sender : ∀ data tries, inbox.sender = .attempting data tries → data = Utf8.encode turtle) :
    Tracks { run with
      node := run.node.setInbox index inbox
      sending := Function.update run.sending index turtle } waiting := by
  refine ⟨?_, tracks.balance, ?_⟩
  · intro other
    rw [NodeState.setInbox_ring]
    split
    · rename_i same
      rw [ring, same]
      exact tracks.rings index
    · exact tracks.rings other
  · intro other data tries attempting
    rw [NodeState.setInbox_sender] at attempting
    dsimp only
    split at attempting
    · rename_i same
      rw [same, Function.update_self]
      exact sender data tries attempting
    · rename_i different
      rw [Function.update_of_ne different]
      exact tracks.sending other data tries attempting

theorem Tracks.retry (tracks : run.Tracks waiting) {index : Fin count} {inbox : Inbox}
    (ring : inbox.ring = (run.node.inboxes index).ring)
    (sender : ∀ data tries, inbox.sender = .attempting data tries →
      data = Utf8.encode (run.sending index)) :
    Tracks { run with node := run.node.setInbox index inbox } waiting := by
  have kept := tracks.keep ring sender
  rwa [Function.update_eq_self] at kept

section Steps

variable [DecidableEq Hash] {script : NodeScript count Hash}

theorem Tracks.send (tracks : run.Tracks waiting) {index : Fin count} {turtle : Text}
    (stepped : step script run (.send index turtle) = some next) : next.Tracks waiting := by
  simp only [step, NodeState.step, Option.map_eq_some_iff] at stepped
  obtain ⟨node, ⟨inbox, called, rfl⟩, rfl⟩ := stepped
  unfold Inbox.call at called
  split at called
  · cases called
    refine tracks.keep rfl ?_
    intro data tries attempting
    cases attempting
    rfl
  · cases called

theorem Tracks.attempt (tracks : run.Tracks waiting) {index : Fin count}
    (fits : Short (Utf8.encode (run.sending index)))
    (stepped : step script run (.attempt index) = some next) :
    ∃ waiting, next.Tracks waiting := by
  simp only [step, NodeState.step, Option.map_eq_some_iff] at stepped
  obtain ⟨node, ⟨inbox, attempted, rfl⟩, rfl⟩ := stepped
  obtain ⟨base, represents⟩ := tracks.rings index
  unfold Inbox.attempt at attempted
  split at attempted
  · rename_i data tries attempting
    obtain rfl := tracks.sending index data tries attempting
    split at attempted
    · rename_i ring pushed
      cases attempted
      have room := (represents.push_result fits).mp (by rw [pushed])
      have placed := represents.push_accept fits room
      rw [pushed] at placed
      rw [if_pos (by simp [NodeState.setInbox])]
      refine ⟨Function.update waiting index (waiting index ++ [run.sending index]), ?_, ?_, ?_⟩
      · intro other
        change ∃ base, ((run.node.setInbox _ _).inboxes other).ring.Represents base _
        rw [NodeState.setInbox_ring]
        by_cases same : other = index
        · subst same
          rw [if_pos rfl, Function.update_self, List.map_append]
          exact ⟨base, placed⟩
        · rw [if_neg same, Function.update_of_ne same]
          exact tracks.rings other
      · intro other
        change run.received other ++ _ = Function.update run.accepted index _ other
        by_cases same : other = index
        · subst same
          rw [Function.update_self, Function.update_self, ← tracks.balance, List.append_assoc]
        · rw [Function.update_of_ne same, Function.update_of_ne same]
          exact tracks.balance other
      · intro other data tries attempting
        change ((run.node.setInbox _ _).inboxes other).sender = _ at attempting
        rw [NodeState.setInbox_sender] at attempting
        split at attempting
        · cases attempting
        · exact tracks.sending other data tries attempting
    · rename_i ring refused
      have same := RingBuffer.push_false refused
      subst same
      have idle : inbox.sender ≠ .pushed := by
        split at attempted <;> cases attempted <;> simp
      have still : inbox.ring = (run.node.inboxes index).ring := by
        split at attempted <;> cases attempted <;> rfl
      have again : ∀ data tries, inbox.sender = .attempting data tries →
          data = Utf8.encode (run.sending index) := by
        intro data tries retried
        split at attempted <;> cases attempted <;> cases retried
        rfl
      rw [if_neg (by simpa [NodeState.setInbox] using idle)]
      exact ⟨waiting, tracks.retry still again⟩
  · cases attempted

theorem Tracks.signal (tracks : run.Tracks waiting) {index : Fin count}
    (stepped : step script run (.signal index) = some next) : next.Tracks waiting := by
  simp only [step, NodeState.step, Option.map_eq_some_iff] at stepped
  obtain ⟨node, ⟨inbox, signalled, rfl⟩, rfl⟩ := stepped
  unfold Inbox.signal at signalled
  split at signalled
  · cases signalled
    refine tracks.retry rfl fun data tries retried => ?_
    cases retried
  · cases signalled

@[simp] theorem take_node (index : Fin count) (turtle : Text) :
    (run.take script index turtle).node = run.node := by
  unfold take
  split <;> rfl

@[simp] theorem take_accepted (index : Fin count) (turtle : Text) :
    (run.take script index turtle).accepted = run.accepted := by
  unfold take
  split <;> rfl

@[simp] theorem take_sending (index : Fin count) (turtle : Text) :
    (run.take script index turtle).sending = run.sending := by
  unfold take
  split <;> rfl

@[simp] theorem take_received (index : Fin count) (turtle : Text) :
    (run.take script index turtle).received =
      Function.update run.received index (run.received index ++ [turtle]) := by
  unfold take
  split <;> rfl

/-- A step of the thread moves at most one message, from what waits in its inbox to the script. -/
theorem Tracks.thread (tracks : run.Tracks waiting) {node : NodeState count}
    (moved : run.node.stepThread = some node) :
    (run.node.fetched = none ∧ step script run .thread = some { run with node } ∧
        Tracks { run with node } waiting) ∨
      ∃ index turtle rest, run.node.fetched = some (index, Utf8.encode turtle) ∧
        waiting index = turtle :: rest ∧
        step script run .thread = some ({ run with node }.take script index turtle) ∧
        Tracks ({ run with node }.take script index turtle)
          (Function.update waiting index rest) := by
  simp only [step, NodeState.step, moved, Option.map_some]
  obtain ⟨senders, ⟨none, rings⟩ | ⟨current, data, fetched, popped, rings⟩⟩ :=
    NodeState.stepThread_rings moved
  · refine Or.inl ⟨none, by rw [none], ?_, tracks.balance, ?_⟩
    · intro index
      dsimp only
      rw [rings]
      exact tracks.rings index
    · intro index data tries attempting
      exact tracks.sending index data tries ((senders index).symm.trans attempting)
  · obtain ⟨base, represents⟩ := tracks.rings current
    cases queued : waiting current with
    | nil =>
        rw [queued] at represents
        rw [represents.pop_empty] at popped
        cases popped
    | cons turtle rest =>
        rw [queued] at represents
        obtain ⟨got, shrunk⟩ := represents.pop_message
        obtain rfl := Option.some.inj (popped.symm.trans got)
        refine Or.inr ⟨current, turtle, rest, fetched, queued, ?_, ?_, ?_, ?_⟩
        · rw [fetched]
          dsimp only
          rw [Utf8.lossy_encode]
        · intro index
          rw [take_node, rings]
          by_cases same : index = current
          · subst same
            rw [if_pos rfl, Function.update_self]
            exact ⟨_, shrunk⟩
          · rw [if_neg same, Function.update_of_ne same]
            exact tracks.rings index
        · intro index
          rw [take_received, take_accepted]
          by_cases same : index = current
          · subst same
            rw [Function.update_self, Function.update_self, ← tracks.balance, queued]
            simp
          · rw [Function.update_of_ne same, Function.update_of_ne same]
            exact tracks.balance index
        · intro index data tries attempting
          rw [take_node] at attempting
          rw [take_sending]
          exact tracks.sending index data tries ((senders index).symm.trans attempting)

end Steps

end NodeRun

section Executions

variable {count : Nat} {Hash : Type} [DecidableEq Hash]

/-- What a VM that has executed nothing but one source makes of its next call. -/
theorem ScriptEngine.exec_only {engine : ScriptEngine Hash} {vm : ScriptVm Hash} {source : Text}
    (again : vm.installedSourceHash = some (engine.hash source) →
      vm.scriptBody = if engine.Installable source then some source else none)
    (fresh : vm.installedSourceHash ≠ some (engine.hash source) → vm.scriptBody = none)
    (input channel : Text) :
    (engine.exec vm ⟨source, input, channel, true⟩).1.scriptBody =
        (if engine.Installable source then some source else none) ∧
      (engine.exec vm ⟨source, input, channel, true⟩).2.toOption =
        if engine.Installable source then
          some ⟨source, (cString input).getD [], (cString channel).getD []⟩
        else none := by
  by_cases key : vm.installedSourceHash = some (engine.hash source)
  · have body := again key
    rw [engine.exec_installed key]
    refine ⟨body, ?_⟩
    unfold ScriptVm.callBody ScriptVm.setGlobals
    dsimp only
    rw [body]
    split <;> rename_i held
    · split at held
      · cases held
      · rename_i blocked
        rw [if_neg blocked]
        rfl
    · split at held
      · rename_i installable
        cases held
        rw [if_pos installable]
        rfl
      · cases held
  · refine ⟨?_, ?_⟩
    · rw [@ScriptEngine.exec_body _ engine _ _ ⟨source, input, channel, true⟩ key]
      split
      · rfl
      · exact fresh key
    · unfold ScriptEngine.exec
      dsimp only
      rw [if_neg (by exact key)]
      by_cases installable : engine.Installable source
      · rw [engine.install_ok installable, if_pos installable]
        rfl
      · obtain ⟨reason, failed⟩ := engine.install_error installable
        rw [failed, if_neg installable]
        rfl

/-- The evaluation that a message asks for: a body that installs runs on the message and the channel,
where a text with a null byte reads as empty. -/
def NodeScript.evaluation (script : NodeScript count Hash) (index : Fin count) (turtle : Text) :
    Option Evaluation :=
  if script.engine.Installable script.body then
    some ⟨script.body, (cString turtle).getD [], (cString (script.channels index)).getD []⟩
  else none

namespace NodeRun

/-- Each inbox's messages were executed in order and once, the empty ones left out, and each
execution ran the node's own body on its message. -/
structure Obeys (script : NodeScript count Hash) (run : NodeRun count Hash) : Prop where
  inputs : ∀ index, (run.executions.filter (·.index = index)).map (·.call.input) =
    (run.received index).filter (· ≠ [])
  own : ∀ execution ∈ run.executions, execution.call.source = script.body ∧
    execution.call.channel = script.channels execution.index
  evaluated : ∀ execution ∈ run.executions,
    execution.evaluation = script.evaluation execution.index execution.call.input ∧
      (execution.evaluation = none → execution.emits = [])
  again : run.vm.installedSourceHash = some (script.engine.hash script.body) →
    run.vm.scriptBody =
      if script.engine.Installable script.body then some script.body else none
  fresh : run.vm.installedSourceHash ≠ some (script.engine.hash script.body) →
    run.vm.scriptBody = none

variable {script : NodeScript count Hash} {run next : NodeRun count Hash}

omit [DecidableEq Hash] in
theorem start_obeys (os : TargetOs) (pipeSize : Nat) (positive : 0 < pipeSize) (capacity : Nat) :
    (start os pipeSize positive capacity).Obeys script where
  inputs _ := rfl
  own _ member := absurd member List.not_mem_nil
  evaluated _ member := absurd member List.not_mem_nil
  again key := by cases key
  fresh _ := rfl

omit [DecidableEq Hash] in
theorem Obeys.frame (obeys : run.Obeys script) (vm : next.vm = run.vm)
    (received : next.received = run.received) (executions : next.executions = run.executions) :
    next.Obeys script := by
  obtain ⟨inputs, own, evaluated, again, fresh⟩ := obeys
  constructor
  · rw [received, executions]
    exact inputs
  · rw [executions]
    exact own
  · rw [executions]
    exact evaluated
  · rw [vm]
    exact again
  · rw [vm]
    exact fresh

theorem Obeys.take (obeys : run.Obeys script) (index : Fin count) (turtle : Text) :
    (run.take script index turtle).Obeys script := by
  have inputs := obeys.inputs
  unfold NodeRun.take
  dsimp only
  split
  · rename_i empty
    have blank : turtle = [] := List.isEmpty_iff.mp empty
    refine { obeys with inputs := ?_ }
    intro other
    dsimp only
    rw [inputs other]
    by_cases same : other = index
    · subst same
      rw [Function.update_self, List.filter_append, blank]
      simp
    · rw [Function.update_of_ne same]
  · rename_i full
    have text : turtle ≠ [] := fun empty => full (List.isEmpty_iff.mpr empty)
    obtain ⟨body, evaluation⟩ := ScriptEngine.exec_only obeys.again obeys.fresh turtle
      (script.channels index)
    refine ⟨?_, ?_, ?_, ?_, ?_⟩
    · intro other
      unfold execute
      dsimp only
      rw [List.filter_append, List.map_append, inputs other]
      by_cases same : other = index
      · subst same
        rw [Function.update_self, List.filter_append]
        simp [text]
      · rw [Function.update_of_ne same]
        simp [Ne.symm same]
    · intro execution member
      rcases List.mem_append.mp member with old | new
      · exact obeys.own execution old
      · rw [List.mem_singleton.mp new]
        exact ⟨rfl, rfl⟩
    · intro execution member
      rcases List.mem_append.mp member with old | new
      · exact obeys.evaluated execution old
      · rw [List.mem_singleton.mp new]
        refine ⟨evaluation, ?_⟩
        dsimp only
        intro none
        split
        · rename_i found
          rw [found] at none
          cases none
        · rfl
    · intro _
      exact body
    · intro different
      exact absurd (script.engine.exec_hash run.vm ⟨script.body, turtle, script.channels index, true⟩)
        different

theorem step_obeys {action : NodeAction count} (obeys : run.Obeys script)
    (stepped : step script run action = some next) : next.Obeys script := by
  cases action with
  | send index turtle =>
      simp only [step, Option.map_eq_some_iff] at stepped
      obtain ⟨node, -, rfl⟩ := stepped
      exact obeys.frame rfl rfl rfl
  | attempt index =>
      simp only [step, Option.map_eq_some_iff] at stepped
      obtain ⟨node, -, rfl⟩ := stepped
      split <;> exact obeys.frame rfl rfl rfl
  | signal index =>
      simp only [step, Option.map_eq_some_iff] at stepped
      obtain ⟨node, -, rfl⟩ := stepped
      exact obeys.frame rfl rfl rfl
  | thread =>
      simp only [step, Option.map_eq_some_iff] at stepped
      obtain ⟨node, -, rfl⟩ := stepped
      have moved : Obeys script { run with node } := obeys.frame rfl rfl rfl
      split
      · exact moved
      · exact moved.take _ _

theorem step_tracks {action : NodeAction count} (tracks : ∃ waiting, run.Tracks waiting)
    (fits : run.Fits action) (stepped : step script run action = some next) :
    ∃ waiting, next.Tracks waiting := by
  obtain ⟨waiting, tracks⟩ := tracks
  cases action with
  | send index turtle => exact ⟨waiting, tracks.send stepped⟩
  | attempt index => exact tracks.attempt fits stepped
  | signal index => exact ⟨waiting, tracks.signal stepped⟩
  | thread =>
      obtain ⟨node, moved, -⟩ := Option.map_eq_some_iff.mp stepped
      rcases @Tracks.thread _ _ _ _ _ script tracks _ moved with
        ⟨-, same, kept⟩ | ⟨index, turtle, rest, -, -, same, kept⟩
      · obtain rfl := Option.some.inj (same.symm.trans stepped)
        exact ⟨waiting, kept⟩
      · obtain rfl := Option.some.inj (same.symm.trans stepped)
        exact ⟨_, kept⟩

theorem step_node {action : NodeAction count} (stepped : step script run action = some next) :
    ∃ move, run.node.step move = some next.node := by
  cases action with
  | send index turtle =>
      simp only [step, Option.map_eq_some_iff] at stepped
      obtain ⟨node, moved, rfl⟩ := stepped
      exact ⟨_, moved⟩
  | attempt index =>
      simp only [step, Option.map_eq_some_iff] at stepped
      obtain ⟨node, moved, rfl⟩ := stepped
      refine ⟨_, moved.trans ?_⟩
      split <;> rfl
  | signal index =>
      simp only [step, Option.map_eq_some_iff] at stepped
      obtain ⟨node, moved, rfl⟩ := stepped
      exact ⟨_, moved⟩
  | thread =>
      simp only [step, Option.map_eq_some_iff] at stepped
      obtain ⟨node, moved, rfl⟩ := stepped
      refine ⟨_, moved.trans ?_⟩
      split
      · rfl
      · rw [take_node]

theorem step_idle {action : NodeAction count} (asleep : run.node.Asleep)
    (stepped : step script run action = some next) : next.executions = run.executions := by
  cases action with
  | send index turtle =>
      simp only [step, Option.map_eq_some_iff] at stepped
      obtain ⟨node, -, rfl⟩ := stepped
      rfl
  | attempt index =>
      simp only [step, Option.map_eq_some_iff] at stepped
      obtain ⟨node, -, rfl⟩ := stepped
      split <;> rfl
  | signal index =>
      simp only [step, Option.map_eq_some_iff] at stepped
      obtain ⟨node, -, rfl⟩ := stepped
      rfl
  | thread =>
      simp only [step, Option.map_eq_some_iff] at stepped
      obtain ⟨node, -, rfl⟩ := stepped
      have nothing : run.node.fetched = none := by
        have polling := asleep.1
        unfold NodeState.isPolling at polling
        unfold NodeState.fetched
        split at polling
        · rename_i here
          rw [here]
        · cases polling
      rw [nothing]

theorem run_obeys {os : TargetOs} {pipeSize : Nat} {positive : 0 < pipeSize} {capacity : Nat}
    {actions : List (NodeAction count)}
    (ran : runSteps (step script) (start os pipeSize positive capacity) actions = some run) :
    run.Obeys script :=
  runSteps_preserves (fun _ _ => True) (Obeys script)
    (fun _ _ _ obeys _ stepped => step_obeys obeys stepped)
    (start_obeys os pipeSize positive capacity) (stepsMeet_of_forall (fun _ _ => trivial) _) ran

theorem run_tracks {os : TargetOs} {pipeSize : Nat} {positive : 0 < pipeSize} {capacity : Nat}
    (divides : capacity ∣ 2 ^ 32) {actions : List (NodeAction count)}
    (fits : StepsMeet (step script) Fits (start os pipeSize positive capacity) actions)
    (ran : runSteps (step script) (start os pipeSize positive capacity) actions = some run) :
    ∃ waiting, run.Tracks waiting :=
  runSteps_preserves Fits (fun run => ∃ waiting, run.Tracks waiting)
    (fun _ _ _ tracks fits stepped => step_tracks tracks fits stepped)
    ⟨_, start_tracks divides⟩ fits ran

/-- However the producers and the node interleave, each inbox's messages are executed in the order
in which they were accepted, each once and on its own channel, and a message that is not executed yet
is still in its ring. Over eventfds, on Linux, none ever is. -/
theorem node_executes_accepted {os : TargetOs} {pipeSize : Nat} {positive : 0 < pipeSize}
    {capacity : Nat} (divides : capacity ∣ 2 ^ 32) {actions : List (NodeAction count)}
    (fits : StepsMeet (step script) Fits (start os pipeSize positive capacity) actions)
    (ran : runSteps (step script) (start os pipeSize positive capacity) actions = some run) :
    (∀ index, ∃ (base : Nat) (waiting : List Text),
      (run.node.inboxes index).ring.Represents base (waiting.map Utf8.encode) ∧
        (run.executions.filter (·.index = index)).map (·.call.input) ++ waiting.filter (· ≠ []) =
          (run.accepted index).filter (· ≠ [])) ∧
      (∀ execution ∈ run.executions, execution.call.source = script.body ∧
        execution.call.channel = script.channels execution.index ∧
        execution.evaluation = script.evaluation execution.index execution.call.input ∧
        (execution.evaluation = none → execution.emits = [])) ∧
      (os = .linux → 0 < count → run.executions = []) := by
  have obeys := run_obeys ran
  obtain ⟨waiting, tracks⟩ := run_tracks divides fits ran
  refine ⟨?_, ?_, ?_⟩
  · intro index
    obtain ⟨base, represents⟩ := tracks.rings index
    refine ⟨base, waiting index, represents, ?_⟩
    rw [obeys.inputs, ← tracks.balance, List.filter_append]
  · intro execution member
    obtain ⟨source, channel⟩ := obeys.own execution member
    exact ⟨source, channel, obeys.evaluated execution member⟩
  · intro linux inhabited
    subst linux
    have idle := runSteps_preserves (fun _ _ => True)
      (fun run : NodeRun count Hash => run.node.Asleep ∧ run.executions = [])
      (fun state action next held _ stepped => by
        obtain ⟨move, moved⟩ := step_node stepped
        exact ⟨NodeState.step_asleep inhabited held.1 moved,
          (step_idle held.1 stepped).trans held.2⟩)
      (show (start .linux pipeSize positive capacity : NodeRun count Hash).node.Asleep ∧ _ from
        ⟨⟨rfl, fun _ => rfl⟩, rfl⟩)
      (stepsMeet_of_forall (fun _ _ => trivial) _) ran
    exact idle.2

/-- A script that emits its input. -/
def echoScript : NodeScript 2 Text where
  engine := ⟨id, fun _ => true⟩
  body := "emit(input)".toList
  channels index := if index = 0 then ['c'] else ['d']
  behaviour _ evaluation := ⟨true, [evaluation.input]⟩

/-- Two messages and an empty one come in while the node is at work. -/
def busyInbox : List (NodeAction 2) :=
  [.send 1 ['x'], .attempt 1, .signal 1, .thread, .send 0 ['y'], .attempt 0, .thread, .thread,
    .send 1 [], .attempt 1, .signal 0, .thread, .thread]

theorem node_executes_accepted_busy :
    ∃ run, runSteps (step echoScript) (start .other 1 (by decide) 64) busyInbox = some run ∧
      run.executions.map NodeExecution.emits = [[['x']]] ∧ run.accepted 0 = [['y']] ∧
      ∃ (base : Nat) (waiting : List Text),
        (run.node.inboxes 0).ring.Represents base (waiting.map Utf8.encode) ∧
          (run.executions.filter (·.index = 0)).map (·.call.input) ++ waiting.filter (· ≠ []) =
            (run.accepted 0).filter (· ≠ []) := by
  have facts : StepsMeet (step echoScript) Fits (start .other 1 (by decide) 64) busyInbox ∧
      (runSteps (step echoScript) (start .other 1 (by decide) 64) busyInbox).map
          (fun run => (run.executions.map NodeExecution.emits, run.accepted 0)) =
        some ([[['x']]], [['y']]) := by decide +kernel
  obtain ⟨fits, outcome⟩ := facts
  obtain ⟨run, ran, seen⟩ := Option.map_eq_some_iff.mp outcome
  obtain ⟨emits, accepted⟩ := Prod.mk.inj seen
  have divides : 64 ∣ 2 ^ 32 := by decide
  exact ⟨run, ran, emits, accepted, (node_executes_accepted divides fits ran).1 0⟩

end NodeRun

end Executions

end LeanAntenna
