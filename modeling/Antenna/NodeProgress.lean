import Antenna.NodeThread

/-! A script node that is left alone executes everything that its inboxes have accepted. -/

namespace LeanAntenna

open Text Transition RingBuffer

namespace NodeState

variable {count : Nat} {state next : NodeState count}

/-- The thread leaves its loop only where it has no inbox. -/
theorem step_running {action : Action count} (inhabited : 0 < count)
    (running : state.thread ≠ .stopped) (stepped : state.step action = some next) :
    next.thread ≠ .stopped := by
  cases action with
  | call index data =>
      simp only [step, Option.map_eq_some_iff] at stepped
      obtain ⟨inbox, -, rfl⟩ := stepped
      exact running
  | attempt index =>
      simp only [step, Option.map_eq_some_iff] at stepped
      obtain ⟨inbox, -, rfl⟩ := stepped
      exact running
  | signal index =>
      simp only [step, Option.map_eq_some_iff] at stepped
      obtain ⟨inbox, -, rfl⟩ := stepped
      exact running
  | thread =>
      change state.stepThread = some next at stepped
      unfold stepThread at stepped
      split at stepped
      · rename_i polling
        rw [if_neg (by omega)] at stepped
        dsimp only at stepped
        split at stepped <;> cases stepped
        · simp
        · exact running
      · dsimp only at stepped
        split at stepped
        · split at stepped <;> cases stepped <;> simp
        · cases stepped
          simp
      · rename_i draining
        dsimp only at stepped
        split at stepped <;> cases stepped
        · exact running
        · simp
      · cases stepped

end NodeState

namespace NodeRun

variable {count : Nat} {Hash : Type} [DecidableEq Hash] {script : NodeScript count Hash}
  {run middle next : NodeRun count Hash} {waiting : Fin count → List Text}
  {revents : Fin count → Bool}

/-- No producer is between its push and its signal, and no message waits without a wake-up. -/
structure Alone (run : NodeRun count Hash) (waiting : Fin count → List Text) : Prop where
  tracks : run.Tracks waiting
  awake : run.node.AllAwake
  quiet : ∀ index, (run.node.inboxes index).sender ≠ .pushed

/-- The thread alone gets from one state to another. -/
def Follows (script : NodeScript count Hash) (run next : NodeRun count Hash) : Prop :=
  (∃ steps, runSteps (step script) run (List.replicate steps .thread) = some next) ∧
    next.accepted = run.accepted

theorem Follows.refl (run : NodeRun count Hash) : Follows script run run := ⟨⟨0, rfl⟩, rfl⟩

theorem Follows.trans (first : Follows script run middle) (second : Follows script middle next) :
    Follows script run next := by
  obtain ⟨⟨front, ranFront⟩, same⟩ := first
  obtain ⟨⟨back, ranBack⟩, again⟩ := second
  refine ⟨⟨front + back, ?_⟩, again.trans same⟩
  rw [List.replicate_add]
  exact runSteps_append ranFront ranBack

theorem Follows.single (stepped : step script run .thread = some next)
    (same : next.accepted = run.accepted) : Follows script run next :=
  ⟨⟨1, runSteps_cons.mpr ⟨next, stepped, rfl⟩⟩, same⟩

variable (script)

theorem Alone.pass (alone : run.Alone waiting) {node : NodeState count}
    (moved : run.node.stepThread = some node) (nothing : run.node.fetched = none) :
    ∃ next, Follows script run next ∧ next.node = node ∧ next.Alone waiting := by
  have senders := (NodeState.stepThread_rings moved).1
  rcases @Tracks.thread _ _ _ _ _ script alone.tracks _ moved with
    ⟨-, stepped, tracks⟩ | ⟨_, _, _, fetched, -⟩
  · refine ⟨_, Follows.single stepped rfl, rfl, tracks, ?_, ?_⟩
    · exact NodeState.stepThread_allAwake alone.awake moved
    · intro index pushed
      exact alone.quiet index ((senders index).symm.trans pushed)
  · rw [nothing] at fetched
    cases fetched

theorem Alone.fetch (alone : run.Alone waiting) {node : NodeState count}
    (moved : run.node.stepThread = some node) {index : Fin count} {data : List UInt8}
    (fetched : run.node.fetched = some (index, data)) :
    ∃ next turtle rest, Follows script run next ∧ next.node = node ∧
      waiting index = turtle :: rest ∧ next.Alone (Function.update waiting index rest) := by
  have senders := (NodeState.stepThread_rings moved).1
  rcases @Tracks.thread _ _ _ _ _ script alone.tracks _ moved with
    ⟨nothing, -⟩ | ⟨other, turtle, rest, found, queued, stepped, tracks⟩
  · rw [nothing] at fetched
    cases fetched
  · obtain ⟨rfl, rfl⟩ := Prod.mk.inj (Option.some.inj (found.symm.trans fetched))
    refine ⟨_, turtle, rest, Follows.single stepped (by simp), take_node _ _, queued, tracks, ?_, ?_⟩
    · rw [take_node]
      exact NodeState.stepThread_allAwake alone.awake moved
    · intro index pushed
      rw [take_node] at pushed
      exact alone.quiet index ((senders index).symm.trans pushed)

theorem Alone.drain {current : Fin count} (alone : run.Alone waiting)
    (draining : run.node.thread = .draining revents current) :
    ∃ next, Follows script run next ∧ next.node.thread = .scanning revents (current.val + 1) ∧
      next.Alone (Function.update waiting current []) := by
  generalize queued : waiting current = queue
  induction queue generalizing run waiting with
  | nil =>
      obtain ⟨base, represents⟩ := alone.tracks.rings current
      rw [queued] at represents
      have popped := represents.pop_empty
      have nothing : run.node.fetched = none := by simp [NodeState.fetched, draining, popped]
      have moved : ∃ node, run.node.stepThread = some node ∧
          node.thread = .scanning revents (current.val + 1) := by
        simp only [NodeState.stepThread, draining, popped]
        exact ⟨_, rfl, rfl⟩
      obtain ⟨node, moved, scanning⟩ := moved
      obtain ⟨next, follows, rfl, later⟩ := alone.pass script moved nothing
      refine ⟨next, follows, scanning, ?_⟩
      rw [← queued, Function.update_eq_self]
      exact later
  | cons turtle rest ih =>
      obtain ⟨base, represents⟩ := alone.tracks.rings current
      rw [queued] at represents
      have got := represents.pop_message.1
      have popped : (run.node.inboxes current).ring.pop =
          ((run.node.inboxes current).ring.pop.1, some (Utf8.encode turtle)) := Prod.ext rfl got
      have fetched : run.node.fetched = some (current, Utf8.encode turtle) := by
        simp [NodeState.fetched, draining, got]
      have moved : ∃ node, run.node.stepThread = some node ∧
          node.thread = .draining revents current := by
        simp only [NodeState.stepThread, draining]
        rw [popped]
        exact ⟨_, rfl, draining⟩
      obtain ⟨node, moved, still⟩ := moved
      obtain ⟨middle, first, left, follows, rfl, listed, later⟩ := alone.fetch script moved fetched
      obtain ⟨rfl, rfl⟩ := List.cons.inj (queued.symm.trans listed)
      obtain ⟨next, onward, scanning, done⟩ := ih later still (Function.update_self _ _ _)
      refine ⟨next, follows.trans onward, scanning, ?_⟩
      rwa [Function.update_idem] at done

/-- The rest of a scan empties the inboxes that the poll reported. -/
theorem Alone.scan {position : Nat} (alone : run.Alone waiting)
    (scanning : run.node.thread = .scanning revents position) :
    ∃ next, Follows script run next ∧ next.node.thread = .polling ∧
      next.Alone fun index =>
        if revents index = true ∧ position ≤ index.val then [] else waiting index := by
  generalize distance : count - position = left
  induction left generalizing run waiting position with
  | zero =>
      have past : ¬ position < count := by omega
      have nothing : run.node.fetched = none := by simp [NodeState.fetched, scanning]
      have moved : run.node.stepThread = some { run.node with thread := .polling } := by
        simp [NodeState.stepThread, scanning, past]
      obtain ⟨next, follows, same, later⟩ := alone.pass script moved nothing
      refine ⟨next, follows, by rw [same], ?_⟩
      have untouched : (fun index : Fin count =>
          if revents index = true ∧ position ≤ index.val then [] else waiting index) = waiting := by
        funext index
        exact if_neg fun inside => past (Nat.lt_of_le_of_lt inside.2 index.isLt)
      rw [untouched]
      exact later
  | succ left ih =>
      have inside : position < count := by omega
      have nothing : run.node.fetched = none := by simp [NodeState.fetched, scanning]
      by_cases reported : revents ⟨position, inside⟩ = true
      · have moved : ∃ node, run.node.stepThread = some node ∧
            node.thread = .draining revents ⟨position, inside⟩ := by
          simp only [NodeState.stepThread, scanning, dif_pos inside, if_pos reported]
          exact ⟨_, rfl, rfl⟩
        obtain ⟨node, moved, draining⟩ := moved
        obtain ⟨middle, follows, rfl, later⟩ := alone.pass script moved nothing
        obtain ⟨drained, onward, scanningOn, emptied⟩ := later.drain script draining
        obtain ⟨next, further, polling, done⟩ := ih emptied scanningOn (by dsimp only; omega)
        refine ⟨next, (follows.trans onward).trans further, polling, ?_⟩
        convert done using 2 with index
        by_cases here : index = ⟨position, inside⟩
        · subst here
          rw [Function.update_self, if_pos ⟨reported, Nat.le_refl _⟩, ite_self]
        · have apart : index.val ≠ position := fun same => here (Fin.ext same)
          have bounds : position ≤ index.val ↔ position + 1 ≤ index.val := by omega
          rw [Function.update_of_ne here]
          simp only [bounds]
      · have moved : run.node.stepThread =
            some { run.node with thread := .scanning revents (position + 1) } := by
          simp only [NodeState.stepThread, scanning, dif_pos inside, if_neg reported]
        obtain ⟨middle, follows, same, later⟩ := alone.pass script moved nothing
        obtain ⟨next, further, polling, done⟩ := ih later (by rw [same]) (by omega)
        refine ⟨next, follows.trans further, polling, ?_⟩
        convert done using 2 with index
        have bounds : (revents index = true ∧ position ≤ index.val) ↔
            (revents index = true ∧ position + 1 ≤ index.val) := by
          refine and_congr_right fun set => ?_
          have apart : index.val ≠ position := by
            intro here
            apply reported
            rw [← set]
            congr
            exact here.symm
          omega
        simp only [bounds]

/-- From its poll the thread empties all its inboxes. -/
theorem Alone.round (alone : run.Alone waiting) (inhabited : 0 < count)
    (polling : run.node.thread = .polling) :
    ∃ next, Follows script run next ∧ next.Alone fun _ => [] := by
  have unread : ∀ index, (run.node.inboxes index).clock.readable = false → waiting index = [] := by
    intro index dark
    obtain ⟨base, represents⟩ := alone.tracks.rings index
    by_cases empty : (run.node.inboxes index).ring.tail = (run.node.inboxes index).ring.head
    · exact List.map_eq_nil_iff.mp (represents.empty_iff.mp empty)
    · have lit := alone.awake.noLostWakeup (by simp [NodeState.isPolling, polling]) index
        (alone.quiet index) empty
      rw [dark] at lit
      cases lit
  have nothing : run.node.fetched = none := by simp [NodeState.fetched, polling]
  by_cases ready : ∃ index, (run.node.inboxes index).clock.readable = true
  · have moved : run.node.stepThread = some { run.node with
        thread := .scanning (fun index => (run.node.inboxes index).clock.readable) 0 } := by
      simp only [NodeState.stepThread, polling]
      rw [if_neg (by omega), if_pos ready]
    obtain ⟨middle, follows, same, later⟩ := alone.pass script moved nothing
    obtain ⟨next, onward, -, done⟩ := later.scan script (by rw [same])
    refine ⟨next, follows.trans onward, ?_⟩
    convert done using 2 with index
    split
    · rfl
    · rename_i dark
      rw [unread index (by simpa using dark)]
  · have empty : waiting = fun _ => [] := by
      funext index
      apply unread
      simpa using fun lit => ready ⟨index, lit⟩
    exact ⟨run, Follows.refl run, empty ▸ alone⟩

theorem Alone.poll (alone : run.Alone waiting) (running : run.node.thread ≠ .stopped) :
    ∃ next waiting, Follows script run next ∧ next.node.thread = .polling ∧ next.Alone waiting := by
  cases here : run.node.thread with
  | polling => exact ⟨run, waiting, Follows.refl run, here, alone⟩
  | scanning revents position =>
      obtain ⟨next, follows, polling, later⟩ := alone.scan script here
      exact ⟨next, _, follows, polling, later⟩
  | draining revents current =>
      obtain ⟨middle, follows, scanning, emptied⟩ := alone.drain script here
      obtain ⟨next, onward, polling, later⟩ := emptied.scan script scanning
      exact ⟨next, _, follows.trans onward, polling, later⟩
  | stopped => exact absurd here running

variable {script}

/-- Over pipes every inbox is awake and the thread stays in its loop. -/
theorem run_awake {pipeSize : Nat} {positive : 0 < pipeSize} {capacity : Nat}
    {actions : List (NodeAction count)} (inhabited : 0 < count)
    (ran : runSteps (step script) (start .other pipeSize positive capacity) actions = some run) :
    run.node.AllAwake ∧ run.node.thread ≠ .stopped := by
  have kept := runSteps_preserves (fun _ _ => True)
    (fun run : NodeRun count Hash => run.node.AllAwake ∧ run.node.thread ≠ .stopped ∧
      ∀ index, (run.node.inboxes index).clock.isEventfd = false)
    (fun state action next held _ stepped => by
      obtain ⟨awake, running, pipes⟩ := held
      obtain ⟨move, moved⟩ := step_node stepped
      exact ⟨NodeState.step_allAwake awake (fun index _ => pipes index) moved,
        NodeState.step_running inhabited running moved,
        fun index => (NodeState.step_isEventfd moved index).trans (pipes index)⟩)
    (show (start .other pipeSize positive capacity : NodeRun count Hash).node.AllAwake ∧ _ from
      ⟨NodeState.start_allAwake .other pipeSize positive capacity, nofun, fun _ => rfl⟩)
    (stepsMeet_of_forall (fun _ _ => trivial) _) ran
  exact ⟨kept.1, kept.2.1⟩

/-- Over pipes, from every state that can be reached: once no producer is between its push and its
signal, the thread left alone executes everything that was accepted, in order. -/
theorem node_catches_up {pipeSize : Nat} {positive : 0 < pipeSize} {capacity : Nat}
    (divides : capacity ∣ 2 ^ 32) {actions : List (NodeAction count)}
    (fits : StepsMeet (step script) Fits (start .other pipeSize positive capacity) actions)
    (ran : runSteps (step script) (start .other pipeSize positive capacity) actions = some run)
    (quiet : ∀ index, (run.node.inboxes index).sender ≠ .pushed) :
    ∃ steps final, runSteps (step script) run (List.replicate steps .thread) = some final ∧
      final.accepted = run.accepted ∧
      ∀ index, (final.executions.filter (·.index = index)).map (·.call.input) =
        (run.accepted index).filter (· ≠ []) := by
  rcases Nat.eq_zero_or_pos count with none | inhabited
  · subst none
    exact ⟨0, run, rfl, rfl, fun index => index.elim0⟩
  · obtain ⟨waiting, tracks⟩ := run_tracks divides fits ran
    obtain ⟨awake, running⟩ := run_awake inhabited ran
    have alone : run.Alone waiting := ⟨tracks, awake, quiet⟩
    obtain ⟨middle, _, first, polling, later⟩ := alone.poll script running
    obtain ⟨final, second, emptied⟩ := later.round script inhabited polling
    obtain ⟨⟨steps, onward⟩, same⟩ := first.trans second
    refine ⟨steps, final, onward, same, ?_⟩
    intro index
    have obeys := run_obeys (runSteps_append ran onward)
    have balance := emptied.tracks.balance index
    rw [List.append_nil] at balance
    rw [obeys.inputs, balance, same]

/-- Left alone after `busyInbox`, the node executes the message it had not seen. -/
theorem node_catches_up_busy :
    ∃ run, runSteps (step echoScript) (start .other 1 (by decide) 64) (busyInbox ++ [.signal 1]) =
        some run ∧ run.executions.length = 1 ∧
      ∃ steps final, runSteps (step echoScript) run (List.replicate steps .thread) = some final ∧
        final.accepted = run.accepted ∧
        ∀ index, (final.executions.filter (·.index = index)).map (·.call.input) =
          (run.accepted index).filter (· ≠ []) := by
  have facts : StepsMeet (step echoScript) Fits (start .other 1 (by decide) 64)
        (busyInbox ++ [.signal 1]) ∧
      (runSteps (step echoScript) (start .other 1 (by decide) 64) (busyInbox ++ [.signal 1])).map
          (fun run => (run.executions.length,
            decide (∀ index, (run.node.inboxes index).sender ≠ .pushed))) =
        some (1, true) := by decide +kernel
  obtain ⟨fits, outcome⟩ := facts
  obtain ⟨run, ran, seen⟩ := Option.map_eq_some_iff.mp outcome
  obtain ⟨executed, quiet⟩ := Prod.mk.inj seen
  have divides : 64 ∣ 2 ^ 32 := by decide
  exact ⟨run, ran, executed, node_catches_up divides fits ran (of_decide_eq_true quiet)⟩

end NodeRun

end LeanAntenna
