import Mathlib.Data.Fintype.Basic
import Antenna.RingMemory
import Antenna.ClockCore

/-!
A message is never left in an inbox while its node sleeps, as long as every signal goes to a clock
that can take it. The one-byte write of `Clock::signal` is one an eventfd refuses.
-/

namespace LeanAntenna

open Transition

namespace Clock

theorem signal_readable {clock : Clock} (notEventfd : clock.isEventfd = false) :
    clock.signal.readable = true := by
  cases clock with
  | eventfd counter => simp [isEventfd] at notEventfd
  | selfPipe pipe =>
      have positive := pipe.positive
      simp only [signal, write, readable, Pipe.write, List.length_singleton, decide_eq_true_eq]
      split
      · simp
      · -- A full pipe refuses the byte, and is readable for that.
        omega

theorem signal_eventfd (counter : Nat) : (Clock.eventfd counter).signal = .eventfd counter := by
  simp [signal, write]

theorem write_isEventfd (clock : Clock) (buf : List UInt8) :
    (clock.write buf).isEventfd = clock.isEventfd := by
  cases clock with
  | eventfd counter => simp only [write]; split <;> rfl
  | selfPipe pipe => rfl

theorem read_isEventfd (clock : Clock) (size : Nat) :
    (clock.read size).isEventfd = clock.isEventfd := by
  cases clock with
  | eventfd counter => simp only [read]; split <;> rfl
  | selfPipe pipe => rfl

end Clock

theorem RingBuffer.push_false {ring next : RingBuffer} {data : List UInt8}
    (refused : ring.push data = (next, false)) : next = ring := by
  simp only [push] at refused
  split at refused <;> simp_all

theorem RingBuffer.pop_none {ring next : RingBuffer} (empty : ring.pop = (next, none)) :
    next = ring ∧ ring.tail = ring.head := by
  simp only [pop] at empty
  split at empty
  · rename_i same
    simp only [Prod.mk.injEq, and_true] at empty
    exact ⟨empty.symm, same⟩
  · simp at empty

namespace NodeState

variable {count : Nat}

/-- An inbox that its node is not draining wakes the node: an unread message has a readable clock
or a signal still to come. -/
def Awake (thread : NodePc count) (index : Fin count) (inbox : Inbox) : Prop :=
  (∀ revents, thread ≠ .draining revents index) → inbox.sender ≠ .pushed → inbox.Unread →
    inbox.clock.readable = true

def AllAwake (state : NodeState count) : Prop :=
  ∀ index, Awake state.thread index (state.inboxes index)

theorem AllAwake.noLostWakeup {state : NodeState count} (awake : state.AllAwake) :
    state.NoLostWakeup := by
  intro polling index notPushed unread
  refine awake index (fun revents draining => ?_) notPushed unread
  simp [isPolling, draining] at polling

theorem AllAwake.setInbox {state : NodeState count} (awake : state.AllAwake) {index : Fin count}
    {inbox : Inbox} (inboxAwake : Awake state.thread index inbox) :
    (state.setInbox index inbox).AllAwake := by
  intro other
  by_cases same : other = index
  · subst other
    simpa [NodeState.setInbox] using inboxAwake
  · simpa [NodeState.setInbox, Function.update_of_ne same] using awake other

theorem start_allAwake (os : TargetOs) (pipeSize : Nat) (positive : 0 < pipeSize) (capacity : Nat) :
    (start os pipeSize positive capacity : NodeState count).AllAwake := by
  intro index _ _ unread
  exact absurd rfl unread

/-- A step signals only a clock that takes the one-byte write. -/
def SignalTaken (state : NodeState count) (action : Action count) : Prop :=
  ∀ index, action = .signal index → (state.inboxes index).clock.isEventfd = false

theorem stepThread_allAwake {state next : NodeState count} (awake : state.AllAwake)
    (stepped : state.stepThread = some next) : next.AllAwake := by
  unfold stepThread at stepped
  split at stepped
  · rename_i polling
    have notDraining : ∀ index revents, state.thread ≠ .draining revents index := by
      simp [polling]
    split at stepped
    · cases stepped
      exact fun index _ => awake index (notDraining index)
    · dsimp only at stepped
      split at stepped <;> cases stepped
      · exact fun index _ => awake index (notDraining index)
      · exact awake
  · rename_i revents next' scanning
    have notDraining : ∀ index revents, state.thread ≠ .draining revents index := by
      simp [scanning]
    dsimp only at stepped
    split at stepped
    · rename_i inside
      split at stepped
      · cases stepped
        intro other
        by_cases same : other = ⟨next', inside⟩
        · intro notDrainingHere
          exact absurd (by rw [same]) (notDrainingHere revents)
        · intro _
          simpa [NodeState.setInbox, Function.update_of_ne same] using
            awake other (notDraining other)
      · cases stepped
        exact fun index _ => awake index (notDraining index)
    · cases stepped
      exact fun index _ => awake index (notDraining index)
  · rename_i revents current draining
    dsimp only at stepped
    split at stepped
    · rename_i ring data popped
      cases stepped
      refine awake.setInbox fun notDraining => ?_
      exact absurd draining (notDraining revents)
    · rename_i ring popped
      cases stepped
      obtain ⟨rfl, empty⟩ := RingBuffer.pop_none popped
      intro other
      by_cases same : other = current
      · -- The receive that found nothing saw `tail = head`: what comes later is signalled later.
        subst other
        intro _ _ unread
        simp only [NodeState.setInbox, Function.update_self] at unread
        exact absurd empty unread
      · intro _
        have notDraining : ∀ revents, state.thread ≠ .draining revents other := by
          simp [draining, Ne.symm same]
        simpa [NodeState.setInbox, Function.update_of_ne same] using awake other notDraining
  · cases stepped

theorem step_allAwake {state next : NodeState count} {action : Action count}
    (awake : state.AllAwake) (taken : state.SignalTaken action)
    (stepped : state.step action = some next) : next.AllAwake := by
  cases action with
  | call index data =>
      simp only [step, Option.map_eq_some_iff] at stepped
      obtain ⟨inbox, called, rfl⟩ := stepped
      refine awake.setInbox ?_
      unfold Inbox.call at called
      split at called
      · rename_i idle
        cases called
        exact fun notDraining _ unread => awake index notDraining (by simp [idle]) unread
      · cases called
  | attempt index =>
      simp only [step, Option.map_eq_some_iff] at stepped
      obtain ⟨inbox, attempted, rfl⟩ := stepped
      refine awake.setInbox ?_
      unfold Inbox.attempt at attempted
      split at attempted
      · rename_i data tries attempting
        split at attempted
        · cases attempted
          exact fun _ notPushed => absurd rfl notPushed
        · rename_i ring refused
          have same := RingBuffer.push_false refused
          subst same
          split at attempted <;> cases attempted
          all_goals
            intro notDraining _ unread
            exact awake index notDraining (by simp [attempting]) unread
      · cases attempted
  | signal index =>
      simp only [step, Option.map_eq_some_iff] at stepped
      obtain ⟨inbox, signalled, rfl⟩ := stepped
      refine awake.setInbox ?_
      unfold Inbox.signal at signalled
      split at signalled
      · cases signalled
        exact fun _ _ _ => Clock.signal_readable (taken index rfl)
      · cases signalled
  | thread => exact stepThread_allAwake awake stepped

theorem run_allAwake {os : TargetOs} {pipeSize : Nat} {positive : 0 < pipeSize} {capacity : Nat}
    {actions : List (Action count)} {state : NodeState count}
    (taken : StepsMeet step SignalTaken (start os pipeSize positive capacity) actions)
    (ran : runSteps step (start os pipeSize positive capacity) actions = some state) :
    state.AllAwake :=
  runSteps_preserves SignalTaken AllAwake (fun _ _ _ awake taken stepped => step_allAwake awake taken stepped)
    (start_allAwake os pipeSize positive capacity) taken ran

/-- In a run whose signals all reach a clock that takes them, no wake-up is lost: this covers
every run over pipes, and the runs over eventfds up to their first signal. -/
theorem no_lost_wakeup {os : TargetOs} {pipeSize : Nat} {positive : 0 < pipeSize} {capacity : Nat}
    {actions : List (Action count)} {state : NodeState count}
    (taken : StepsMeet step SignalTaken (start os pipeSize positive capacity) actions)
    (ran : runSteps step (start os pipeSize positive capacity) actions = some state) :
    state.NoLostWakeup :=
  (run_allAwake taken ran).noLostWakeup

theorem setInbox_isEventfd {state : NodeState count} {index : Fin count} {inbox : Inbox}
    (same : inbox.clock.isEventfd = (state.inboxes index).clock.isEventfd) (other : Fin count) :
    ((state.setInbox index inbox).inboxes other).clock.isEventfd =
      (state.inboxes other).clock.isEventfd := by
  by_cases here : other = index
  · subst other
    simpa [setInbox] using same
  · simp [setInbox, Function.update_of_ne here]

/-- No step changes the kind of kernel object behind a channel. -/
theorem step_isEventfd {state next : NodeState count} {action : Action count}
    (stepped : state.step action = some next) (index : Fin count) :
    (next.inboxes index).clock.isEventfd = (state.inboxes index).clock.isEventfd := by
  cases action with
  | call sender data =>
      simp only [step, Option.map_eq_some_iff] at stepped
      obtain ⟨inbox, called, rfl⟩ := stepped
      unfold Inbox.call at called
      split at called <;> cases called
      exact setInbox_isEventfd (by rfl) index
  | attempt sender =>
      simp only [step, Option.map_eq_some_iff] at stepped
      obtain ⟨inbox, attempted, rfl⟩ := stepped
      refine setInbox_isEventfd ?_ index
      unfold Inbox.attempt at attempted
      split at attempted
      · split at attempted
        · cases attempted
          rfl
        · split at attempted <;> cases attempted <;> rfl
      · cases attempted
  | signal sender =>
      simp only [step, Option.map_eq_some_iff] at stepped
      obtain ⟨inbox, signalled, rfl⟩ := stepped
      unfold Inbox.signal at signalled
      split at signalled <;> cases signalled
      exact setInbox_isEventfd (Clock.write_isEventfd _ _) index
  | thread =>
      change state.stepThread = some next at stepped
      unfold stepThread at stepped
      split at stepped
      · split at stepped
        · cases stepped
          rfl
        · dsimp only at stepped
          split at stepped <;> cases stepped <;> rfl
      · dsimp only at stepped
        split at stepped
        · split at stepped <;> cases stepped
          · exact setInbox_isEventfd (Clock.read_isEventfd _ _) index
          · rfl
        · cases stepped
          rfl
      · dsimp only at stepped
        split at stepped <;> cases stepped
        all_goals exact setInbox_isEventfd (by rfl) index
      · cases stepped

theorem stepsMeet_signalTaken (pipeSize : Nat) (positive : 0 < pipeSize) (capacity : Nat)
    (actions : List (Action count)) :
    StepsMeet step SignalTaken (start .other pipeSize positive capacity) actions :=
  stepsMeet_of_invariant
    (fun state => ∀ index, (state.inboxes index).clock.isEventfd = false)
    (fun _ _ _ pipes stepped index => (step_isEventfd stepped index).trans (pipes index))
    (fun _ _ pipes index _ => pipes index) actions _ (fun _ => rfl)

/-- Over pipes, which is every target but Linux, no run loses a wake-up. -/
theorem pipe_noLostWakeup {pipeSize : Nat} {positive : 0 < pipeSize} {capacity : Nat}
    {actions : List (Action count)} {state : NodeState count}
    (ran : runSteps step (start .other pipeSize positive capacity) actions = some state) :
    state.NoLostWakeup :=
  (run_allAwake (stepsMeet_signalTaken pipeSize positive capacity actions) ran).noLostWakeup

/-- What a Linux run can reach: no clock was ever signalled, and the node never left its poll. -/
def Asleep (state : NodeState count) : Prop :=
  state.isPolling = true ∧ ∀ index, (state.inboxes index).clock = .eventfd 0

theorem step_asleep {state next : NodeState count} {action : Action count} (inhabited : 0 < count)
    (asleep : state.Asleep) (stepped : state.step action = some next) : next.Asleep := by
  obtain ⟨polling, clocks⟩ := asleep
  have keep : ∀ index inbox, inbox.clock = .eventfd 0 →
      (state.setInbox index inbox).Asleep := by
    intro index inbox clock
    refine ⟨polling, fun other => ?_⟩
    by_cases here : other = index
    · subst other
      simpa [setInbox] using clock
    · simpa [setInbox, Function.update_of_ne here] using clocks other
  cases action with
  | call index data =>
      simp only [step, Option.map_eq_some_iff] at stepped
      obtain ⟨inbox, called, rfl⟩ := stepped
      unfold Inbox.call at called
      split at called <;> cases called
      exact keep index _ (clocks index)
  | attempt index =>
      simp only [step, Option.map_eq_some_iff] at stepped
      obtain ⟨inbox, attempted, rfl⟩ := stepped
      refine keep index _ ?_
      unfold Inbox.attempt at attempted
      split at attempted
      · split at attempted
        · cases attempted
          exact clocks index
        · split at attempted <;> cases attempted <;> exact clocks index
      · cases attempted
  | signal index =>
      simp only [step, Option.map_eq_some_iff] at stepped
      obtain ⟨inbox, signalled, rfl⟩ := stepped
      unfold Inbox.signal at signalled
      split at signalled <;> cases signalled
      exact keep index _ (by rw [clocks index, Clock.signal_eventfd])
  | thread =>
      change state.stepThread = some next at stepped
      unfold stepThread at stepped
      unfold isPolling at polling
      split at polling
      · rename_i atPoll
        have notEmpty : count ≠ 0 := by omega
        have quiet : ¬∃ index, (state.inboxes index).clock.readable = true := by
          simp [clocks, Clock.readable]
        simp only [atPoll, notEmpty, if_false, quiet, Option.some.injEq] at stepped
        subst next
        exact ⟨by simp [isPolling, atPoll], clocks⟩
      · cases polling

/-- On Linux every message whose push returned true stays unread, and once its signal has been
attempted the node sleeps on it. -/
theorem linux_noLostWakeup_iff {pipeSize : Nat} {positive : 0 < pipeSize} {capacity : Nat}
    {actions : List (Action count)} {state : NodeState count} (inhabited : 0 < count)
    (ran : runSteps step (start .linux pipeSize positive capacity) actions = some state) :
    state.NoLostWakeup ↔
      ∀ index, (state.inboxes index).sender ≠ .pushed → ¬(state.inboxes index).Unread := by
  have asleep : state.Asleep := runSteps_preserves (fun _ _ => True) Asleep
    (fun _ _ _ asleep _ stepped => step_asleep inhabited asleep stepped)
    (show (start .linux pipeSize positive capacity).Asleep from ⟨rfl, fun _ => rfl⟩)
    (stepsMeet_of_forall (fun _ _ => trivial) _) ran
  simp [NoLostWakeup, asleep.1, asleep.2, Clock.readable]

/-- One message sent to a node with one inbox. -/
def oneSend : List (Action 1) := [.call 0 [104, 105], .attempt 0, .signal 0]

theorem no_lost_wakeup_oneSend :
    ∃ state, runSteps step (start .other 1 (by decide) 64) oneSend = some state ∧
      (state.inboxes 0).Unread ∧ state.NoLostWakeup := by
  have ran : runSteps step (start .other 1 (by decide) 64) oneSend =
      some ((runSteps step (start .other 1 (by decide) 64) oneSend).get (by decide)) := by simp
  exact ⟨_, ran, by decide, no_lost_wakeup (stepsMeet_signalTaken 1 (by decide) 64 oneSend) ran⟩

/-- On Linux the node stays at its poll with an unread message in its inbox. -/
theorem lost_wakeup_eventfd :
    ∃ state, runSteps step (start .linux 1 (by decide) 64) oneSend = some state ∧
      ¬state.NoLostWakeup := by
  have ran : runSteps step (start .linux 1 (by decide) 64) oneSend =
      some ((runSteps step (start .linux 1 (by decide) 64) oneSend).get (by decide)) := by simp
  exact ⟨_, ran, by decide⟩

end NodeState

end LeanAntenna
