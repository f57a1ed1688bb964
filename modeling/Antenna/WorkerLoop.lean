import Antenna.WakeupChecks

/-!
The worker of an embedded Antenna over its IN channel: it polls the clock and ticks, which receives
until the ring is empty. Its input adapter has no way to consume the clock.
-/

namespace LeanAntenna

open Transition

inductive WorkerPc where
  | polling
  | ticking
deriving DecidableEq, Repr

/-- The IN channel with the lines that the `antenna_send` in progress has still to send. -/
structure WorkerLoop where
  inbox : Inbox
  lines : List (List UInt8)
  pc : WorkerPc

namespace WorkerLoop

inductive Action where
  | call (lines : List (List UInt8))
  | next
  | attempt
  | signal
  | poll
  | recv

def start (os : TargetOs) (pipeSize : Nat) (positive : 0 < pipeSize) (capacity : Nat) : WorkerLoop :=
  { inbox := Inbox.new os pipeSize positive capacity, lines := [], pc := .polling }

/-- An `antenna_send` is between its call and its return. -/
def Sending (state : WorkerLoop) : Prop := state.inbox.sender ≠ .idle ∨ state.lines ≠ []

instance (state : WorkerLoop) : Decidable state.Sending := inferInstanceAs (Decidable (_ ∨ _))

def call (state : WorkerLoop) (lines : List (List UInt8)) : Option WorkerLoop :=
  if state.Sending then none else some { state with lines }

def next (state : WorkerLoop) : Option WorkerLoop :=
  match state.lines with
  | [] => none
  | line :: rest => (state.inbox.call line).map fun inbox => { state with inbox, lines := rest }

/-- A message that is dropped ends the whole `antenna_send`. -/
def attempt (state : WorkerLoop) : Option WorkerLoop :=
  state.inbox.attempt.map fun inbox =>
    { state with inbox, lines := if inbox.sender = .idle then [] else state.lines }

def signal (state : WorkerLoop) : Option WorkerLoop :=
  state.inbox.signal.map fun inbox => { state with inbox }

/-- `poll(2)` returns when the clock is readable or when its timeout is over; the tick follows. -/
def poll (state : WorkerLoop) : Option WorkerLoop :=
  match state.pc with
  | .polling => some { state with pc := .ticking }
  | .ticking => none

/-- `ChannelIn::recv` in the input loop of `tick`. -/
def recv (state : WorkerLoop) : Option WorkerLoop :=
  match state.pc with
  | .polling => none
  | .ticking =>
      match state.inbox.ring.pop with
      | (ring, some _) => some { state with inbox := { state.inbox with ring } }
      | (ring, none) => some { state with inbox := { state.inbox with ring }, pc := .polling }

def step (state : WorkerLoop) : Action → Option WorkerLoop
  | .call lines => state.call lines
  | .next => state.next
  | .attempt => state.attempt
  | .signal => state.signal
  | .poll => state.poll
  | .recv => state.recv

/-- The signals that nobody has consumed yet. -/
def unconsumed (state : WorkerLoop) : Nat :=
  match state.inbox.clock with
  | .eventfd counter => counter
  | .selfPipe pipe => pipe.held

/-- At the poll with an empty ring and no send in progress. -/
structure Quiet (state : WorkerLoop) : Prop where
  polling : state.pc = .polling
  drained : ¬ state.inbox.Unread
  returned : ¬ state.Sending

/-- Once its input is drained, each iteration leaves fewer unconsumed signals, until the clock is not
readable any more. -/
def GoesToSleep (state : WorkerLoop) : Prop :=
  state.Quiet → state.inbox.clock.readable = true →
    ∀ next, runSteps step state [.poll, .recv] = some next → next.unconsumed < state.unconsumed

theorem attempt_clock {inbox next : Inbox} (done : inbox.attempt = some next) :
    next.clock = inbox.clock := by
  unfold Inbox.attempt at done
  split at done
  · split at done
    · cases done
      rfl
    · split at done
      · cases done
        rfl
      · cases done
        rfl
  · cases done

/-- Only a signal touches the clock. -/
theorem step_clock {state after : WorkerLoop} {action : Action}
    (stepped : step state action = some after) :
    (action = .signal ∧ after.inbox.clock = state.inbox.clock.signal) ∨
      (action ≠ .signal ∧ after.inbox.clock = state.inbox.clock) := by
  cases action with
  | call lines =>
      simp only [step, call] at stepped
      split at stepped
      · cases stepped
      · cases stepped
        exact Or.inr ⟨nofun, rfl⟩
  | next =>
      refine Or.inr ⟨nofun, ?_⟩
      simp only [step, next] at stepped
      split at stepped
      · cases stepped
      · obtain ⟨inbox, called, rfl⟩ := Option.map_eq_some_iff.mp stepped
        unfold Inbox.call at called
        split at called
        · cases called
          rfl
        · cases called
  | attempt =>
      obtain ⟨inbox, done, rfl⟩ := Option.map_eq_some_iff.mp stepped
      exact Or.inr ⟨nofun, attempt_clock done⟩
  | signal =>
      obtain ⟨inbox, done, rfl⟩ := Option.map_eq_some_iff.mp stepped
      unfold Inbox.signal at done
      split at done
      · cases done
        exact Or.inl ⟨rfl, rfl⟩
      · cases done
  | poll =>
      simp only [step, poll] at stepped
      split at stepped
      · cases stepped
        exact Or.inr ⟨nofun, rfl⟩
      · cases stepped
  | recv =>
      simp only [step, recv] at stepped
      split at stepped
      · cases stepped
      · split at stepped
        · cases stepped
          exact Or.inr ⟨nofun, rfl⟩
        · cases stepped
          exact Or.inr ⟨nofun, rfl⟩

/-- A pipe is readable after a run exactly if it was before or if a signal was given. -/
theorem run_readable {actions : List Action} {state final : WorkerLoop}
    (pipe : state.inbox.clock.isEventfd = false) (ran : runSteps step state actions = some final) :
    final.inbox.clock.readable = true ↔
      state.inbox.clock.readable = true ∨ Action.signal ∈ actions := by
  induction actions generalizing state with
  | nil =>
      cases ran
      simp
  | cons action rest ih =>
      obtain ⟨after, stepped, ranRest⟩ := runSteps_cons.mp ran
      rcases step_clock stepped with ⟨rfl, signalled⟩ | ⟨other, same⟩
      · have pipeAfter : after.inbox.clock.isEventfd = false := by
          rw [signalled, Clock.signal, Clock.write_isEventfd, pipe]
        rw [ih pipeAfter ranRest, signalled]
        apply iff_of_true
        · exact Or.inl (Clock.signal_readable pipe)
        · exact Or.inr List.mem_cons_self
      · rw [ih (same ▸ pipe) ranRest, same, List.mem_cons]
        have apart : ¬ Action.signal = action := fun equal => other equal.symm
        simp only [apart, false_or]

theorem unconsumed_of_clock {state after : WorkerLoop}
    (same : after.inbox.clock = state.inbox.clock) : after.unconsumed = state.unconsumed := by
  rw [unconsumed, unconsumed, same]

/-- An iteration leaves every signal where it was. -/
theorem iteration_unconsumed {state after : WorkerLoop}
    (ran : runSteps step state [.poll, .recv] = some after) :
    after.unconsumed = state.unconsumed := by
  obtain ⟨polled, first, ran⟩ := runSteps_cons.mp ran
  obtain ⟨received, second, ran⟩ := runSteps_cons.mp ran
  cases ran
  have kept : polled.inbox.clock = state.inbox.clock := by
    rcases step_clock first with ⟨signal, -⟩ | ⟨-, same⟩
    · cases signal
    · exact same
  rcases step_clock second with ⟨signal, -⟩ | ⟨-, same⟩
  · cases signal
  · exact unconsumed_of_clock (same.trans kept)

theorem exists_iteration {state : WorkerLoop} (polling : state.pc = .polling) :
    ∃ after, runSteps step state [.poll, .recv] = some after := by
  simp only [runSteps, step, poll, polling, recv, Option.bind_some]
  split
  · exact ⟨_, rfl⟩
  · exact ⟨_, rfl⟩

/-- A worker whose input is drained goes back to sleep exactly if no message was ever signalled. -/
theorem goesToSleep_iff {pipeSize : Nat} {positive : 0 < pipeSize} {capacity : Nat}
    {actions : List Action} {state : WorkerLoop}
    (ran : runSteps step (start .other pipeSize positive capacity) actions = some state) :
    state.GoesToSleep ↔ (state.Quiet → Action.signal ∉ actions) := by
  have heard : state.inbox.clock.readable = true ↔ Action.signal ∈ actions := by
    rw [run_readable rfl ran]
    simp [start, Inbox.new, Clock.new, Clock.readable]
  constructor
  · intro sleeps quiet signalled
    obtain ⟨after, iterated⟩ := exists_iteration quiet.polling
    have fewer := sleeps quiet (heard.mpr signalled) after iterated
    rw [iteration_unconsumed iterated] at fewer
    exact Nat.lt_irrefl _ fewer
  · intro unheard quiet readable
    exact absurd (heard.mp readable) (unheard quiet)

/-- One message of one byte is sent, received and dispatched. -/
def oneLine : List Action := [.call [[65]], .next, .attempt, .signal, .poll, .recv, .recv]

/-- After one message the clock stays readable and every poll returns at once. -/
theorem worker_spins :
    ∃ state, runSteps step (start .other 16 (by decide) 64) oneLine = some state ∧ state.Quiet ∧
      state.inbox.clock.readable = true ∧
        ∃ after, runSteps step state [.poll, .recv] = some after ∧
          after.unconsumed = state.unconsumed := by
  have ran : runSteps step (start .other 16 (by decide) 64) oneLine =
      some ((runSteps step (start .other 16 (by decide) 64) oneLine).get (by decide)) := by simp
  have quiet : ((runSteps step (start .other 16 (by decide) 64) oneLine).get (by decide)).Quiet :=
    ⟨by decide, by decide, by decide⟩
  obtain ⟨after, iterated⟩ := exists_iteration quiet.polling
  exact ⟨_, ran, quiet, by decide, after, iterated, iteration_unconsumed iterated⟩

/-- Before the first message the worker sleeps. -/
theorem goesToSleep_iff_silent :
    ∃ state, runSteps step (start .other 16 (by decide) 64) [.poll, .recv] = some state ∧
      state.GoesToSleep := by
  have ran : runSteps step (start .other 16 (by decide) 64) [.poll, .recv] =
      some ((runSteps step (start .other 16 (by decide) 64) [.poll, .recv]).get (by decide)) := by
    simp
  exact ⟨_, ran, (goesToSleep_iff ran).mpr fun _ => by simp⟩

end WorkerLoop

end LeanAntenna
