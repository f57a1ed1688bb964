import Antenna.DispatchSteps
import Antenna.EventChecks
import Antenna.TickCore

/-!
The tick as a sequence of activities, and which of them do what only the line of a ready account
should do.
-/

namespace LeanAntenna

open Text Replay

inductive Activity (Carrier : Type) where
  | startup
  | bootstrap
  | clock (carrier : Carrier)
  | event (event : CarrierEvent)
  | line (line : Text)
  | query (sparql : Text)
  | emit (line : Text)

/-- What a tick does, in order. -/
def TickInputs.activities {Carrier : Type} (inputs : TickInputs Carrier) :
    List (Activity Carrier) :=
  [.startup, .bootstrap, .clock inputs.carrier] ++
    match inputs.iterated with
    | .error _ => []
    | .ok () =>
        inputs.events.map .event ++ (inputs.lines.map .line ++
          (inputs.queries.map .query ++ inputs.emits.map .emit))

variable {Store Carrier : Type} (host : Host Store Carrier)

namespace Context

def perform (context : Context Store Carrier) : Activity Carrier → Context Store Carrier
  | .startup => context.startup host
  | .bootstrap => context.bootstrap host
  | .clock carrier =>
      { context with
        world := { context.world.record (.broadcast clockChannel clockTick) with carrier } }
  | .event event => context.handleEvent host event
  | .line line => if line = [] then context else context.dispatched host context.accountId line
  | .query sparql => { context with world := context.world.record (.query sparql) }
  | .emit line => context.dispatched host context.accountId line

/-- The account id is the one the tick takes down before it reads its lines. -/
theorem lines_replay (account : Text) (lines : List Text) (context : Context Store Carrier)
    (same : context.accountId = account) :
    lines.foldl (fun context line =>
        if line = [] then context else context.dispatched host account line) context =
      replay (perform host) context (lines.map .line) ∧
    (replay (perform host) context (lines.map .line)).accountId = account := by
  induction lines generalizing context with
  | nil => exact ⟨rfl, same⟩
  | cons line lines ih =>
      simp only [List.foldl_cons, List.map_cons, replay, perform]
      by_cases empty : line = []
      · simp only [empty, if_true]
        exact ih context same
      · simp only [empty, if_false, same]
        exact ih (context.dispatched host account line) same

theorem queries_replay (queries : List Text) (context : Context Store Carrier) :
    { context with
      world := queries.foldl (fun world sparql => world.record (.query sparql)) context.world } =
      replay (perform host) context (queries.map .query) := by
  induction queries generalizing context with
  | nil => rfl
  | cons sparql queries ih =>
      exact ih { context with world := context.world.record (.query sparql) }

theorem queries_accountId (queries : List Text) (context : Context Store Carrier) :
    (replay (perform host) context (queries.map .query)).accountId = context.accountId := by
  rw [← queries_replay]

theorem emits_replay (account : Text) (lines : List Text) (context : Context Store Carrier)
    (same : context.accountId = account) :
    lines.foldl (fun context line => context.dispatched host account line) context =
      replay (perform host) context (lines.map .emit) := by
  induction lines generalizing context with
  | nil => rfl
  | cons line lines ih =>
      simp only [List.foldl_cons, List.map_cons, replay, perform, same]
      exact ih (context.dispatched host account line) same

theorem tick_eq_replay (context : Context Store Carrier) (inputs : TickInputs Carrier) :
    context.tick host inputs = replay (perform host) context inputs.activities := by
  have drained : ∀ start : Context Store Carrier,
      inputs.events.foldl (handleEvent host) start =
        replay (perform host) start (inputs.events.map .event) := fun start => by
    rw [replay, List.foldl_map]
    rfl
  unfold tick TickInputs.activities
  rw [replay_append]
  cases inputs.iterated with
  | error reason => rfl
  | ok done =>
      have begun : replay (perform host) context [.startup, .bootstrap, .clock inputs.carrier] =
          let started := (context.startup host).bootstrap host
          { started with
            world := { started.world.record (.broadcast clockChannel clockTick) with
              carrier := inputs.carrier } } := rfl
      simp only [replay_append, drained, begun]
      generalize replay (perform host) _ (inputs.events.map .event) = ready
      obtain ⟨answered, kept⟩ :=
        lines_replay host ready.accountId inputs.lines ready rfl
      rw [answered, queries_replay]
      exact emits_replay host _ _ _ ((queries_accountId host _ _).trans kept)

/-- A run of the worker is the run of its activities. -/
theorem ticks_eq_replay (context : Context Store Carrier) (ticks : List (TickInputs Carrier)) :
    replay (tick host) context ticks =
      replay (perform host) context (ticks.flatMap TickInputs.activities) := by
  induction ticks generalizing context with
  | nil => rfl
  | cons inputs ticks ih =>
      rw [List.flatMap_cons, replay_append, ← tick_eq_replay, ← ih]
      rfl

end Context

end LeanAntenna
