import Antenna.EmbeddedRuns

/-!
The loop of `AntennaContext::run`: tick after tick until the carrier fails. What the worker does between
its reads is the same for every transport.
-/

namespace LeanAntenna

/-- The moves of a worker but for its reads. -/
inductive TickMove (Carrier : Type) where
  | poll
  | startup
  | bootstrap
  | iterate (carrier : Carrier) (succeeds : Bool)
  | event (event : CarrierEvent)
  | query (sparql : Text)
  | emit (line : Text)
  | finish

variable {Carrier : Type}

/-- The activity of a move, if it has one, and the stage behind it. An error of the carrier ends the
program. -/
def TickMove.leads (stage : WorkerStage) :
    TickMove Carrier → Option (Option (Activity Carrier) × WorkerStage)
  | .poll => if stage = .polling then some (none, .startup) else none
  | .startup => if stage = .startup then some (some .startup, .bootstrap) else none
  | .bootstrap => if stage = .bootstrap then some (some .bootstrap, .clock) else none
  | .iterate carrier succeeds =>
      if stage = .clock then some (some (.clock carrier), if succeeds then .events else .stopped)
      else none
  | .event arrived => if stage = .events then some (some (.event arrived), .events) else none
  | .query sparql => if stage = .queries then some (some (.query sparql), .queries) else none
  | .emit line => if stage ∈ [.queries, .emits] then some (some (.emit line), .emits) else none
  | .finish => if stage ∈ [.queries, .emits] then some (none, .polling) else none

variable {stage next : WorkerStage} {move : TickMove Carrier} {activity : Activity Carrier}

theorem TickMove.advances (leads : move.leads stage = some (some activity, next)) :
    Advances stage activity next ∧ activity.input = none := by
  cases move with
  | poll => simp [TickMove.leads] at leads
  | startup =>
      obtain ⟨rfl, rfl, rfl⟩ : stage = .startup ∧ activity = .startup ∧ next = .bootstrap := by
        simpa [TickMove.leads, eq_comm] using leads
      exact ⟨.startup, rfl⟩
  | bootstrap =>
      obtain ⟨rfl, rfl, rfl⟩ : stage = .bootstrap ∧ activity = .bootstrap ∧ next = .clock := by
        simpa [TickMove.leads, eq_comm] using leads
      exact ⟨.bootstrap, rfl⟩
  | iterate carrier succeeds =>
      obtain ⟨rfl, rfl, rfl⟩ : stage = .clock ∧ activity = .clock carrier ∧
          next = if succeeds then .events else .stopped := by
        simpa [TickMove.leads, eq_comm] using leads
      cases succeeds with
      | false => exact ⟨.failed carrier (by simp), rfl⟩
      | true => exact ⟨.clock carrier, rfl⟩
  | event arrived =>
      obtain ⟨rfl, rfl, rfl⟩ : stage = .events ∧ activity = .event arrived ∧ next = .events := by
        simpa [TickMove.leads, eq_comm] using leads
      exact ⟨.event arrived, rfl⟩
  | query sparql =>
      obtain ⟨rfl, rfl, rfl⟩ : stage = .queries ∧ activity = .query sparql ∧ next = .queries := by
        simpa [TickMove.leads, eq_comm] using leads
      exact ⟨.query sparql, rfl⟩
  | emit line =>
      simp only [TickMove.leads] at leads
      split at leads
      · rename_i pumping
        cases leads
        exact ⟨.emit pumping line, rfl⟩
      · cases leads
  | finish => simp [TickMove.leads] at leads

theorem TickMove.passes (leads : move.leads stage = some (none, next)) : Passes stage next := by
  cases move with
  | poll =>
      obtain ⟨rfl, rfl⟩ : stage = .polling ∧ next = .startup := by
        simpa [TickMove.leads, eq_comm] using leads
      exact .poll
  | finish =>
      simp only [TickMove.leads] at leads
      split at leads
      · rename_i pumping
        cases leads
        exact .finish pumping
      · cases leads
  | _ => simp [TickMove.leads] at leads

end LeanAntenna
