import Mathlib.Logic.Basic
import Mathlib.Data.List.Basic

/-! Runs of a partial step function, with the induction rules for invariants and simulations. -/

namespace Transition

variable {State Action Spec Move : Type}

/-- Follows a partial step function along a list of actions. -/
def runSteps (step : State → Action → Option State) : State → List Action → Option State
  | state, [] => some state
  | state, action :: rest => (step state action).bind fun next => runSteps step next rest

/-- Every step taken from `state` along `actions` is taken where `condition` holds. -/
def StepsMeet (step : State → Action → Option State) (condition : State → Action → Prop) :
    State → List Action → Prop
  | _, [] => True
  | state, action :: rest =>
      condition state action ∧ ∀ next, step state action = some next → StepsMeet step condition next rest

instance decidableStepsMeet {step : State → Action → Option State}
    {condition : State → Action → Prop} [∀ state action, Decidable (condition state action)] :
    ∀ state actions, Decidable (StepsMeet step condition state actions)
  | _, [] => isTrue trivial
  | state, action :: rest =>
      have : ∀ next, Decidable (StepsMeet step condition next rest) := fun next =>
        decidableStepsMeet next rest
      inferInstanceAs (Decidable (condition state action ∧
        ∀ next ∈ step state action, StepsMeet step condition next rest))

@[simp] theorem runSteps_nil (step : State → Action → Option State) (state : State) :
    runSteps step state [] = some state := rfl

theorem runSteps_cons {step : State → Action → Option State} {state final : State}
    {action : Action} {rest : List Action} :
    runSteps step state (action :: rest) = some final ↔
      ∃ next, step state action = some next ∧ runSteps step next rest = some final :=
  Option.bind_eq_some_iff

theorem runSteps_behind {step : State → Action → Option State} {state middle : State}
    {first : List Action} (ran : runSteps step state first = some middle) (second : List Action) :
    runSteps step state (first ++ second) = runSteps step middle second := by
  induction first generalizing state with
  | nil =>
      cases ran
      rfl
  | cons action rest ih =>
      obtain ⟨next, stepped, ranRest⟩ := runSteps_cons.mp ran
      rw [List.cons_append, runSteps, stepped]
      exact ih ranRest

theorem runSteps_append {step : State → Action → Option State} {state middle final : State}
    {first second : List Action} (ranFirst : runSteps step state first = some middle)
    (ranSecond : runSteps step middle second = some final) :
    runSteps step state (first ++ second) = some final := by
  rw [runSteps_behind ranFirst]
  exact ranSecond

theorem stepsMeet_append {step : State → Action → Option State}
    {condition : State → Action → Prop} {state : State} {first second : List Action}
    (meets : StepsMeet step condition state first)
    (later : ∀ middle, runSteps step state first = some middle →
      StepsMeet step condition middle second) :
    StepsMeet step condition state (first ++ second) := by
  induction first generalizing state with
  | nil => exact later state rfl
  | cons action rest ih =>
      refine ⟨meets.1, fun next stepped => ih (meets.2 next stepped) ?_⟩
      intro middle ran
      exact later middle (runSteps_cons.mpr ⟨next, stepped, ran⟩)

theorem stepsMeet_of_forall {step : State → Action → Option State} {allowed : Action → Prop}
    {actions : List Action} (all : ∀ action ∈ actions, allowed action) :
    ∀ state, StepsMeet step (fun _ action => allowed action) state actions := by
  induction actions with
  | nil => exact fun _ => trivial
  | cons action rest ih =>
      intro state
      exact ⟨all action (by simp), fun next _ => ih (fun later member => all later (by simp [member])) next⟩

/-- What every conditioned step preserves holds after a run whose steps all meet the condition. -/
theorem runSteps_preserves {step : State → Action → Option State}
    (condition : State → Action → Prop) (invariant : State → Prop)
    (preserved : ∀ state action next, invariant state → condition state action →
      step state action = some next → invariant next)
    {actions : List Action} {state final : State} (start : invariant state)
    (meets : StepsMeet step condition state actions)
    (ran : runSteps step state actions = some final) : invariant final := by
  induction actions generalizing state with
  | nil =>
      simp only [runSteps_nil, Option.some.injEq] at ran
      subst final
      exact start
  | cons action rest ih =>
      obtain ⟨next, stepped, ranRest⟩ := runSteps_cons.mp ran
      exact ih (preserved state action next start meets.1 stepped) (meets.2 next stepped) ranRest

/-- A condition that follows from an invariant of the steps is met by every run. -/
theorem stepsMeet_of_invariant {step : State → Action → Option State}
    {condition : State → Action → Prop} (invariant : State → Prop)
    (preserved : ∀ state action next, invariant state → step state action = some next →
      invariant next)
    (implied : ∀ state action, invariant state → condition state action) (actions : List Action) :
    ∀ state, invariant state → StepsMeet step condition state actions := by
  induction actions with
  | nil => exact fun _ _ => trivial
  | cons action rest ih =>
      intro state held
      exact ⟨implied state action held, fun next stepped =>
        ih next (preserved state action next held stepped)⟩

/-- Conditions that agree wherever the invariant holds are met by the same runs. -/
theorem stepsMeet_congr {step : State → Action → Option State}
    {left right : State → Action → Prop} (invariant : State → Prop)
    (kept : ∀ state action next, invariant state → step state action = some next → invariant next)
    (same : ∀ state action, invariant state → (left state action ↔ right state action))
    {actions : List Action} {state : State} (begins : invariant state) :
    StepsMeet step left state actions ↔ StepsMeet step right state actions := by
  induction actions generalizing state with
  | nil => exact Iff.rfl
  | cons action rest ih =>
      apply and_congr (same state action begins)
      apply forall_congr'
      intro next
      apply imp_congr_right
      intro stepped
      exact ih (kept state action next begins stepped)

/-- Where the invariant holds and each step keeps the property exactly if it meets the condition,
the property holds of every state the run passes through exactly if all its steps do. -/
theorem forall_prefix_iff_stepsMeet {step : State → Action → Option State}
    {condition : State → Action → Prop} (invariant : State → Prop) {property : State → Prop}
    (kept : ∀ state action next, invariant state → step state action = some next → invariant next)
    (same : ∀ state action next, invariant state → property state →
      step state action = some next → (property next ↔ condition state action))
    (idle : ∀ state action, step state action = none → condition state action)
    {actions : List Action} {state : State} (begins : invariant state) (start : property state) :
    (∀ taken, taken <+: actions → ∀ final, runSteps step state taken = some final →
      property final) ↔ StepsMeet step condition state actions := by
  induction actions generalizing state with
  | nil =>
      apply iff_of_true _ trivial
      intro taken front final ran
      rw [List.prefix_nil.mp front] at ran
      cases ran
      exact start
  | cons action rest ih =>
      constructor
      · intro holds
        have first : ∀ next, step state action = some next → property next := by
          intro next stepped
          exact holds [action] (by simp) next (runSteps_cons.mpr ⟨next, stepped, rfl⟩)
        refine ⟨?_, ?_⟩
        · cases stepped : step state action with
          | none => exact idle state action stepped
          | some next => exact (same state action next begins start stepped).mp (first next stepped)
        · intro next stepped
          apply (ih (kept state action next begins stepped) (first next stepped)).mp
          intro taken front final ran
          exact holds (action :: taken) (List.cons_prefix_cons.mpr ⟨rfl, front⟩) final
            (runSteps_cons.mpr ⟨next, stepped, ran⟩)
      · rintro ⟨met, later⟩ taken front final ran
        cases taken with
        | nil =>
            cases ran
            exact start
        | cons other taken =>
            obtain ⟨rfl, within⟩ := List.cons_prefix_cons.mp front
            obtain ⟨next, stepped, ranRest⟩ := runSteps_cons.mp ran
            have holds := (same state other next begins start stepped).mpr met
            exact (ih (kept state other next begins stepped) holds).mpr (later next stepped) taken
              within final ranRest

/-- Forward simulation: when every step is matched by moves of a specification, so is a run. -/
theorem runSteps_simulates {step : State → Action → Option State}
    {specStep : Spec → Move → Option Spec} {condition : State → Action → Prop}
    {related : State → Spec → Prop}
    (simulate : ∀ state action next spec, related state spec → condition state action →
      step state action = some next →
        ∃ moves specNext, runSteps specStep spec moves = some specNext ∧ related next specNext)
    {actions : List Action} {state final : State} {spec : Spec} (start : related state spec)
    (meets : StepsMeet step condition state actions)
    (ran : runSteps step state actions = some final) :
    ∃ moves specFinal, runSteps specStep spec moves = some specFinal ∧ related final specFinal := by
  induction actions generalizing state spec with
  | nil =>
      simp only [runSteps_nil, Option.some.injEq] at ran
      subst final
      exact ⟨[], spec, rfl, start⟩
  | cons action rest ih =>
      obtain ⟨next, stepped, ranRest⟩ := runSteps_cons.mp ran
      obtain ⟨moves, specNext, moved, nextRelated⟩ :=
        simulate state action next spec start meets.1 stepped
      obtain ⟨moreMoves, specFinal, movedMore, finalRelated⟩ :=
        ih nextRelated (meets.2 next stepped) ranRest
      exact ⟨moves ++ moreMoves, specFinal, runSteps_append moved movedMore, finalRelated⟩

end Transition
