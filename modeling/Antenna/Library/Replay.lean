/-! Runs of a deterministic system that is driven by a list of actions. -/

namespace Replay

variable {State Action : Type} (step : State → Action → State)

def replay (start : State) (actions : List Action) : State := actions.foldl step start

/-- `property` holds of every state the run passes through with the action taken there. -/
def Throughout (property : State → Action → Prop) : State → List Action → Prop
  | _, [] => True
  | state, action :: actions =>
      property state action ∧ Throughout property (step state action) actions

variable {step} {property other : State → Action → Prop}

theorem replay_append (start : State) (front back : List Action) :
    replay step start (front ++ back) = replay step (replay step start front) back :=
  List.foldl_append

theorem throughout_nil (start : State) : Throughout step property start [] := trivial

theorem throughout_cons {start : State} {action : Action} {actions : List Action} :
    Throughout step property start (action :: actions) ↔
      property start action ∧ Throughout step property (step start action) actions := Iff.rfl

theorem throughout_append {start : State} {front back : List Action} :
    Throughout step property start (front ++ back) ↔
      Throughout step property start front ∧
        Throughout step property (replay step start front) back := by
  induction front generalizing start with
  | nil => exact (and_iff_right (throughout_nil start)).symm
  | cons action front ih =>
      rw [List.cons_append, throughout_cons, throughout_cons, ih, and_assoc]
      rfl

/-- The property holds at every place where the run can be cut in front of an action. -/
theorem throughout_iff_cut {start : State} {actions : List Action} :
    Throughout step property start actions ↔
      ∀ front action back, actions = front ++ action :: back →
        property (replay step start front) action := by
  constructor
  · rintro holds front action back rfl
    rw [throughout_append] at holds
    exact holds.2.1
  · induction actions generalizing start with
    | nil => exact fun _ => trivial
    | cons action actions ih =>
        intro cuts
        refine ⟨cuts [] action actions rfl, ih ?_⟩
        rintro front next back rfl
        exact cuts (action :: front) next back rfl

theorem throughout_congr {start : State} {actions : List Action}
    (same : ∀ state, ∀ action ∈ actions, property state action ↔ other state action) :
    Throughout step property start actions ↔ Throughout step other start actions := by
  induction actions generalizing start with
  | nil => exact Iff.rfl
  | cons action actions ih =>
      rw [throughout_cons, throughout_cons, same start action (by simp),
        ih fun state next member => same state next (List.mem_cons_of_mem _ member)]

/-- A property of the actions alone holds throughout when it holds of each. -/
theorem throughout_action {start : State} {actions : List Action} {holds : Action → Prop} :
    Throughout step (fun _ => holds) start actions ↔ ∀ action ∈ actions, holds action := by
  induction actions generalizing start with
  | nil => simp [throughout_nil]
  | cons action actions ih => rw [throughout_cons, ih, List.forall_mem_cons]

/-- What the invariant and the condition give at each step they give throughout the run. -/
theorem throughout_of_invariant {invariant : State → Prop} {condition : State → Action → Prop}
    (keeps : ∀ state action, invariant state → condition state action →
      invariant (step state action))
    (gives : ∀ state action, invariant state → condition state action → property state action)
    {start : State} {actions : List Action} (begins : invariant start)
    (met : Throughout step condition start actions) : Throughout step property start actions := by
  induction actions generalizing start with
  | nil => trivial
  | cons action actions ih =>
      exact ⟨gives start action begins met.1, ih (keeps start action begins met.1) met.2⟩

/-- Where each step keeps the property exactly if it meets the condition, every state the run passes
through has the property exactly if all its steps meet the condition. -/
theorem forall_prefix_iff_throughout {holds : State → Prop} {condition : State → Action → Prop}
    (same : ∀ state action, holds state → (holds (step state action) ↔ condition state action))
    {start : State} {actions : List Action} (begins : holds start) :
    (∀ front, front <+: actions → holds (replay step start front)) ↔
      Throughout step condition start actions := by
  induction actions generalizing start with
  | nil =>
      apply iff_of_true _ trivial
      intro front within
      rw [List.prefix_nil.mp within]
      exact begins
  | cons action actions ih =>
      constructor
      · intro every
        have next : holds (step start action) := every [action] (by simp)
        refine ⟨(same start action begins).mp next, (ih next).mp ?_⟩
        intro front within
        exact every (action :: front) (List.cons_prefix_cons.mpr ⟨rfl, within⟩)
      · rintro ⟨met, later⟩ front within
        cases front with
        | nil => exact begins
        | cons first front =>
            obtain ⟨rfl, shorter⟩ := List.cons_prefix_cons.mp within
            exact (ih ((same start first begins).mpr met)).mpr later front shorter

/-- Two conditions that agree wherever the invariant holds, which a step that meets them keeps, are
met by the same runs. -/
theorem throughout_iff_of_invariant {invariant : State → Prop} {condition : State → Action → Prop}
    (keeps : ∀ state action, invariant state → condition state action →
      invariant (step state action))
    (same : ∀ state action, invariant state → (property state action ↔ condition state action))
    {start : State} {actions : List Action} (begins : invariant start) :
    Throughout step property start actions ↔ Throughout step condition start actions := by
  induction actions generalizing start with
  | nil => exact Iff.rfl
  | cons action actions ih =>
      constructor
      · rintro ⟨held, later⟩
        have met := (same start action begins).mp held
        exact ⟨met, (ih (keeps start action begins met)).mp later⟩
      · rintro ⟨met, later⟩
        exact ⟨(same start action begins).mpr met, (ih (keeps start action begins met)).mpr later⟩

/-- Actions that do nothing where the invariant holds can be left out of a run. -/
theorem replay_filter {invariant : State → Prop} {idle : Action → Bool}
    (keeps : ∀ state action, invariant state → invariant (step state action))
    (still : ∀ state action, invariant state → idle action → step state action = state)
    {start : State} (begins : invariant start) (actions : List Action) :
    replay step start actions = replay step start (actions.filter fun action => !idle action) := by
  induction actions generalizing start with
  | nil => rfl
  | cons action actions ih =>
      by_cases nothing : idle action
      · rw [List.filter_cons_of_neg (by simpa using nothing), ← ih begins]
        change replay step (step start action) actions = _
        rw [still start action begins nothing]
      · rw [List.filter_cons_of_pos (by simpa using nothing)]
        exact ih (keeps start action begins)

end Replay
