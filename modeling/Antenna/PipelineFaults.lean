import Antenna.PipelineChecks

/-!
`replace_pipeline` when the store fails. Each of its five operations changes the store as a whole or
not at all, and the first one that fails ends the call.
-/

namespace LeanAntenna

open Text Rdf

/-- The store operations of `replace_pipeline`, in order. -/
inductive PipelineStep where
  | resetNodes
  | resetSources
  | insert
  | clear
  | mirror
deriving DecidableEq, Repr

def pipelineSteps : List PipelineStep := [.resetNodes, .resetSources, .insert, .clear, .mirror]

section Steps

variable (parse : Parser) (fault : PipelineStep → Option Text) (ttl : Text)

def PipelineStep.run (step : PipelineStep) (store : Dataset) : Dataset × Except Text Unit :=
  match fault step with
  | some reason => (store, .error reason)
  | none =>
      match step with
      | .resetNodes => (deleteInstances store (antennaIri "ScriptNode"), .ok ())
      | .resetSources => (deleteInstances store (antennaIri "ScriptSource"), .ok ())
      | .insert => insertTurtle parse store ttl
      | .clear => (clearGraph store trustedPipelineGraph, .ok ())
      | .mirror => insertTurtleToGraph parse store ttl trustedPipelineGraph

def runPipeline : List PipelineStep → Dataset → Dataset × Except Text Unit
  | [], store => (store, .ok ())
  | step :: rest, store =>
      match step.run parse fault ttl store with
      | (left, .error reason) => (left, .error reason)
      | (next, .ok ()) => runPipeline rest next

/-- `replace_pipeline` over a store whose operations fail where `fault` says so. -/
def replacePipelineOver (store : Dataset) : Dataset × Except Text Unit :=
  runPipeline parse fault ttl pipelineSteps store

/-- Over a store that never fails this is the call as the store model has it. -/
theorem replacePipelineOver_reliable (store : Dataset) :
    replacePipelineOver parse (fun _ => none) ttl store = replacePipeline parse store ttl := by
  simp only [replacePipelineOver, pipelineSteps, runPipeline, PipelineStep.run, replacePipeline,
    resetPipeline]
  rcases insertTurtle parse (deleteInstances (deleteInstances store (antennaIri "ScriptNode"))
    (antennaIri "ScriptSource")) ttl with ⟨inserted, reason | done⟩
  · rfl
  · dsimp only
    rcases insertTurtleToGraph parse (clearGraph inserted trustedPipelineGraph) ttl
      trustedPipelineGraph with ⟨mirrored, reason | done⟩ <;> rfl

def parses : Bool := (parse (turtleDocument ttl)).toOption.isSome

/-- The operations that fail: the store fails them, or they load a text that is not Turtle. -/
def PipelineStep.fails (step : PipelineStep) : Bool :=
  (fault step).isSome || (step ∈ [insert, mirror] && !parses parse ttl)

/-- The operation that ends the call. -/
def firstFailure : Option PipelineStep := pipelineSteps.find? (PipelineStep.fails parse fault ttl)

/-- What an operation that succeeds does with the triples of the text. -/
def PipelineStep.perform (triples : Graph) (step : PipelineStep) (store : Dataset) : Dataset :=
  match step with
  | .resetNodes => deleteInstances store (antennaIri "ScriptNode")
  | .resetSources => deleteInstances store (antennaIri "ScriptSource")
  | .insert => store.insert triples
  | .clear => clearGraph store trustedPipelineGraph
  | .mirror => store.setNamed trustedPipelineGraph
      ((store.named trustedPipelineGraph).add triples)

def loadedGraph : Graph := (parse (turtleDocument ttl)).toOption.getD []

end Steps

section Outcomes

variable {parse : Parser} {fault : PipelineStep → Option Text} {ttl : Text}

theorem run_failed {step : PipelineStep} (failed : step.fails parse fault ttl = true)
    (store : Dataset) : ∃ reason, step.run parse fault ttl store = (store, .error reason) := by
  unfold PipelineStep.run
  cases faulty : fault step with
  | some reason => exact ⟨reason, rfl⟩
  | none =>
      simp only [PipelineStep.fails, faulty, Option.isSome_none, Bool.false_or, Bool.and_eq_true,
        decide_eq_true_eq, Bool.not_eq_true', parses] at failed
      obtain ⟨loads, unparsed⟩ := failed
      cases parsed : parse (turtleDocument ttl) with
      | ok triples => simp [parsed, Except.toOption] at unparsed
      | error reason =>
          refine ⟨reason, ?_⟩
          simp only [List.mem_cons, List.not_mem_nil, or_false] at loads
          rcases loads with rfl | rfl
          · exact insertTurtle_error parsed
          · simp only [insertTurtleToGraph, parsed]

theorem run_done {step : PipelineStep} (succeeds : step.fails parse fault ttl = false)
    (store : Dataset) :
    step.run parse fault ttl store = (step.perform (loadedGraph parse ttl) store, .ok ()) := by
  simp only [PipelineStep.fails, Bool.or_eq_false_iff, Option.isSome_eq_false_iff,
    Option.isNone_iff_eq_none, Bool.and_eq_false_iff, decide_eq_false_iff_not,
    Bool.not_eq_false'] at succeeds
  obtain ⟨reliable, reads⟩ := succeeds
  unfold PipelineStep.run loadedGraph
  rw [reliable]
  cases parsed : parse (turtleDocument ttl) with
  | ok triples =>
      cases step with
      | insert => exact insertTurtle_ok parsed
      | mirror => simp [PipelineStep.perform, insertTurtleToGraph, parsed, Except.toOption]
      | resetNodes => rfl
      | resetSources => rfl
      | clear => rfl
  | error reason =>
      simp only [parses, parsed, Except.toOption, Option.isSome_none, Bool.false_eq_true,
        or_false] at reads
      cases step with
      | insert => simp at reads
      | mirror => simp at reads
      | resetNodes => rfl
      | resetSources => rfl
      | clear => rfl

/-- The operations in front of the first failure are performed, and nothing else happens. -/
theorem runPipeline_failed {front : List PipelineStep} (back : List PipelineStep)
    {step : PipelineStep} (succeed : ∀ earlier ∈ front, earlier.fails parse fault ttl = false)
    (failed : step.fails parse fault ttl = true) (store : Dataset) :
    ∃ reason, runPipeline parse fault ttl (front ++ step :: back) store =
      (front.foldl (fun store earlier => earlier.perform (loadedGraph parse ttl) store) store,
        .error reason) := by
  induction front generalizing store with
  | nil =>
      obtain ⟨reason, outcome⟩ := run_failed failed store
      exact ⟨reason, by rw [List.nil_append, runPipeline, outcome]; rfl⟩
  | cons earlier front ih =>
      obtain ⟨reason, outcome⟩ := ih (fun other member => succeed other (by simp [member]))
        (earlier.perform (loadedGraph parse ttl) store)
      refine ⟨reason, ?_⟩
      rw [List.cons_append, runPipeline, run_done (succeed earlier (by simp)), List.foldl_cons]
      exact outcome

theorem runPipeline_done {steps : List PipelineStep}
    (succeed : ∀ step ∈ steps, step.fails parse fault ttl = false) (store : Dataset) :
    (runPipeline parse fault ttl steps store).2 = .ok () := by
  induction steps generalizing store with
  | nil => rfl
  | cons step rest ih =>
      rw [runPipeline, run_done (succeed step (by simp))]
      exact ih (fun other member => succeed other (by simp [member])) _

end Outcomes

section Unchanged

variable {store : Dataset}

/-- The default graph and the trusted one hold the same triples. -/
structure SameStore (left right : Dataset) : Prop where
  default : ∀ triple, triple ∈ left.default ↔ triple ∈ right.default
  trusted : ∀ triple, triple ∈ left.named trustedPipelineGraph ↔
    triple ∈ right.named trustedPipelineGraph

/-- The subjects that the resets clear out. -/
def Cleared (store : Dataset) (subject : Resource) : Prop :=
  subject ∈ store.default.instances (antennaIri "ScriptNode") ∨
    subject ∈ store.default.instances (antennaIri "ScriptSource")

/-- Loading the text puts back what the resets take out, and nothing new. -/
structure Reinstates (triples : Graph) (store : Dataset) : Prop where
  known : ∀ triple ∈ triples, triple ∈ store.default
  restored : ∀ triple ∈ store.default, Cleared store triple.subject → triple ∈ triples

/-- What the store and the text have to meet for a call that `failure` ends to change nothing. -/
def Spared (triples : Graph) (store : Dataset) : Option PipelineStep → Prop
  | none | some .resetNodes => True
  | some .resetSources => store.default.instances (antennaIri "ScriptNode") = []
  | some .insert => ∀ subject, ¬ Cleared store subject
  | some .clear => Reinstates triples store
  | some .mirror => Reinstates triples store ∧ store.named trustedPipelineGraph = []

theorem mem_deleteInstances {type : Text} {triple : Triple} :
    triple ∈ (deleteInstances store type).default ↔
      triple ∈ store.default ∧ triple.subject ∉ store.default.instances type := Graph.mem_without

theorem mem_resetPipeline {triple : Triple} :
    triple ∈ (resetPipeline store).default ↔
      triple ∈ store.default ∧ ¬ Cleared store triple.subject := by
  simp only [resetPipeline, mem_deleteInstances, Graph.mem_instances, Cleared, not_or,
    Graph.typeTriple]
  tauto

theorem sameStore_deleteInstances_iff {type : Text} :
    SameStore (deleteInstances store type) store ↔ store.default.instances type = [] := by
  constructor
  · intro same
    apply List.eq_nil_iff_forall_not_mem.mpr
    intro subject member
    have kept := (same.default _).mpr (Graph.mem_instances.mp member)
    exact (mem_deleteInstances.mp kept).2 member
  · intro none
    refine ⟨fun triple => ?_, fun triple => Iff.rfl⟩
    rw [mem_deleteInstances, none]
    simp

theorem sameStore_resetPipeline_iff :
    SameStore (resetPipeline store) store ↔ ∀ subject, ¬ Cleared store subject := by
  constructor
  · intro same subject cleared
    have typed : ∃ type, Graph.typeTriple subject type ∈ store.default := by
      rcases cleared with member | member
      · exact ⟨_, Graph.mem_instances.mp member⟩
      · exact ⟨_, Graph.mem_instances.mp member⟩
    obtain ⟨type, member⟩ := typed
    exact (mem_resetPipeline.mp ((same.default _).mpr member)).2 cleared
  · intro none
    refine ⟨fun triple => ?_, fun triple => Iff.rfl⟩
    rw [mem_resetPipeline]
    exact and_iff_left (none _)

theorem reinstates_iff {triples : Graph} :
    (∀ triple, triple ∈ ((resetPipeline store).insert triples).default ↔
      triple ∈ store.default) ↔ Reinstates triples store := by
  simp only [Dataset.insert, Graph.mem_add, mem_resetPipeline]
  constructor
  · intro same
    refine ⟨fun triple member => (same triple).mp (Or.inr member), ?_⟩
    intro triple member cleared
    rcases (same triple).mpr member with kept | loaded
    · exact absurd cleared kept.2
    · exact loaded
  · intro reinstates triple
    constructor
    · rintro (kept | loaded)
      · exact kept.1
      · exact reinstates.known triple loaded
    · intro member
      by_cases cleared : Cleared store triple.subject
      · exact Or.inr (reinstates.restored triple member cleared)
      · exact Or.inl ⟨member, cleared⟩

variable {parse : Parser} {fault : PipelineStep → Option Text} {ttl : Text}

theorem sameStore_refl : SameStore store store := ⟨fun _ => Iff.rfl, fun _ => Iff.rfl⟩

/-- What the operations in front of the failure leave is the store as it was exactly if the store
and the text spare it. -/
theorem sameStore_iff_spared {front back : List PipelineStep} {step : PipelineStep}
    (cut : pipelineSteps = front ++ step :: back) (triples : Graph) :
    SameStore (front.foldl (fun store earlier => earlier.perform triples store) store) store ↔
      Spared triples store (some step) := by
  unfold pipelineSteps at cut
  match front with
  | [] =>
      cases cut
      exact iff_of_true sameStore_refl trivial
  | [_] =>
      cases cut
      exact sameStore_deleteInstances_iff
  | [_, _] =>
      cases cut
      exact sameStore_resetPipeline_iff
  | [_, _, _] =>
      cases cut
      refine Iff.trans ⟨SameStore.default, fun same => ⟨same, fun _ => Iff.rfl⟩⟩ reinstates_iff
  | [_, _, _, _] =>
      cases cut
      constructor
      · intro same
        refine ⟨reinstates_iff.mp same.default, List.eq_nil_iff_forall_not_mem.mpr ?_⟩
        intro triple member
        have kept := (same.trusted triple).mpr member
        simp [PipelineStep.perform, clearGraph] at kept
      · rintro ⟨reinstates, none⟩
        refine ⟨reinstates_iff.mpr reinstates, fun triple => ?_⟩
        simp [PipelineStep.perform, clearGraph, none]
  | _ :: _ :: _ :: _ :: _ :: rest => simp at cut

/-- A call that fails leaves both graphs as they were exactly if they and the text spare it at the
operation that fails. -/
theorem replacePipeline_error_unchanged_iff :
    ((∃ reason, (replacePipelineOver parse fault ttl store).2 = .error reason) →
      SameStore (replacePipelineOver parse fault ttl store).1 store) ↔
    Spared (loadedGraph parse ttl) store (firstFailure parse fault ttl) := by
  cases failure : firstFailure parse fault ttl with
  | none =>
      apply iff_of_true _ trivial
      rintro ⟨reason, failed⟩
      have succeed := List.find?_eq_none.mp failure
      rw [replacePipelineOver, runPipeline_done] at failed
      · cases failed
      · intro step member
        exact eq_false_of_ne_true (succeed step member)
  | some step =>
      obtain ⟨failed, front, back, cut, earlier⟩ := List.find?_eq_some_iff_append.mp failure
      have succeed : ∀ other ∈ front, other.fails parse fault ttl = false := by
        intro other member
        simpa using earlier other member
      obtain ⟨reason, outcome⟩ := runPipeline_failed back succeed failed store
      rw [← sameStore_iff_spared cut, replacePipelineOver, cut, outcome]
      exact ⟨fun unchanged => unchanged ⟨reason, rfl⟩, fun same _ => same⟩

def pipelineStore : Dataset := ⟨bundleGraph "new".toList, fun _ => []⟩

def noTurtle : Text := "oops".toList

/-- A text that is no Turtle clears the pipeline that the store holds. -/
theorem unparsed_pipeline_clears :
    ¬ ((∃ reason, (replacePipelineOver bundleParse (fun _ => none) noTurtle pipelineStore).2 =
        .error reason) →
      SameStore (replacePipelineOver bundleParse (fun _ => none) noTurtle pipelineStore).1
        pipelineStore) := by
  have failed : bundleParse (turtleDocument noTurtle) = .error "unexpected document".toList := by
    have texts : noTurtle ≠ bundleTtl ∧ noTurtle ≠ peerTtl := by decide
    have documents : ∀ other, noTurtle ≠ other →
        turtleDocument noTurtle ≠ turtleDocument other := by
      intro other differ same
      unfold turtleDocument at same
      rw [List.append_assoc, List.append_assoc] at same
      exact differ (List.append_cancel_right (List.append_cancel_left same))
    unfold bundleParse
    rw [if_neg (documents _ texts.1), if_neg (documents _ texts.2)]
  rw [replacePipelineOver_reliable, replacePipeline, insertTurtle_error failed]
  intro unchanged
  have cleared := sameStore_resetPipeline_iff.mp (unchanged ⟨_, rfl⟩) bundleNode
  apply cleared
  left
  exact Graph.mem_instances.mpr (List.mem_cons_self ..)

end Unchanged

end LeanAntenna
