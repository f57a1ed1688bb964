import Antenna.DagCore
import Antenna.Library.Replay

/-!
`health_check` over runs in which the node threads finish at any time. It remembers the dead by the
names of their threads, and a name holds no more than the end of the URI.
-/

namespace LeanAntenna

open Text Replay FirstWins

def rsplitOnce (separator : Char) (text : Text) : Option (Text × Text) :=
  (splitOnce separator text.reverse).map fun (back, front) => (front.reverse, back.reverse)

def shortUri (uri : Text) : Text :=
  (((rsplitOnce '#' uri).or ((rsplitOnce '/' uri).or (rsplitOnce ':' uri))).map Prod.snd).getD uri

def DagThread.name : DagThread → Text
  | .node thread => "node:".toList ++ shortUri thread.uri
  | .router thread => "router:".toList ++ shortUri thread.uri

/-- Two threads share a name if they are of one kind and their URIs end alike. -/
theorem DagThread.name_eq_iff (left right : DagThread) :
    left.name = right.name ↔ match left, right with
      | .node left, .node right => shortUri left.uri = shortUri right.uri
      | .router left, .router right => shortUri left.uri = shortUri right.uri
      | _, _ => False := by
  have kinds : ∀ front back : Text, "node:".toList ++ front ≠ "router:".toList ++ back := by
    intro front back same
    have first := congrArg List.head? same
    rw [List.head?_append_of_ne_nil _ (by decide), List.head?_append_of_ne_nil _ (by decide)] at first
    exact absurd first (by decide)
  cases left with
  | node left =>
      cases right with
      | node right => exact List.append_right_inj _
      | router right => exact iff_of_false (kinds _ _) id
  | router left =>
      cases right with
      | node right => exact iff_of_false (Ne.symm (kinds _ _)) id
      | router right => exact List.append_right_inj _

namespace Dag

/-- `Dag::health_check` once the threads at these places have finished: the newly dead, and all that
were ever reported. -/
def healthCheck (dag : Dag) (finished : List Nat) (reportedDead : List Text) :
    List Text × List Text :=
  dag.threads.zipIdx.foldl
    (fun (newlyDead, reportedDead) ((thread, _), place) =>
      if place ∈ finished then
        if thread.name ∈ reportedDead then (newlyDead, reportedDead)
        else (newlyDead ++ [thread.name], reportedDead ++ [thread.name])
      else (newlyDead, reportedDead))
    ([], reportedDead)

/-- The names of the threads at these places, in the order of the DAG. -/
def namesOf (dag : Dag) (places : List Nat) : List Text :=
  (dag.threads.zipIdx.filter (·.2 ∈ places)).map (·.1.1.name)

end Dag

/-- The threads that have finished, by their places, and what the calls have left and returned. The
threads that had finished at the last call are noted beside it. -/
structure Health where
  finished : List Nat
  reportedDead : List Text
  returned : List (List Text)
  seen : List Nat

inductive HealthAction where
  | finish (place : Nat)
  | check
deriving DecidableEq, Repr

namespace Health

def start : Health := ⟨[], [], [], []⟩

def finish (dag : Dag) (health : Health) (place : Nat) : Health :=
  if place < dag.threads.length ∧ place ∉ health.finished then
    { health with finished := health.finished ++ [place] }
  else health

def check (dag : Dag) (health : Health) : Health :=
  let (newlyDead, reportedDead) := dag.healthCheck health.finished health.reportedDead
  { health with
    reportedDead
    returned := health.returned ++ [newlyDead]
    seen := health.finished }

def step (dag : Dag) (health : Health) : HealthAction → Health
  | .finish place => health.finish dag place
  | .check => health.check dag

/-- The threads that have finished since the last call. -/
def fresh (health : Health) : List Nat := health.finished.filter (· ∉ health.seen)

/-- A call returns the names of the threads that have finished since the call before, and as many
names have been returned as threads have finished. -/
def Reports (dag : Dag) (health : Health) (action : HealthAction) : Prop :=
  action = .check →
    (health.check dag).returned = health.returned ++ [dag.namesOf health.fresh] ∧
      (health.check dag).returned.flatten.length = health.finished.length

/-- No two threads that have finished have the same name. -/
def Apart (dag : Dag) (health : Health) (action : HealthAction) : Prop :=
  action = .check → (dag.namesOf health.finished).Nodup

end Health

section Names

/-- The loop adds the names of the finished threads to the reported ones. -/
theorem healthCheck_eq (dag : Dag) (finished : List Nat) (reported : List Text) :
    addExtras reported (dag.namesOf finished) =
        reported ++ (dag.healthCheck finished reported).1 ∧
      (dag.healthCheck finished reported).2 =
        reported ++ (dag.healthCheck finished reported).1 := by
  unfold Dag.healthCheck Dag.namesOf
  have loop : ∀ (entries : List ((DagThread × List Text) × Nat)) (newly : List Text),
      let result := entries.foldl
        (fun (newlyDead, reportedDead) ((thread, _), place) =>
          if place ∈ finished then
            if thread.name ∈ reportedDead then (newlyDead, reportedDead)
            else (newlyDead ++ [thread.name], reportedDead ++ [thread.name])
          else (newlyDead, reportedDead))
        (newly, reported ++ newly)
      addExtras (reported ++ newly) ((entries.filter (·.2 ∈ finished)).map (·.1.1.name)) =
          reported ++ result.1 ∧
        result.2 = reported ++ result.1 := by
    intro entries
    induction entries with
    | nil => exact fun newly => ⟨rfl, rfl⟩
    | cons entry entries ih =>
        intro newly
        obtain ⟨⟨thread, outs⟩, place⟩ := entry
        dsimp only
        rw [List.foldl_cons]
        by_cases dead : place ∈ finished
        · rw [List.filter_cons_of_pos (by simpa using dead), List.map_cons]
          by_cases known : thread.name ∈ reported ++ newly
          · have kept : addExtras (reported ++ newly) (thread.name ::
                (entries.filter (·.2 ∈ finished)).map (·.1.1.name)) =
                addExtras (reported ++ newly)
                  ((entries.filter (·.2 ∈ finished)).map (·.1.1.name)) := by
              rw [addExtras_cons, if_pos known]
            rw [kept]
            simp only [dead, known, if_true]
            exact ih newly
          · have grown : addExtras (reported ++ newly) (thread.name ::
                (entries.filter (·.2 ∈ finished)).map (·.1.1.name)) =
                addExtras (reported ++ (newly ++ [thread.name]))
                  ((entries.filter (·.2 ∈ finished)).map (·.1.1.name)) := by
              rw [addExtras_cons, if_neg known, List.append_assoc]
            rw [grown]
            simp only [dead, known, if_true, if_false, List.append_assoc]
            exact ih (newly ++ [thread.name])
        · rw [List.filter_cons_of_neg (by simpa using dead)]
          simp only [dead, if_false]
          exact ih newly
  simpa using loop dag.threads.zipIdx []

/-- The names of all threads. -/
def Dag.threadNames (dag : Dag) : List Text := dag.threads.map (·.1.name)

theorem threadNames_eq (dag : Dag) : dag.threadNames = dag.threads.zipIdx.map (·.1.1.name) := by
  conv_lhs => rw [Dag.threadNames, ← List.zipIdx_map_fst 0 dag.threads, List.map_map]
  rfl

theorem namesOf_sublist (dag : Dag) (places : List Nat) :
    (dag.namesOf places).Sublist dag.threadNames := by
  rw [threadNames_eq]
  exact List.filter_sublist.map _

theorem namesOf_all (dag : Dag) {places : List Nat}
    (every : ∀ place < dag.threads.length, place ∈ places) :
    dag.namesOf places = dag.threadNames := by
  rw [threadNames_eq, Dag.namesOf, List.filter_eq_self.mpr]
  intro entry member
  simpa using every _ (List.snd_lt_of_mem_zipIdx member)

theorem length_namesOf (dag : Dag) {places : List Nat} (once : places.Nodup)
    (known : ∀ place ∈ places, place < dag.threads.length) :
    (dag.namesOf places).length = places.length := by
  have indices : (dag.threads.zipIdx.filter (·.2 ∈ places)).map Prod.snd =
      (List.range dag.threads.length).filter (· ∈ places) := by
    rw [List.range_eq_range', ← List.zipIdx_map_snd 0 dag.threads, List.filter_map]
    rfl
  have same : ((List.range dag.threads.length).filter (· ∈ places)).Perm places := by
    rw [List.perm_ext_iff_of_nodup (List.nodup_range.filter _) once]
    intro place
    simpa using known place
  rw [Dag.namesOf, List.length_map, ← same.length_eq, ← indices, List.length_map]

theorem namesOf_split (dag : Dag) {seen finished : List Nat}
    (within : ∀ place ∈ seen, place ∈ finished) :
    (dag.namesOf seen ++ dag.namesOf (finished.filter (· ∉ seen))).Perm (dag.namesOf finished) := by
  unfold Dag.namesOf
  rw [← List.map_append]
  apply List.Perm.map
  have parts := List.filter_append_perm (fun entry : (DagThread × List Text) × Nat => entry.2 ∈ seen)
    (dag.threads.zipIdx.filter (·.2 ∈ finished))
  rw [List.filter_filter, List.filter_filter] at parts
  convert parts using 2
  · apply List.filter_congr
    intro entry _
    simpa using within entry.2
  · apply List.filter_congr
    intro entry _
    simp [Bool.and_comm]

end Names

namespace Health

/-- What holds between two calls of a run whose calls found the finished threads apart. -/
structure Tracking (dag : Dag) (health : Health) : Prop where
  places : ∀ place ∈ health.finished, place < dag.threads.length
  once : health.finished.Nodup
  within : ∀ place ∈ health.seen, place ∈ health.finished
  known : ∀ name, name ∈ health.reportedDead ↔ name ∈ dag.namesOf health.seen
  reported : health.reportedDead.Nodup
  apart : (dag.namesOf health.seen).Nodup
  counted : health.returned.flatten.length = (dag.namesOf health.seen).length

variable {dag : Dag} {health : Health}

theorem tracking_start (dag : Dag) : start.Tracking dag where
  places := by simp [start]
  once := List.nodup_nil
  within := by simp [start]
  known := by simp [start, Dag.namesOf]
  reported := List.nodup_nil
  apart := by simp [start, Dag.namesOf]
  counted := by simp [start, Dag.namesOf]

theorem Tracking.finish (tracking : health.Tracking dag) (place : Nat) :
    (health.finish dag place).Tracking dag := by
  unfold Health.finish
  split
  · rename_i fits
    obtain ⟨below, absent⟩ := fits
    refine { tracking with places := ?_, once := ?_, within := ?_ }
    · intro other member
      rcases List.mem_append.mp member with earlier | last
      · exact tracking.places other earlier
      · rw [List.mem_singleton.mp last]
        exact below
    · rw [List.nodup_append]
      refine ⟨tracking.once, List.nodup_singleton _, ?_⟩
      intro earlier member other last same
      rw [List.mem_singleton] at last
      exact absent (last ▸ same ▸ member)
    · exact fun other member => List.mem_append_left _ (tracking.within other member)
  · exact tracking

/-- What the call adds to the reported names. -/
theorem Tracking.newly (tracking : health.Tracking dag) :
    let newlyDead := (dag.healthCheck health.finished health.reportedDead).1
    newlyDead.Nodup ∧ (∀ name ∈ newlyDead, name ∉ dag.namesOf health.seen) ∧
      ∀ name, name ∈ health.reportedDead ++ newlyDead ↔ name ∈ dag.namesOf health.finished := by
  obtain ⟨grown, -⟩ := healthCheck_eq dag health.finished health.reportedDead
  have distinct := addExtras_nodup tracking.reported (dag.namesOf health.finished)
  rw [grown, List.nodup_append] at distinct
  obtain ⟨-, newly, apart⟩ := distinct
  refine ⟨newly, ?_, ?_⟩
  · intro name member seen
    exact apart name ((tracking.known name).mpr seen) name member rfl
  · intro name
    rw [← grown, mem_addExtras, tracking.known, ← (namesOf_split dag tracking.within).mem_iff,
      List.mem_append]
    tauto

/-- Where the finished threads have different names, the reported names tell which of them were seen. -/
theorem Tracking.reported_iff (tracking : health.Tracking dag)
    (apart : (dag.namesOf health.finished).Nodup) {entry : (DagThread × List Text) × Nat}
    (member : entry ∈ dag.threads.zipIdx) (dead : entry.2 ∈ health.finished) :
    entry.1.1.name ∈ health.reportedDead ↔ entry.2 ∈ health.seen := by
  rw [tracking.known]
  constructor
  · intro named
    obtain ⟨other, seen, same⟩ := List.mem_map.mp named
    obtain ⟨within, noted⟩ := List.mem_filter.mp seen
    have also : other.2 ∈ health.seen := by simpa using noted
    have equal := List.inj_on_of_nodup_map apart
      (List.mem_filter.mpr ⟨within, by simpa using tracking.within _ also⟩)
      (List.mem_filter.mpr ⟨member, by simpa using dead⟩) same
    exact equal ▸ also
  · intro seen
    exact List.mem_map_of_mem (f := fun entry : (DagThread × List Text) × Nat => entry.1.1.name)
      (List.mem_filter.mpr ⟨member, by simpa using seen⟩)

theorem Tracking.reports_iff (tracking : health.Tracking dag) (action : HealthAction) :
    health.Reports dag action ↔ health.Apart dag action := by
  unfold Reports Apart
  apply imp_congr_right
  rintro rfl
  have split := namesOf_split dag tracking.within
  have results : (health.check dag).returned =
      health.returned ++ [(dag.healthCheck health.finished health.reportedDead).1] := rfl
  obtain ⟨distinct, unseen, -⟩ := tracking.newly
  rw [results, List.append_cancel_left_eq, List.cons.injEq, and_iff_left rfl, List.flatten_concat,
    List.length_append, tracking.counted]
  constructor
  · rintro ⟨fresh, -⟩
    rw [← split.nodup_iff, List.nodup_append]
    refine ⟨tracking.apart, fresh ▸ distinct, ?_⟩
    intro name seen other later same
    exact unseen other (by rw [fresh]; exact later) (same ▸ seen)
  · intro apart
    have fresh : (dag.healthCheck health.finished health.reportedDead).1 =
        dag.namesOf health.fresh := by
      have grown := (healthCheck_eq dag health.finished health.reportedDead).1
      rw [addExtras_of_nodup apart, List.append_cancel_left_eq] at grown
      rw [← grown]
      unfold Dag.namesOf
      rw [List.filter_map, List.filter_filter]
      congr 1
      apply List.filter_congr
      intro entry member
      by_cases dead : entry.2 ∈ health.finished
      · have seen := tracking.reported_iff apart member dead
        simp [fresh, dead, seen]
      · simp [fresh, dead]
    refine ⟨fresh, ?_⟩
    rw [fresh, ← List.length_append, ← length_namesOf dag tracking.once tracking.places]
    exact split.length_eq

theorem Tracking.step (tracking : health.Tracking dag) (action : HealthAction)
    (apart : health.Apart dag action) : (health.step dag action).Tracking dag := by
  have reports := (tracking.reports_iff action).mpr apart
  cases action with
  | finish place => exact tracking.finish place
  | check =>
      obtain ⟨-, -, known⟩ := tracking.newly
      obtain ⟨grown, same⟩ := healthCheck_eq dag health.finished health.reportedDead
      refine ⟨tracking.places, tracking.once, fun _ => id, ?_, ?_, apart rfl, ?_⟩
      · intro name
        show name ∈ (dag.healthCheck health.finished health.reportedDead).2 ↔
          name ∈ dag.namesOf health.finished
        rw [same]
        exact known name
      · have distinct := addExtras_nodup tracking.reported (dag.namesOf health.finished)
        rw [grown, ← same] at distinct
        exact distinct
      · exact (reports rfl).2.trans (length_namesOf dag tracking.once tracking.places).symm

theorem finished_range (dag : Dag) {count : Nat} (bound : count ≤ dag.threads.length) :
    (replay (step dag) start ((List.range count).map .finish)).finished = List.range count := by
  induction count with
  | zero => rfl
  | succ count ih =>
      rw [List.range_succ, List.map_append, replay_append]
      have before := ih (Nat.le_of_succ_le bound)
      generalize replay (step dag) start ((List.range count).map .finish) = health at before
      show (health.finish dag count).finished = _
      rw [finish, before, if_pos ⟨bound, List.not_mem_range_self⟩]

end Health

/-- In every run each call reports exactly the threads that have finished since the call before, as
long as no two finished threads share a name; so all runs are sound exactly if no two threads do. -/
theorem health_check_exact_iff (dag : Dag) :
    (∀ actions, Throughout (Health.step dag) (Health.Reports dag) .start actions ↔
      Throughout (Health.step dag) (Health.Apart dag) .start actions) ∧
    ((∀ actions, Throughout (Health.step dag) (Health.Reports dag) .start actions) ↔
      dag.threadNames.Nodup) := by
  have each : ∀ actions, Throughout (Health.step dag) (Health.Reports dag) .start actions ↔
      Throughout (Health.step dag) (Health.Apart dag) .start actions := fun actions =>
    @throughout_iff_of_invariant _ _ _ _ (Health.Tracking dag) (Health.Apart dag)
      (fun _ action tracking apart => tracking.step action apart)
      (fun _ action tracking => tracking.reports_iff action) _ _ (Health.tracking_start dag)
  refine ⟨each, ?_⟩
  simp only [each]
  constructor
  · intro every
    have last := (throughout_append.mp (every ((List.range dag.threads.length).map .finish ++
      [.check]))).2.1 rfl
    rw [Health.finished_range dag le_rfl, namesOf_all dag fun place => List.mem_range.mpr] at last
    exact last
  · intro distinct actions
    apply @throughout_of_invariant _ _ _ _ (fun _ => True) (fun _ _ => True)
      (fun _ _ _ _ => trivial) _ _ _ trivial (throughout_action.mpr fun _ _ => trivial)
    intro health action _ _ _
    exact distinct.sublist (namesOf_sublist dag health.finished)

def scriptAt (uri : Text) : ScriptNodeDef where
  uri
  body := "emit(1)".toList
  language := "javascript".toList
  ins := [antennaIri "clock"]
  outs := []
  whereClause := none

/-- A DAG of two script nodes whose URIs end alike. -/
def namesakes : Dag :=
  (Dag.empty.addNode (scriptAt "http://a/lib#main".toList)).addNode
    (scriptAt "http://b/lib#main".toList)

/-- The second of them dies unreported. -/
theorem namesake_unreported :
    ¬ ∀ (dag : Dag) (actions : List HealthAction),
      Throughout (Health.step dag) (Health.Reports dag) .start actions := by
  intro every
  have last := (every namesakes [.finish 0, .check, .finish 1, .check]).2.2.2.1 rfl
  exact absurd last.2 (by decide)

end LeanAntenna
