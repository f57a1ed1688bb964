import Antenna.Library.Replay
import Antenna.Library.Text

/-!
The script VM: `exec` sets the two globals, installs the source as the script body unless the VM
takes it for installed, and calls the body. The engine's compiler and the hasher are parameters.
-/

namespace LeanAntenna

open Replay

structure ScriptEngine (Hash : Type) where
  hash : Text → Hash
  compiles : Text → Bool

/-- `completes` says whether the body that this call evaluates returns or throws. -/
structure ScriptCall where
  source : Text
  input : Text
  channel : Text
  completes : Bool
deriving DecidableEq, Repr

structure Evaluation where
  body : Text
  input : Text
  channel : Text
deriving DecidableEq, Repr

inductive ScriptError where
  | nullByte
  | js
deriving DecidableEq, Repr

/-- `scriptBody` holds the source whose function is `globalThis.__scriptBody`. -/
structure ScriptVm (Hash : Type) where
  input : Text
  channel : Text
  scriptBody : Option Text
  installedSourceHash : Option Hash

def nul : Char := Char.ofNat 0

/-- `CString::new` -/
def cString (text : Text) : Option Text := if nul ∈ text then none else some text

def installProgram (source : Text) : Text :=
  "globalThis.__scriptBody = function() \x7b\n".toList ++ source ++
    "\n\x7d;\nglobalThis.__scriptBody();".toList

namespace ScriptVm

variable {Hash : Type} (vm : ScriptVm Hash)

def setGlobals (input channel : Text) : ScriptVm Hash :=
  { vm with
    input := (cString input).getD []
    channel := (cString channel).getD [] }

/-- Without a body to call the engine throws. -/
def callBody (completes : Bool) : Except ScriptError Evaluation :=
  match vm.scriptBody with
  | none => .error .js
  | some body => if completes then .ok ⟨body, vm.input, vm.channel⟩ else .error .js

end ScriptVm

namespace ScriptEngine

variable {Hash : Type} (engine : ScriptEngine Hash)

/-- The sources whose function gets assigned when they are installed. -/
def Installable (source : Text) : Prop :=
  nul ∉ source ∧ engine.compiles (installProgram source) = true

instance (source : Text) : Decidable (engine.Installable source) :=
  inferInstanceAs (Decidable (_ ∧ _))

def new : ScriptVm Hash := ⟨[], [], none, none⟩

/-- The assignment that the install program starts with; a program that does not compile executes
nothing. -/
def install (vm : ScriptVm Hash) (source : Text) : Except ScriptError (ScriptVm Hash) :=
  match cString (installProgram source) with
  | none => .error .nullByte
  | some program =>
      if engine.compiles program then .ok { vm with scriptBody := some source } else .error .js

variable [DecidableEq Hash]

/-- The hash is replaced before anything that can fail. -/
def exec (vm : ScriptVm Hash) (call : ScriptCall) :
    ScriptVm Hash × Except ScriptError Evaluation :=
  let ready := vm.setGlobals call.input call.channel
  if ready.installedSourceHash = some (engine.hash call.source) then
    (ready, ready.callBody call.completes)
  else
    let keyed := { ready with installedSourceHash := some (engine.hash call.source) }
    match engine.install keyed call.source with
    | .error reason => (keyed, .error reason)
    | .ok installed => (installed, installed.callBody call.completes)

def after (calls : List ScriptCall) : ScriptVm Hash :=
  replay (fun vm call => (engine.exec vm call).1) new calls

/-- A call that returns has evaluated its source on its input and channel. -/
def RunsSource (vm : ScriptVm Hash) (call : ScriptCall) : Prop :=
  ∀ evaluation, (engine.exec vm call).2 = .ok evaluation →
    evaluation = ⟨call.source, call.input, call.channel⟩

/-- The key of the VM names the body that it holds. -/
def KeyNamesBody (calls : List ScriptCall) (vm : ScriptVm Hash) : Prop :=
  ∀ call ∈ calls, vm.installedSourceHash = some (engine.hash call.source) →
    vm.scriptBody = some call.source

/-- What the calls so far and this one have to meet: a source that installs gets its input and
channel without null bytes, and one that does not is not given twice in a row once some other source
has been installed. -/
def Meets (front : List ScriptCall) (call : ScriptCall) : Prop :=
  if engine.Installable call.source then nul ∉ call.input ∧ nul ∉ call.channel
  else front.getLast?.map ScriptCall.source = some call.source →
    ∀ earlier ∈ front, ¬ engine.Installable earlier.source

section Steps

theorem cString_getD {text : Text} : (cString text).getD [] = text ↔ nul ∉ text := by
  unfold cString
  split
  · rename_i held
    apply iff_of_false _ (not_not.mpr held)
    rintro rfl
    cases held
  · rename_i free
    exact iff_of_true rfl free

theorem nul_mem_installProgram {source : Text} : nul ∈ installProgram source ↔ nul ∈ source := by
  have opening : nul ∉ "globalThis.__scriptBody = function() \x7b\n".toList := by decide
  have closing : nul ∉ "\n\x7d;\nglobalThis.__scriptBody();".toList := by decide
  unfold installProgram
  rw [List.mem_append, List.mem_append, or_iff_left closing, or_iff_right opening]

theorem installProgram_injective {left right : Text}
    (same : installProgram left = installProgram right) : left = right := by
  unfold installProgram at same
  rw [List.append_assoc, List.append_assoc] at same
  exact List.append_cancel_right (List.append_cancel_left same)

omit [DecidableEq Hash] in
theorem install_ok {vm : ScriptVm Hash} {source : Text} (installable : engine.Installable source) :
    engine.install vm source = .ok { vm with scriptBody := some source } := by
  obtain ⟨free, compiles⟩ := installable
  unfold install cString
  rw [if_neg fun held => free (nul_mem_installProgram.mp held)]
  exact if_pos compiles

omit [DecidableEq Hash] in
theorem install_error {vm : ScriptVm Hash} {source : Text}
    (blocked : ¬ engine.Installable source) :
    ∃ reason, engine.install vm source = .error reason := by
  unfold install cString
  split
  · exact ⟨_, rfl⟩
  · rename_i found
    split at found
    · cases found
    · rename_i free
      cases found
      refine ⟨_, if_neg ?_⟩
      intro compiles
      exact blocked ⟨fun held => free (nul_mem_installProgram.mpr held), compiles⟩

omit [DecidableEq Hash] in
/-- A body that is called runs the call's source exactly if it is that source and the globals were
set to the call's texts. -/
theorem callBody_runs (vm : ScriptVm Hash) (call : ScriptCall) :
    (∀ evaluation,
      (vm.setGlobals call.input call.channel).callBody call.completes = .ok evaluation →
        evaluation = ⟨call.source, call.input, call.channel⟩) ↔
    (call.completes = true → ∀ body, vm.scriptBody = some body →
      body = call.source ∧ nul ∉ call.input ∧ nul ∉ call.channel) := by
  rw [← cString_getD, ← cString_getD]
  unfold ScriptVm.callBody ScriptVm.setGlobals
  cases vm.scriptBody with
  | none => simp
  | some body => cases call.completes <;> simp

theorem exec_installed {vm : ScriptVm Hash} {call : ScriptCall}
    (installed : vm.installedSourceHash = some (engine.hash call.source)) :
    engine.exec vm call = (vm.setGlobals call.input call.channel,
      (vm.setGlobals call.input call.channel).callBody call.completes) := by
  unfold exec
  exact if_pos installed

theorem exec_hash (vm : ScriptVm Hash) (call : ScriptCall) :
    (engine.exec vm call).1.installedSourceHash = some (engine.hash call.source) := by
  by_cases installed : vm.installedSourceHash = some (engine.hash call.source)
  · rw [engine.exec_installed installed]
    exact installed
  · unfold exec
    simp only
    rw [if_neg (by exact installed)]
    by_cases installable : engine.Installable call.source
    · rw [engine.install_ok installable]
    · obtain ⟨reason, failed⟩ := engine.install_error installable
      rw [failed]

theorem exec_body {vm : ScriptVm Hash} {call : ScriptCall}
    (fresh : vm.installedSourceHash ≠ some (engine.hash call.source)) :
    (engine.exec vm call).1.scriptBody =
      if engine.Installable call.source then some call.source else vm.scriptBody := by
  unfold exec
  simp only
  rw [if_neg (by exact fresh)]
  split
  · rename_i reason failed
    rw [if_neg]
    · rfl
    · intro installable
      rw [engine.install_ok installable] at failed
      cases failed
  · rename_i installed done
    by_cases installable : engine.Installable call.source
    · rw [engine.install_ok installable] at done
      cases done
      rw [if_pos installable]
    · obtain ⟨reason, failed⟩ := engine.install_error installable
      rw [failed] at done
      cases done

end Steps

section Runs

/-- Distinct sources among the calls have distinct hashes. -/
def Distinct (calls : List ScriptCall) : Prop :=
  ∀ left ∈ calls, ∀ right ∈ calls, engine.hash left.source = engine.hash right.source →
    left.source = right.source

/-- The source that was installed last. -/
def lastInstalled (calls : List ScriptCall) : Option Text :=
  ((calls.filter fun call => engine.Installable call.source).getLast?).map ScriptCall.source

theorem after_append (front : List ScriptCall) (call : ScriptCall) :
    engine.after (front ++ [call]) = (engine.exec (engine.after front) call).1 := by
  unfold after
  rw [replay_append]
  rfl

theorem after_hash (calls : List ScriptCall) :
    (engine.after calls).installedSourceHash =
      calls.getLast?.map fun call => engine.hash call.source := by
  rcases List.eq_nil_or_concat calls with rfl | ⟨front, call, rfl⟩
  · rfl
  · rw [List.concat_eq_append, after_append, exec_hash, List.getLast?_concat]
    rfl

/-- The key of the VM is that of a call exactly if the call repeats the source before it. -/
theorem after_installed {front : List ScriptCall} {call : ScriptCall}
    (distinct : engine.Distinct (front ++ [call])) :
    (engine.after front).installedSourceHash = some (engine.hash call.source) ↔
      front.getLast?.map ScriptCall.source = some call.source := by
  rw [after_hash, Option.map_eq_some_iff, Option.map_eq_some_iff]
  apply exists_congr
  intro last
  apply and_congr_right
  intro isLast
  constructor
  · apply distinct
    · exact List.mem_append_left _ (List.mem_of_getLast? isLast)
    · simp
  · intro same
    rw [same]

omit [DecidableEq Hash] in
theorem lastInstalled_repeat {front : List ScriptCall} {call : ScriptCall}
    (repeated : front.getLast?.map ScriptCall.source = some call.source) :
    engine.lastInstalled (front ++ [call]) = engine.lastInstalled front := by
  obtain ⟨last, isLast, same⟩ := Option.map_eq_some_iff.mp repeated
  obtain ⟨others, rfl⟩ := List.getLast?_eq_some_iff.mp isLast
  unfold lastInstalled
  rw [List.filter_append, List.filter_append, List.filter_singleton, List.filter_singleton, same]
  cases decide (engine.Installable call.source) <;> simp [same]

omit [DecidableEq Hash] in
theorem lastInstalled_append {front : List ScriptCall} {call : ScriptCall} :
    engine.lastInstalled (front ++ [call]) =
      if engine.Installable call.source then some call.source else engine.lastInstalled front := by
  unfold lastInstalled
  rw [List.filter_append, List.filter_singleton]
  by_cases installable : engine.Installable call.source <;> simp [installable]

omit [DecidableEq Hash] in
theorem installed_of_last {calls : List ScriptCall} {source : Text}
    (last : engine.lastInstalled calls = some source) :
    ∃ call ∈ calls, engine.Installable call.source ∧ call.source = source := by
  obtain ⟨call, isLast, same⟩ := Option.map_eq_some_iff.mp last
  obtain ⟨member, installable⟩ := List.mem_filter.mp (List.mem_of_getLast? isLast)
  exact ⟨call, member, of_decide_eq_true installable, same⟩

omit [DecidableEq Hash] in
theorem lastInstalled_isSome {calls : List ScriptCall} {call : ScriptCall}
    (member : call ∈ calls) (installable : engine.Installable call.source) :
    ∃ source, engine.lastInstalled calls = some source := by
  apply Option.isSome_iff_exists.mp
  rw [lastInstalled, Option.isSome_map, List.getLast?_isSome]
  exact List.ne_nil_of_mem (List.mem_filter.mpr ⟨member, decide_eq_true installable⟩)

/-- The body of the VM is the source that was installed last. -/
theorem after_body {calls : List ScriptCall} (distinct : engine.Distinct calls) :
    (engine.after calls).scriptBody = engine.lastInstalled calls := by
  induction calls using List.reverseRecOn with
  | nil => rfl
  | append_singleton front call ih =>
      have earlier := ih fun left inLeft right inRight =>
        distinct left (List.mem_append_left _ inLeft) right (List.mem_append_left _ inRight)
      rw [after_append]
      by_cases repeated : front.getLast?.map ScriptCall.source = some call.source
      · rw [engine.exec_installed ((engine.after_installed distinct).mpr repeated),
          engine.lastInstalled_repeat repeated]
        exact earlier
      · have fresh := mt (engine.after_installed distinct).mp repeated
        rw [engine.exec_body fresh, lastInstalled_append, earlier]

theorem runsSource_repeated {vm : ScriptVm Hash} {call : ScriptCall}
    (installed : vm.installedSourceHash = some (engine.hash call.source)) :
    engine.RunsSource vm call ↔
      (call.completes = true → ∀ body, vm.scriptBody = some body →
        body = call.source ∧ nul ∉ call.input ∧ nul ∉ call.channel) := by
  unfold RunsSource
  rw [engine.exec_installed installed]
  exact callBody_runs vm call

theorem runsSource_fresh {vm : ScriptVm Hash} {call : ScriptCall}
    (fresh : vm.installedSourceHash ≠ some (engine.hash call.source)) :
    engine.RunsSource vm call ↔
      (call.completes = true → engine.Installable call.source →
        nul ∉ call.input ∧ nul ∉ call.channel) := by
  unfold RunsSource exec
  simp only
  rw [if_neg (by exact fresh)]
  by_cases installable : engine.Installable call.source
  · rw [engine.install_ok installable]
    refine (callBody_runs { vm with
      scriptBody := some call.source
      installedSourceHash := some (engine.hash call.source) } call).trans ?_
    simp [installable]
  · obtain ⟨reason, failed⟩ := engine.install_error installable
    rw [failed]
    simp [installable]

/-- One call after a history runs its source exactly if it meets the condition. -/
theorem runsSource_iff {front : List ScriptCall} {call : ScriptCall}
    (distinct : engine.Distinct (front ++ [call])) :
    engine.RunsSource (engine.after front) call ↔
      (call.completes = true → engine.Meets front call) := by
  have body := engine.after_body (fun left inLeft right inRight =>
    distinct left (List.mem_append_left _ inLeft) right (List.mem_append_left _ inRight))
  by_cases repeated : front.getLast?.map ScriptCall.source = some call.source
  · rw [engine.runsSource_repeated ((engine.after_installed distinct).mpr repeated), body]
    apply imp_congr_right
    intro completes
    unfold Meets
    by_cases installable : engine.Installable call.source
    · have own : engine.lastInstalled front = some call.source := by
        rw [← engine.lastInstalled_repeat repeated, lastInstalled_append, if_pos installable]
      rw [own, if_pos installable]
      simp
    · rw [if_neg installable]
      constructor
      · intro same _ earlier member ok
        obtain ⟨source, last⟩ := engine.lastInstalled_isSome member ok
        obtain ⟨rfl, -⟩ := same source last
        obtain ⟨_, -, held, equal⟩ := engine.installed_of_last last
        rw [equal] at held
        exact installable held
      · intro none source last
        obtain ⟨found, member, held, -⟩ := engine.installed_of_last last
        exact absurd held (none repeated found member)
  · rw [engine.runsSource_fresh (mt (engine.after_installed distinct).mp repeated)]
    unfold Meets
    by_cases installable : engine.Installable call.source
    · simp [installable]
    · simp [installable, repeated]

theorem keyNamesBody_iff {calls : List ScriptCall} (distinct : engine.Distinct calls) :
    (∀ front, front <+: calls → engine.KeyNamesBody calls (engine.after front)) ↔
      ∀ call ∈ calls, engine.Installable call.source := by
  have within : ∀ front, front <+: calls → engine.Distinct front := by
    intro front isFront left inLeft right inRight
    exact distinct left (isFront.subset inLeft) right (isFront.subset inRight)
  constructor
  · intro names call member
    obtain ⟨front, back, rfl⟩ := List.append_of_mem member
    have isFront : front ++ [call] <+: front ++ call :: back := ⟨back, by simp⟩
    have body := names (front ++ [call]) isFront call member (by rw [after_hash]; simp)
    rw [engine.after_body (within _ isFront)] at body
    obtain ⟨_, -, held, equal⟩ := engine.installed_of_last body
    rw [equal] at held
    exact held
  · intro installable front isFront call member key
    rw [after_hash, Option.map_eq_some_iff] at key
    obtain ⟨last, isLast, hashes⟩ := key
    have same := distinct last (isFront.subset (List.mem_of_getLast? isLast)) call member hashes
    rw [engine.after_body (within _ isFront), lastInstalled, List.filter_eq_self.mpr, isLast]
    · exact congrArg some same
    · intro other inFront
      exact decide_eq_true (installable other (isFront.subset inFront))

/-- Every call that returns has run its source exactly if each call that returns meets the
condition, and the key always names the body exactly if all sources can be installed. -/
theorem exec_runs_source_iff {calls : List ScriptCall} (distinct : engine.Distinct calls) :
    (Throughout (fun vm call => (engine.exec vm call).1) engine.RunsSource new calls ↔
      ∀ front call back, calls = front ++ call :: back → call.completes = true →
        engine.Meets front call) ∧
    ((∀ front, front <+: calls → engine.KeyNamesBody calls (engine.after front)) ↔
      ∀ call ∈ calls, engine.Installable call.source) := by
  refine ⟨throughout_iff_cut.trans ?_, engine.keyNamesBody_iff distinct⟩
  apply forall_congr'
  intro front
  apply forall_congr'
  intro call
  apply forall_congr'
  intro back
  apply imp_congr_right
  rintro rfl
  apply engine.runsSource_iff
  intro left inLeft right inRight
  apply distinct
  · rcases List.mem_append.mp inLeft with member | member <;> simp_all
  · rcases List.mem_append.mp inRight with member | member <;> simp_all

end Runs

end ScriptEngine

/-- An engine that takes every source but `emit(`. -/
def emitEngine : ScriptEngine Text where
  hash source := source
  compiles program := decide (program ≠ installProgram "emit(".toList)

def emitCall (source : String) : ScriptCall := ⟨source.toList, "x".toList, "urn:c".toList, true⟩

theorem emitEngine_distinct (calls : List ScriptCall) : emitEngine.Distinct calls :=
  fun _ _ _ _ same => same

/-- Given twice in a row, a source with a syntax error runs the script before it. -/
theorem repeated_error_runs_old_body :
    emitEngine.Distinct [emitCall "emit(1)", emitCall "emit(", emitCall "emit("] ∧
    ¬ Throughout (fun vm call => (emitEngine.exec vm call).1) emitEngine.RunsSource
      ScriptEngine.new [emitCall "emit(1)", emitCall "emit(", emitCall "emit("] := by
  refine ⟨emitEngine_distinct _, ?_⟩
  intro runs
  have last := throughout_iff_cut.mp runs [emitCall "emit(1)", emitCall "emit("]
    (emitCall "emit(") [] rfl
  have meets := (emitEngine.runsSource_iff (emitEngine_distinct _)).mp last rfl
  have broken : ¬ emitEngine.Installable (emitCall "emit(").source := by
    rintro ⟨-, compiles⟩
    have other : installProgram "emit(".toList ≠ installProgram "emit(".toList :=
      of_decide_eq_true compiles
    exact other rfl
  have good : emitEngine.Installable (emitCall "emit(1)").source := by
    have other : installProgram "emit(1)".toList ≠ installProgram "emit(".toList := by
      intro same
      exact absurd (ScriptEngine.installProgram_injective same) (by decide)
    exact ⟨by decide, decide_eq_true other⟩
  unfold ScriptEngine.Meets at meets
  rw [if_neg broken] at meets
  exact meets rfl (emitCall "emit(1)") (by simp) good

theorem exec_runs_source_once :
    Throughout (fun vm call => (emitEngine.exec vm call).1) emitEngine.RunsSource
      ScriptEngine.new [emitCall "emit(1)"] := by
  apply (emitEngine.exec_runs_source_iff (emitEngine_distinct [emitCall "emit(1)"])).1.mpr
  intro front call back cut _
  unfold ScriptEngine.Meets
  cases front with
  | nil =>
      cases cut
      split
      · decide
      · simp
  | cons other front => simp at cut

end LeanAntenna
