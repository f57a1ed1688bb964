import Antenna.BootChecks
import Antenna.EmbeddedRuns
import Antenna.ThemeBundle

/-!
The first tick after a boot: the theme bundle goes out, then the account is loaded or onboarding is
announced, once, in front of everything else that the run does.
-/

namespace LeanAntenna

open Text Replay Rdf

/-- The two activities that a tick runs through and only the first one of a run performs. -/
def Activity.once {Carrier : Type} : Activity Carrier → Bool
  | .startup | .bootstrap => true
  | _ => false

theorem startup_route :
    route "[] a design:ResolveActiveTheme .".toList true = .design resolveThemeType := by
  decide

variable {Store Carrier : Type} {host : Host Store Carrier}

theorem handleDesign_messages (world : World Store Carrier) :
    (world.handleDesign host resolveThemeType).effects =
      world.effects ++ (designMessages host world).map .send := by
  have name : resolveThemeType.drop designNs.length = "ResolveActiveTheme".toList := List.drop_left
  cases resolved : host.resolveActiveTheme world.store with
  | ok triples =>
      rw [handleDesign_resolved world resolved, designMessages_resolved resolved]
      rfl
  | error reason =>
      unfold designMessages World.handleDesign
      rw [name, if_pos rfl, resolved]
      rfl

namespace Context

variable {context : Context Store Carrier}

/-- Startup and onboarding are behind. -/
structure Started (context : Context Store Carrier) : Prop where
  emitted : context.startupEmitted = true
  silent : context.bootstrapEmit = none

def begin (host : Host Store Carrier) (context : Context Store Carrier) : Context Store Carrier :=
  (context.startup host).bootstrap host

theorem startup_once (started : context.startupEmitted = true) : context.startup host = context := by
  rw [startup, if_pos started]

theorem startup_emitted : (context.startup host).startupEmitted = true := by
  unfold startup
  split
  · assumption
  · split <;> rfl

theorem begin_started : (context.begin host).Started := by
  unfold begin bootstrap
  split
  · exact ⟨startup_emitted, rfl⟩
  · rename_i silent
    exact ⟨startup_emitted, silent⟩

theorem perform_started (started : context.Started) (activity : Activity Carrier) :
    (context.perform host activity).Started := by
  obtain ⟨emitted, silent⟩ := started
  cases activity with
  | startup =>
      change (context.startup host).Started
      rw [startup_once emitted]
      exact ⟨emitted, silent⟩
  | bootstrap =>
      change (context.bootstrap host).Started
      rw [bootstrap, silent]
      exact ⟨emitted, silent⟩
  | clock carrier => exact ⟨emitted, silent⟩
  | event event =>
      change (context.handleEvent host event).Started
      simp only [handleEvent]
      split
      · exact ⟨emitted, silent⟩
      · exact ⟨emitted, silent⟩
  | line line =>
      simp only [perform]
      split
      · exact ⟨emitted, silent⟩
      · exact ⟨emitted, silent⟩
  | query sparql => exact ⟨emitted, silent⟩
  | emit line => exact ⟨emitted, silent⟩

theorem once_still (started : context.Started) {activity : Activity Carrier} (once : activity.once) :
    context.perform host activity = context := by
  cases activity with
  | startup => exact startup_once started.emitted
  | bootstrap =>
      change context.bootstrap host = context
      rw [bootstrap, started.silent]
  | _ => cases once

theorem effects_replay (context : Context Store Carrier) (activities : List (Activity Carrier)) :
    ∃ later, (replay (perform host) context activities).world.effects =
      context.world.effects ++ later := by
  induction activities generalizing context with
  | nil => exact ⟨[], (List.append_nil _).symm⟩
  | cons activity activities ih =>
      obtain ⟨later, grown⟩ := ih (context.perform host activity)
      have step : (context.perform host activity).world.effects =
          context.world.effects ++ (context.unlogged.perform host activity).world.effects := by
        conv_lhs => rw [← following_unlogged context, perform_following]
        rfl
      exact ⟨_, by rw [← List.append_assoc, ← step]; exact grown⟩

variable (host context) in
/-- The first tick begins, and from there on no tick starts up or announces again. -/
theorem ticks_begin (first : TickInputs Carrier) (ticks : List (TickInputs Carrier)) :
    replay (tick host) context (first :: ticks) =
      replay (perform host) (context.begin host)
        (((first :: ticks).flatMap TickInputs.activities).filter fun activity => !activity.once) := by
  rw [ticks_eq_replay]
  have opening : ∃ rest, (first :: ticks).flatMap TickInputs.activities =
      .startup :: .bootstrap :: rest := ⟨_, rfl⟩
  obtain ⟨rest, cut⟩ := opening
  rw [cut, List.filter_cons_of_neg (by simp [Activity.once]),
    List.filter_cons_of_neg (by simp [Activity.once])]
  have keeps : ∀ (state : Context Store Carrier) activity, state.Started →
      (state.perform host activity).Started :=
    fun state activity started => perform_started started activity
  exact replay_filter keeps (fun state activity started once => once_still started once)
    begin_started rest

/-- Before anything else the theme is resolved; then the load that was left to the worker is made. -/
theorem startup_effects (host : Host Store Carrier) (fresh : context.startupEmitted = false) :
    (context.startup host).world.effects = context.world.effects ++
        (designMessages host context.world).map .send ++
          context.pendingAccountLoad.toList.map (.call ∘ .loadAccount) ∧
      (context.startup host).bootstrapEmit = context.bootstrapEmit := by
  have dispatched : (dispatch host true context.accountId
      "[] a design:ResolveActiveTheme .".toList context.world).effects =
        context.world.effects ++ (designMessages host context.world).map .send := by
    rw [dispatch, startup_route]
    exact handleDesign_messages context.world
  unfold startup
  rw [if_neg (by simp [fresh])]
  cases pending : context.pendingAccountLoad with
  | none =>
      refine ⟨?_, rfl⟩
      change (dispatch host true context.accountId _ context.world).effects = _
      rw [dispatched]
      exact (List.append_nil _).symm
  | some id =>
      refine ⟨?_, rfl⟩
      change (dispatch host true context.accountId _ context.world).effects ++
        [.call (.loadAccount id)] = _
      rw [dispatched]
      rfl

/-- What happens to a line that the worker publishes. -/
def publishEffects (line : Text) : List Effect :=
  [.send line, .beforeInsert line, .insert line, .afterInsert line]

theorem begin_effects (fresh : context.startupEmitted = false) :
    (context.begin host).world.effects = context.world.effects ++
      (designMessages host context.world).map .send ++
        context.pendingAccountLoad.toList.map (.call ∘ .loadAccount) ++
          context.bootstrapEmit.toList.flatMap publishEffects := by
  obtain ⟨effects, waiting⟩ := startup_effects host fresh
  unfold begin bootstrap
  rw [waiting]
  cases context.bootstrapEmit with
  | none => simpa using effects
  | some line =>
      dsimp only
      simp [World.publish, World.insertTurtle, World.send, World.record, publishEffects, effects]

end Context

section Boot

variable {parse : Parser} {bundle : BootBundle} {inputs : BootInputs} {store after : Dataset}
  {bootHost : BootHost Carrier} {dag : Dag} {context : Context Dataset Carrier}

/-- What a boot does by itself: it mints an account if it is given none. -/
def mintEffects : Option Text → List Effect
  | none => [.call (.createAccount none none none)]
  | some _ => []

/-- What the first tick does about the account. -/
def accountEffects : Option Text → List Effect
  | none => []
  | some [] => Context.publishEffects onboardingRequired
  | some id => [.call (.loadAccount id)]

theorem bootAccount_effects {carrier : Carrier} {accountId : Option Text}
    (made : bootAccount bootHost after carrier accountId = .ok context) :
    context.startupEmitted = false ∧ context.world.effects = mintEffects accountId ∧
      context.pendingAccountLoad.toList.map (.call ∘ .loadAccount) ++
        context.bootstrapEmit.toList.flatMap Context.publishEffects = accountEffects accountId := by
  unfold bootAccount at made
  split at made
  · split at made
    · cases made
    · cases made
      exact ⟨rfl, rfl, rfl⟩
  · cases made
    exact ⟨rfl, rfl, rfl⟩
  · rename_i id nonempty
    cases made
    refine ⟨rfl, rfl, ?_⟩
    cases id with
    | nil => exact absurd rfl nonempty
    | cons c rest => rfl

/-- However the ticks of a run go: the resolved theme goes out first, then the account is loaded or
onboarding is announced, and from there on the run is what its ticks do besides starting up. -/
theorem startup_comes_first (worker : Host Dataset Carrier)
    (booted : newWithTtl parse bootHost bundle inputs store = (after, .ok (dag, context)))
    (first : TickInputs Carrier) (ticks : List (TickInputs Carrier)) :
    replay (Context.tick worker) context (first :: ticks) =
        replay (Context.perform worker) (context.begin worker)
          (((first :: ticks).flatMap TickInputs.activities).filter fun activity => !activity.once) ∧
      (context.begin worker).world.effects = mintEffects inputs.accountId ++
        (designMessages worker context.world).map .send ++ accountEffects inputs.accountId ∧
      ∃ later, (replay (Context.tick worker) context (first :: ticks)).world.effects =
        (context.begin worker).world.effects ++ later := by
  obtain ⟨-, -, carrier, made⟩ := newWithTtl_ok booted
  obtain ⟨fresh, minted, account⟩ := bootAccount_effects made
  have ticked := context.ticks_begin worker first ticks
  refine ⟨ticked, ?_, ?_⟩
  · rw [Context.begin_effects fresh, minted, List.append_assoc _ (List.map _ _), account]
  · rw [ticked]
    exact Context.effects_replay _ _

theorem startup_comes_first_sample :
    ∃ after dag, ∃ (context : Context Dataset Unit) (later : List Effect),
      newWithTtl bundleParse sampleHost sampleBundle sampleInputs pipelineStore =
        (after, .ok (dag, context)) ∧
      (replay (Context.tick datasetHost) context [peerTick]).world.effects =
        (themeBundle []).map .send ++ [.call (.loadAccount "a".toList)] ++ later := by
  obtain ⟨after, dag, booted⟩ := sample_boots
  obtain ⟨-, begun, later, grown⟩ := startup_comes_first datasetHost booted peerTick []
  refine ⟨after, dag, _, later, booted, ?_⟩
  have resolved : designMessages datasetHost (bootContext after () [] "a".toList none
      (some "a".toList)).world = themeBundle [] := designMessages_resolved rfl
  rw [grown, begun, resolved]
  rfl

end Boot

end LeanAntenna
