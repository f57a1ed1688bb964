import Antenna.ReadyChecks

/-!
Which account the pending export path belongs to. The path lies in one slot that a command fills
before its account is created and that any ready account empties, so a history of the commands goes
along with the run.
-/

namespace LeanAntenna

open Text Replay

/-- A create or import command that named a path, with the carrier's answer to it. -/
structure ExportRequest where
  path : Text
  outcome : Except Text Text

/-- The context with the requests so far and the one whose path is pending. -/
structure Tracked (Store Carrier : Type) where
  context : Context Store Carrier
  requests : List ExportRequest
  owner : Option ExportRequest

variable {Store Carrier : Type} (host : Host Store Carrier)

def Activity.dispatchedLine : Activity Carrier → Option Text
  | .line text => if text = [] then none else some text
  | .emit text => some text
  | _ => none

namespace Context

/-- The request that a dispatched line makes. -/
def lineRequest (context : Context Store Carrier) (line : Text) : Option ExportRequest :=
  match route line true with
  | .carrier line rdfType => do
      let command ← Command.ofLocal (rdfType.drop carrierNs.length)
      let path ← command.autoExportPath (extractProperty line)
      let call ← (command.call (extractProperty line) context.accountId).toOption
      return ⟨path, (host.call context.world.carrier call).2⟩
  | _ => none

def request (context : Context Store Carrier) (activity : Activity Carrier) :
    Option ExportRequest :=
  activity.dispatchedLine.bind (context.lineRequest host)

end Context

/-- The event's line is that of a ready account. -/
def Activity.Readies (activity : Activity Carrier) : Prop :=
  ∃ event, activity = .event event ∧ contains (eventToTurtle event) accountReadyName = true

instance (activity : Activity Carrier) : Decidable activity.Readies := by
  cases activity with
  | event event =>
      exact decidable_of_iff (contains (eventToTurtle event) accountReadyName = true)
        ⟨fun like => ⟨event, rfl, like⟩, fun ⟨_, same, like⟩ => by cases same; exact like⟩
  | _ => exact isFalse (by rintro ⟨event, same, -⟩; contradiction)

namespace Tracked

def start (context : Context Store Carrier) : Tracked Store Carrier := ⟨context, [], none⟩

def step (tracked : Tracked Store Carrier) (activity : Activity Carrier) :
    Tracked Store Carrier where
  context := tracked.context.perform host activity
  requests := tracked.requests ++ (tracked.context.request host activity).toList
  owner :=
    if activity.Readies then none else (tracked.context.request host activity).or tracked.owner

/-- The auto-export of the step. -/
def Exports (tracked : Tracked Store Carrier) (activity : Activity Carrier) (account path : Text) :
    Prop :=
  activity.Readies ∧ .call (.exportAccount account path none) ∈
    added tracked.context (tracked.context.perform host activity)

/-- An account is exported only to the path of the request that returned it, and no request takes
the place of another's pending path. -/
structure Sound (tracked : Tracked Store Carrier) (activity : Activity Carrier) : Prop where
  exported : ∀ account path, tracked.Exports host activity account path →
    ∃ request ∈ tracked.requests, tracked.owner = some request ∧ request.path = path ∧
      request.outcome = .ok account
  failed : ∀ request reason, tracked.owner = some request → request.outcome = .error reason →
    ∀ account path, ¬ tracked.Exports host activity account path
  kept : ∀ request, tracked.context.request host activity = some request → tracked.owner = none

/-- A path is named only while none is pending, and a ready account finds a path pending only if
the account in force is the one its command returned. -/
structure Allowed (tracked : Tracked Store Carrier) (activity : Activity Carrier) : Prop where
  vacant : ∀ line path, activity.dispatchedLine = some line → requestedPath true line = some path →
    tracked.context.world.pendingAutoExport = none
  matching : ∀ event, activity = .event event →
    contains (eventToTurtle event) accountReadyName = true →
    ∀ request, tracked.owner = some request →
      let account := Context.accountInForce tracked.context.accountId (eventToTurtle event)
      account = [] ∨ request.outcome = .ok account

/-- The pending path is that of the owner, one of the requests. -/
def Owned (tracked : Tracked Store Carrier) : Prop :=
  tracked.context.world.pendingAutoExport = tracked.owner.map ExportRequest.path ∧
    ∀ request, tracked.owner = some request → request ∈ tracked.requests

end Tracked

section Requests

theorem lineRequest_path (context : Context Store Carrier) (line : Text) :
    (context.lineRequest host line).map ExportRequest.path = requestedPath true line := by
  unfold Context.lineRequest requestedPath
  cases route line true with
  | carrier line rdfType =>
      dsimp only
      cases Command.ofLocal (rdfType.drop carrierNs.length) with
      | none => rfl
      | some command =>
          cases named : command.autoExportPath (extractProperty line) with
          | none => simp [named]
          | some path =>
              have create : ∃ call, command.call (extractProperty line) context.accountId = .ok call := by
                cases command <;> first | exact ⟨_, rfl⟩ | contradiction
              obtain ⟨call, called⟩ := create
              simp [named, called, Except.toOption]
  | _ => rfl

theorem lineRequest_outcome {context : Context Store Carrier} {line : Text}
    {request : ExportRequest} (made : context.lineRequest host line = some request) :
    ∃ call, request.outcome = (host.call context.world.carrier call).2 := by
  unfold Context.lineRequest at made
  cases routed : route line true with
  | carrier line rdfType =>
      rw [routed] at made
      simp only [Option.bind_eq_bind, Option.bind_eq_some_iff, Option.pure_def, Option.some.injEq]
        at made
      obtain ⟨command, -, path, -, call, -, rfl⟩ := made
      exact ⟨call, rfl⟩
  | _ => simp [routed] at made

theorem continues_pending {before after : World Store Carrier} (continues : Continues before after) :
    after.pendingAutoExport = before.pendingAutoExport := continues.choose_spec.2.2

theorem startup_pending (context : Context Store Carrier) :
    (context.startup host).world.pendingAutoExport = context.world.pendingAutoExport := by
  have request : requestedPath true "[] a design:ResolveActiveTheme .".toList = none := by decide
  unfold Context.startup
  split
  · rfl
  · have dispatched := continues_dispatch context.world host true context.accountId
      "[] a design:ResolveActiveTheme .".toList
    rw [request, stash_none] at dispatched
    cases context.pendingAccountLoad with
    | none => exact continues_pending dispatched
    | some id => exact continues_pending (dispatched.trans (continues_callCarrier host _ (.loadAccount id)))

theorem dispatched_pending (context : Context Store Carrier) (line : Text) :
    (context.dispatched host context.accountId line).world.pendingAutoExport =
      ((context.lineRequest host line).map ExportRequest.path).or
        context.world.pendingAutoExport := by
  rw [lineRequest_path]
  exact continues_pending (continues_dispatch context.world host true context.accountId line)

/-- What an activity does to the pending path. -/
theorem perform_pending (context : Context Store Carrier) (activity : Activity Carrier) :
    (context.perform host activity).world.pendingAutoExport =
      if activity.Readies then none
      else ((context.request host activity).map ExportRequest.path).or
        context.world.pendingAutoExport := by
  by_cases ready : activity.Readies
  · rw [if_pos ready]
    obtain ⟨event, rfl, like⟩ := ready
    exact handleEvent_pending host context like
  · rw [if_neg ready]
    cases activity with
    | startup => exact startup_pending host context
    | bootstrap =>
        simp only [Context.perform, Context.bootstrap]
        cases context.bootstrapEmit <;> rfl
    | clock carrier => rfl
    | event event =>
        have unlike : ¬ contains (eventToTurtle event) accountReadyName = true :=
          fun like => ready ⟨event, rfl, like⟩
        rw [Context.perform, handleEvent_other host unlike]
        rfl
    | line text =>
        simp only [Context.perform, Context.request, Activity.dispatchedLine]
        split
        · rfl
        · exact dispatched_pending host context text
    | query sparql => rfl
    | emit text => exact dispatched_pending host context text

end Requests

section Runs

namespace Tracked

theorem replay_context (tracked : Tracked Store Carrier) (activities : List (Activity Carrier)) :
    (replay (step host) tracked activities).context =
      replay (Context.perform host) tracked.context activities := by
  induction activities generalizing tracked with
  | nil => rfl
  | cons activity activities ih => exact ih (tracked.step host activity)

theorem owned_step {tracked : Tracked Store Carrier} (owned : tracked.Owned)
    (activity : Activity Carrier) : (tracked.step host activity).Owned := by
  obtain ⟨pending, listed⟩ := owned
  refine ⟨?_, ?_⟩
  · simp only [step, perform_pending, pending]
    split
    · rfl
    · cases tracked.context.request host activity <;> rfl
  · intro request owner
    simp only [step] at owner ⊢
    split at owner
    · contradiction
    · cases made : tracked.context.request host activity with
      | none =>
          rw [made, Option.none_or] at owner
          simpa using listed request owner
      | some latest =>
          rw [made, Option.some_or, Option.some.injEq] at owner
          simp [owner]

theorem owned_replay {tracked : Tracked Store Carrier} (owned : tracked.Owned)
    (activities : List (Activity Carrier)) : (replay (step host) tracked activities).Owned := by
  induction activities generalizing tracked with
  | nil => exact owned
  | cons activity activities ih => exact ih (owned_step host owned activity)

theorem mem_autoExport {context : Context Store Carrier} {line account path : Text} :
    .call (.exportAccount account path none) ∈ context.autoExport line ↔
      context.world.pendingAutoExport = some path ∧ account ≠ [] ∧
        account = Context.accountInForce context.accountId line := by
  unfold Context.autoExport
  cases context.world.pendingAutoExport with
  | none => simp
  | some pending =>
      dsimp only
      split
      · rename_i empty
        simp only [List.not_mem_nil, Option.some.injEq, false_iff, not_and]
        rintro - named rfl
        exact named empty
      · rename_i named
        simp only [List.mem_singleton, Effect.call.injEq, CarrierCall.exportAccount.injEq,
          Option.some.injEq]
        constructor
        · rintro ⟨rfl, rfl, -⟩
          exact ⟨rfl, named, rfl⟩
        · rintro ⟨rfl, -, rfl⟩
          exact ⟨rfl, rfl, trivial⟩

/-- A ready account is exported when a path is pending and an account is in force. -/
theorem exports_iff {tracked : Tracked Store Carrier} {activity : Activity Carrier}
    {account path : Text} :
    tracked.Exports host activity account path ↔
      ∃ event, activity = .event event ∧
        contains (eventToTurtle event) accountReadyName = true ∧
        tracked.context.world.pendingAutoExport = some path ∧ account ≠ [] ∧
        account = Context.accountInForce tracked.context.accountId (eventToTurtle event) := by
  constructor
  · rintro ⟨⟨event, rfl, like⟩, exported⟩
    rw [Context.perform, added_ready host tracked.context like] at exported
    have inside : .call (.exportAccount account path none) ∈
        tracked.context.autoExport (eventToTurtle event) := by
      simpa [published] using exported
    exact ⟨event, rfl, like, mem_autoExport.mp inside⟩
  · rintro ⟨event, rfl, like, pending⟩
    refine ⟨⟨event, rfl, like⟩, ?_⟩
    rw [Context.perform, added_ready host tracked.context like]
    have inside := mem_autoExport.mpr pending
    simp [inside]

theorem kept_iff_vacant {tracked : Tracked Store Carrier} (owned : tracked.Owned)
    (activity : Activity Carrier) :
    (∀ request, tracked.context.request host activity = some request → tracked.owner = none) ↔
      ∀ line path, activity.dispatchedLine = some line → requestedPath true line = some path →
        tracked.context.world.pendingAutoExport = none := by
  rw [owned.1, Option.map_eq_none_iff, Context.request]
  cases activity.dispatchedLine with
  | none => simp
  | some line =>
      have named := lineRequest_path host tracked.context line
      simp only [Option.bind_some, Option.some.injEq]
      constructor
      · rintro kept _ path rfl asked
        rw [asked, Option.map_eq_some_iff] at named
        obtain ⟨request, made, -⟩ := named
        exact kept request made
      · intro vacant request made
        rw [made] at named
        exact vacant line request.path rfl named.symm

theorem exported_iff_matching {tracked : Tracked Store Carrier} (owned : tracked.Owned)
    (activity : Activity Carrier) :
    (∀ account path, tracked.Exports host activity account path →
      ∃ request ∈ tracked.requests, tracked.owner = some request ∧ request.path = path ∧
        request.outcome = .ok account) ↔
      ∀ event, activity = .event event →
        contains (eventToTurtle event) accountReadyName = true →
        ∀ request, tracked.owner = some request →
          let account := Context.accountInForce tracked.context.accountId (eventToTurtle event)
          account = [] ∨ request.outcome = .ok account := by
  obtain ⟨pending, listed⟩ := owned
  constructor
  · intro exported event same like request owner
    by_cases empty :
        Context.accountInForce tracked.context.accountId (eventToTurtle event) = []
    · exact Or.inl empty
    · have path : tracked.context.world.pendingAutoExport = some request.path := by
        rw [pending, owner, Option.map_some]
      obtain ⟨other, -, also, -, outcome⟩ := exported _ request.path
        ((exports_iff host).mpr ⟨event, same, like, path, empty, rfl⟩)
      rw [owner, Option.some.injEq] at also
      rw [also]
      exact Or.inr outcome
  · intro matching account path exports
    obtain ⟨event, same, like, waits, named, force⟩ := (exports_iff host).mp exports
    rw [pending, Option.map_eq_some_iff] at waits
    obtain ⟨request, owner, asked⟩ := waits
    refine ⟨request, listed request owner, owner, asked, ?_⟩
    rcases matching event same like request owner with empty | outcome
    · exact absurd (force.trans empty) named
    · rw [outcome, force]

theorem sound_iff_allowed {tracked : Tracked Store Carrier} (owned : tracked.Owned)
    (activity : Activity Carrier) :
    tracked.Sound host activity ↔ tracked.Allowed activity := by
  constructor
  · rintro ⟨exported, -, kept⟩
    exact ⟨(kept_iff_vacant host owned activity).mp kept,
      (exported_iff_matching host owned activity).mp exported⟩
  · rintro ⟨vacant, matching⟩
    have exported := (exported_iff_matching host owned activity).mpr matching
    refine ⟨exported, ?_, (kept_iff_vacant host owned activity).mpr vacant⟩
    intro request reason owner failed account path exports
    obtain ⟨other, -, also, -, outcome⟩ := exported account path exports
    rw [owner, Option.some.injEq] at also
    rw [← also, failed] at outcome
    contradiction

theorem throughout_sound_iff {tracked : Tracked Store Carrier} (owned : tracked.Owned)
    (activities : List (Activity Carrier)) :
    Throughout (step host) (Sound host) tracked activities ↔
      Throughout (step host) Allowed tracked activities := by
  induction activities generalizing tracked with
  | nil => exact Iff.rfl
  | cons activity activities ih =>
      rw [Throughout, Throughout, sound_iff_allowed host owned,
        ih (owned_step host owned activity)]

/-- In a run of ticks every auto-export is that of the account its path was requested for, exactly
if no path is named while another is pending and no account other than the one the pending path was
requested for is in force when a ready account arrives. -/
theorem ticks_sound_iff (context : Context Store Carrier)
    (vacant : context.world.pendingAutoExport = none) (ticks : List (TickInputs Carrier)) :
    let activities := ticks.flatMap TickInputs.activities
    (replay (step host) (start context) activities).context =
        replay (Context.tick host) context ticks ∧
      (Throughout (step host) (Sound host) (start context) activities ↔
        Throughout (step host) Allowed (start context) activities) := by
  refine ⟨?_, throughout_sound_iff host ⟨by simpa [start] using vacant, by simp [start]⟩ _⟩
  rw [replay_context, Context.ticks_eq_replay]
  rfl

end Tracked

end Runs

section Cases

/-- A context whose account is set and that waits for nothing. -/
def settled (account : Text) : Context Unit Unit where
  world := { store := (), carrier := (), pendingAutoExport := none, effects := [] }
  accountId := account
  bootstrapEmit := none
  pendingAccountLoad := none
  startupEmitted := true

def createHost (outcome : Except Text Text) : Host Unit Unit :=
  { idleHost with call := fun _ _ => ((), outcome) }

def backupPath : Text := "/backup".toList

def createLine : Text :=
  "[] a carrier:CreateAccount ; carrier:autoExportPath \"/backup\" .".toList

def readyEvent : CarrierEvent where
  timestamp := 0
  accountId := Vector.replicate 64 0
  data := .accountReady (Vector.replicate 128 0) (Vector.replicate 128 0)

/-- One tick that reads a create command, and one that hears of a ready account. -/
def createTicks : List (TickInputs Unit) :=
  [{ carrier := (), iterated := .ok (), events := [], lines := [createLine], queries := [],
      emits := [] },
    { carrier := (), iterated := .ok (), events := [readyEvent], lines := [], queries := [],
      emits := [] }]

theorem readyEvent_like : contains (eventToTurtle readyEvent) accountReadyName = true :=
  (contains_readyName_iff readyEvent).mpr (Or.inl rfl)

theorem createLine_request : requestedPath true createLine = some backupPath ∧
    createLine ≠ [] := by
  decide

theorem createLine_made (context : Context Unit Unit) (outcome : Except Text Text) :
    context.lineRequest (createHost outcome) createLine = some ⟨backupPath, outcome⟩ := by
  have named := lineRequest_path (createHost outcome) context createLine
  rw [createLine_request.1, Option.map_eq_some_iff] at named
  obtain ⟨request, made, path⟩ := named
  obtain ⟨call, answered⟩ := lineRequest_outcome (createHost outcome) made
  rw [made, ← path, ← show request.outcome = outcome from answered]

/-- Before the account becomes ready, the path of the create command is pending. -/
theorem created_pending (account : Text) (outcome : Except Text Text) :
    let created := replay (Tracked.step (createHost outcome)) (Tracked.start (settled account))
      [.startup, .bootstrap, .clock (), .line createLine, .startup, .bootstrap, .clock ()]
    created.Owned ∧ created.owner = some ⟨backupPath, outcome⟩ ∧
      created.context.accountId = account := by
  have made := createLine_made (settled account) outcome
  have asked : (settled account).request (createHost outcome) (.line createLine) =
      some ⟨backupPath, outcome⟩ := by
    rw [Context.request, Activity.dispatchedLine, if_neg createLine_request.2, Option.bind_some, made]
  have begun : (Tracked.start (settled account)).Owned := ⟨rfl, by simp [Tracked.start]⟩
  refine ⟨?_, ?_, rfl⟩
  · exact Tracked.owned_replay (createHost outcome) begun _
  · change (Context.request (createHost outcome) (settled account) (.line createLine)).or none = _
    rw [asked, Option.or_none]

theorem created_activities : createTicks.flatMap TickInputs.activities =
    [.startup, .bootstrap, .clock (), .line createLine, .startup, .bootstrap, .clock ()] ++
      [.event readyEvent] := rfl

theorem created_exports (outcome : Except Text Text) :
    let created := replay (Tracked.step (createHost outcome))
      (Tracked.start (settled "alice".toList))
      [.startup, .bootstrap, .clock (), .line createLine, .startup, .bootstrap, .clock ()]
    created.Exports (createHost outcome) (.event readyEvent) "alice".toList backupPath := by
  obtain ⟨⟨pending, -⟩, owner, force⟩ := created_pending "alice".toList outcome
  refine (Tracked.exports_iff _).mpr ⟨readyEvent, rfl, readyEvent_like, ?_, by decide, ?_⟩
  · rw [pending, owner, Option.map_some]
  · rw [force]
    exact (if_neg (by decide)).symm

/-- The path of a failed create command is exported for another account that becomes ready. -/
theorem failed_create_exports :
    let host := createHost (.error "no network".toList)
    let start := Tracked.start (settled "alice".toList)
    let created := replay (Tracked.step host) start
      [.startup, .bootstrap, .clock (), .line createLine, .startup, .bootstrap, .clock ()]
    created.owner = some ⟨backupPath, .error "no network".toList⟩ ∧
      created.Exports host (.event readyEvent) "alice".toList backupPath ∧
      ¬ Throughout (Tracked.step host) (Tracked.Sound host) start
        (createTicks.flatMap TickInputs.activities) := by
  intro host start created
  have owner := (created_pending "alice".toList (.error "no network".toList)).2.1
  have exports := created_exports (.error "no network".toList)
  refine ⟨owner, exports, ?_⟩
  intro holds
  rw [created_activities, throughout_append] at holds
  exact holds.2.1.failed _ _ owner rfl _ _ exports

/-- A create command that returns the account in force. -/
theorem ticks_sound_iff_alice :
    Throughout (Tracked.step (createHost (.ok "alice".toList)))
      (Tracked.Sound (createHost (.ok "alice".toList))) (Tracked.start (settled "alice".toList))
      (createTicks.flatMap TickInputs.activities) := by
  refine (Tracked.ticks_sound_iff (createHost (.ok "alice".toList)) (settled "alice".toList) rfl
    createTicks).2.mpr ?_
  obtain ⟨-, owner, force⟩ := created_pending "alice".toList (.ok "alice".toList)
  have quiet {tracked : Tracked Unit Unit} {activity : Activity Unit}
      (unread : activity.dispatchedLine = none) (unheard : ∀ event, activity ≠ .event event) :
      tracked.Allowed activity :=
    ⟨fun line path read => by simp [unread] at read, fun event same => absurd same (unheard event)⟩
  rw [created_activities, throughout_append]
  refine ⟨?_, ⟨by simp [Activity.dispatchedLine], ?_⟩, trivial⟩
  · refine ⟨quiet rfl (by simp), quiet rfl (by simp), quiet rfl (by simp), ?_, quiet rfl (by simp),
      quiet rfl (by simp), quiet rfl (by simp), trivial⟩
    exact ⟨fun _ _ _ _ => rfl, by simp⟩
  · intro event _ _ request held
    rw [owner, Option.some.injEq] at held
    subst held
    refine Or.inr ?_
    rw [force]
    exact congrArg Except.ok (if_neg (by decide)).symm

end Cases

end LeanAntenna
