import Antenna.DispatchSimulation
import Antenna.TickSteps

/-!
What the worker announces of its inserts on the channels `beforeInsert` and `afterInsert`, in runs
over a store that keeps the history of its inserts.
-/

namespace LeanAntenna

open Text Replay

/-- The lines that a store was asked to insert, each with whether it took it. -/
abbrev History := List (Text × Bool)

def Host.accepts {Store Carrier : Type} (host : Host Store Carrier) (store : Store) (line : Text) :
    Bool :=
  (host.insertTurtle store line).2.isOk

/-- The same host with a history of the inserts beside its store. -/
def Host.recording {Store Carrier : Type} (host : Host Store Carrier) :
    Host (Store × History) Carrier where
  query kept sparql := host.query kept.1 sparql
  update kept sparql := (((host.update kept.1 sparql).1, kept.2), (host.update kept.1 sparql).2)
  insertTurtle kept line :=
    (((host.insertTurtle kept.1 line).1, kept.2 ++ [(line, host.accepts kept.1 line)]),
      (host.insertTurtle kept.1 line).2)
  resolveActiveTheme kept := host.resolveActiveTheme kept.1
  verifySignedBlocklist := host.verifySignedBlocklist
  call := host.call

def afterInsertChannel : Text := antennaNs ++ "afterInsert".toList

/-- The line that an effect puts on the channel `afterInsert`. -/
def Effect.offered : Effect → Option Text
  | .afterInsert line => some line
  | .broadcast channel line => if channel = afterInsertChannel then some line else none
  | _ => none

/-- What a node subscribed to `afterInsert` is sent, in order. -/
def seenAfterInsert (effects : List Effect) : List Text := effects.filterMap Effect.offered

/-- An insert, an announcement of one, or a line on `afterInsert`. -/
def Effect.Storing : Effect → Prop
  | .beforeInsert _ | .insert _ | .afterInsert _ => True
  | .broadcast channel _ => channel = afterInsertChannel
  | _ => False

/-- The protocol of the inserts: each is announced before and, if the store took the line, after it.
The triples that a CONSTRUCT query sends are inserted without the DAG. -/
inductive Announced : List Effect → History → Prop
  | start : Announced [] []
  | other {effects history effect} : Announced effects history → ¬ effect.Storing →
      Announced (effects ++ [effect]) history
  | stored {effects history} (line) : Announced effects history →
      Announced (effects ++ [.beforeInsert line, .insert line, .afterInsert line])
        (history ++ [(line, true)])
  | refused {effects history} (line) : Announced effects history →
      Announced (effects ++ [.beforeInsert line, .insert line]) (history ++ [(line, false)])
  | constructed {effects history} (line accepted) : Announced effects history →
      Announced (effects ++ [.send line, .insert line]) (history ++ [(line, accepted)])
  | relayed {effects history line} : Announced effects history → (line, true) ∈ history →
      Announced (effects ++ [.broadcast afterInsertChannel line]) history

theorem mem_seenAfterInsert_append {effects added : List Effect} {line : Text} :
    line ∈ seenAfterInsert (effects ++ added) ↔
      line ∈ seenAfterInsert effects ∨ ∃ effect ∈ added, effect.offered = some line := by
  rw [seenAfterInsert, List.filterMap_append, List.mem_append, List.mem_filterMap (l := added)]
  rfl

theorem Announced.seen {effects : List Effect} {history : History}
    (announced : Announced effects history) :
    ∀ line ∈ seenAfterInsert effects, (line, true) ∈ history := by
  induction announced with
  | start => simp [seenAfterInsert]
  | @other effects history effect _ quiet ih =>
      intro seen member
      rcases mem_seenAfterInsert_append.mp member with earlier | ⟨last, added, offers⟩
      · exact ih seen earlier
      · rw [List.mem_singleton.mp added] at offers
        cases effect with
        | broadcast channel line =>
            have silent : (Effect.broadcast channel line).offered = none := if_neg quiet
            exact absurd offers (by simp [silent])
        | afterInsert line => exact absurd trivial quiet
        | _ => cases offers
  | stored line _ ih =>
      intro seen member
      rcases mem_seenAfterInsert_append.mp member with earlier | ⟨last, added, offers⟩
      · exact List.mem_append_left _ (ih seen earlier)
      · simp only [List.mem_cons, List.not_mem_nil, or_false] at added
        rcases added with rfl | rfl | rfl <;> cases offers
        simp
  | refused line _ ih =>
      intro seen member
      rcases mem_seenAfterInsert_append.mp member with earlier | ⟨last, added, offers⟩
      · exact List.mem_append_left _ (ih seen earlier)
      · simp only [List.mem_cons, List.not_mem_nil, or_false] at added
        rcases added with rfl | rfl <;> cases offers
  | constructed line accepted _ ih =>
      intro seen member
      rcases mem_seenAfterInsert_append.mp member with earlier | ⟨last, added, offers⟩
      · exact List.mem_append_left _ (ih seen earlier)
      · simp only [List.mem_cons, List.not_mem_nil, or_false] at added
        rcases added with rfl | rfl <;> cases offers
  | relayed _ stored ih =>
      intro seen member
      rcases mem_seenAfterInsert_append.mp member with earlier | ⟨last, added, offers⟩
      · exact ih seen earlier
      · rw [List.mem_singleton.mp added] at offers
        simp only [Effect.offered, if_true, Option.some.injEq] at offers
        rwa [← offers]

/-- The last announcement is of a line that the store has just taken. -/
theorem Announced.last {effects : List Effect} {history : History}
    (announced : Announced effects history) {line : Text}
    (ends : effects.getLast? = some (.afterInsert line)) : history.getLast? = some (line, true) := by
  cases announced with
  | start => cases ends
  | other _ quiet =>
      rw [List.getLast?_concat, Option.some.injEq] at ends
      subst ends
      exact absurd trivial quiet
  | stored other _ => simp_all
  | refused other _ => simp at ends
  | constructed other accepted _ => simp at ends
  | relayed _ _ => simp at ends

section Dispatched

variable {Store Carrier : Type}

/-- The worker's effects so far follow the protocol. -/
def World.Announces (world : World (Store × History) Carrier) : Prop :=
  Announced world.effects world.store.2

/-- A step that keeps to the protocol. -/
def Announcing (before after : World (Store × History) Carrier) : Prop :=
  before.Announces → after.Announces

theorem announcing_record {world : World (Store × History) Carrier} {effect : Effect}
    (quiet : ¬ effect.Storing) : Announcing world (world.record effect) :=
  fun announced => .other announced quiet

theorem announcing_send (world : World (Store × History) Carrier) (line : Text) :
    Announcing world (world.send line) := announcing_record id

variable (host : Host Store Carrier)

theorem announcing_insertWithDag (world : World (Store × History) Carrier) (line : Text) :
    Announcing world (world.insertWithDag host.recording line) := by
  intro announced
  have inserted : (world.record (.beforeInsert line)).insertTurtle host.recording line =
      (⟨((host.insertTurtle world.store.1 line).1,
          world.store.2 ++ [(line, host.accepts world.store.1 line)]), world.carrier,
        world.pendingAutoExport, world.effects ++ [.beforeInsert line] ++ [.insert line]⟩,
        (host.insertTurtle world.store.1 line).2) := rfl
  have taken : host.accepts world.store.1 line = (host.insertTurtle world.store.1 line).2.isOk := rfl
  rw [World.insertWithDag, inserted, taken]
  cases (host.insertTurtle world.store.1 line).2 with
  | error reason =>
      have refused := Announced.refused line announced
      rw [World.Announces]
      simpa [Except.isOk, Except.toBool] using refused
  | ok done =>
      have stored := Announced.stored line announced
      apply announcing_send
      rw [World.Announces]
      simpa [World.record, Except.isOk, Except.toBool] using stored

/-- A line of the worker's own is announced after the insert whatever its outcome. -/
theorem announces_publish_iff {world : World (Store × History) Carrier} {line : Text}
    (announced : world.Announces) :
    (world.publish host.recording line).Announces ↔ host.accepts world.store.1 line = true := by
  have sent := announcing_send world line announced
  have after : (world.publish host.recording line).Announces ↔
      Announced ((world.send line).effects ++
          [.beforeInsert line, .insert line, .afterInsert line])
        (world.store.2 ++ [(line, host.accepts world.store.1 line)]) := by
    unfold World.publish World.Announces
    simp [World.record, World.insertTurtle, Host.recording, World.send]
  rw [after]
  constructor
  · intro published
    have last := @published.last _ _ line (by simp)
    simpa using last
  · intro accepted
    rw [accepted]
    exact .stored line sent

theorem Effect.Quiet.other {effect : Effect} (quiet : effect.Quiet) : ¬ effect.Storing := by
  cases effect <;> first | exact id | cases quiet

/-- The router beside itself, as long as it keeps to the protocol. -/
theorem announcing_simulates : Simulates host.recording host.recording
    (fun (world other : World (Store × History) Carrier) => other = world ∧ world.Announces) where
  verify := rfl
  query := by
    rintro _ world ⟨rfl, -⟩
    rfl
  theme := by
    rintro _ world ⟨rfl, -⟩
    rfl
  update := by
    rintro _ world ⟨rfl, -⟩ sparql
    rfl
  call := by
    rintro _ world ⟨rfl, -⟩ call
    rfl
  recorded := by
    rintro _ world ⟨rfl, announced⟩ effect quiet
    exact ⟨rfl, announcing_record quiet.other announced⟩
  inserted := by
    rintro _ world ⟨rfl, announced⟩ line
    exact ⟨rfl, announcing_insertWithDag host _ line announced⟩
  constructed := by
    rintro _ world ⟨rfl, announced⟩ line
    have sent := Announced.constructed line (host.accepts world.store.1 line) announced
    refine ⟨rfl, ?_⟩
    rw [World.Announces]
    simpa [World.send, World.record, World.insertTurtle, Host.recording] using sent
  updated := by
    rintro _ world ⟨rfl, announced⟩ sparql
    exact ⟨rfl, Announced.other announced id⟩
  called := by
    rintro _ world ⟨rfl, announced⟩ call path
    exact ⟨rfl, Announced.other announced id⟩

theorem announcing_dispatch (hasCarrier : Bool) (defaultAccount line : Text)
    (world : World (Store × History) Carrier) :
    Announcing world (dispatch host.recording hasCarrier defaultAccount line world) := by
  intro announced
  exact ((announcing_simulates host).dispatch ⟨rfl, announced⟩ hasCarrier defaultAccount line).2

end Dispatched

/-- What happens in a run: the activities of the ticks, and between them the broadcasts of scripts'
lines on the OUT channels of their nodes. -/
inductive Feeding (Carrier : Type) where
  | perform (activity : Activity Carrier)
  | relay (channel line : Text)

namespace Context

variable {Store Carrier : Type} (host : Host Store Carrier)

def feed (context : Context Store Carrier) : Feeding Carrier → Context Store Carrier
  | .perform activity => context.perform host activity
  | .relay channel line =>
      { context with world := context.world.record (.broadcast channel line) }

/-- The runs of the ticks are among them. -/
theorem replay_tick_eq_feed (context : Context Store Carrier) (ticks : List (TickInputs Carrier)) :
    replay (tick host) context ticks =
      replay (feed host) context ((ticks.flatMap TickInputs.activities).map .perform) := by
  rw [ticks_eq_replay, replay, replay, List.foldl_map]
  rfl

/-- The store takes each line that the worker publishes of its own, and a line that a script puts on
`afterInsert` is in the store. -/
def Sound (context : Context (Store × History) Carrier) : Feeding Carrier → Prop
  | .perform .bootstrap =>
      ∀ line, context.bootstrapEmit = some line → host.accepts context.world.store.1 line = true
  | .perform (.event event) => host.accepts context.world.store.1 (eventToTurtle event) = true
  | .perform _ => True
  | .relay channel line => channel = afterInsertChannel → (line, true) ∈ context.world.store.2

theorem accountReady_announces {context : Context (Store × History) Carrier} (line : Text)
    (announced : context.world.Announces) :
    (context.accountReady host.recording line).world.Announces ∧
      (context.accountReady host.recording line).world.store = context.world.store := by
  have taken : (context.world.record .takeAutoExport).Announces := announcing_record id announced
  unfold accountReady
  dsimp only
  split
  · split
    · exact ⟨taken, rfl⟩
    · exact ⟨.other taken id, rfl⟩
  · exact ⟨taken, rfl⟩

theorem startup_announces {context : Context (Store × History) Carrier}
    (announced : context.world.Announces) : (context.startup host.recording).world.Announces := by
  have dispatched : (context.dispatched host.recording context.accountId
      "[] a design:ResolveActiveTheme .".toList).world.Announces :=
    announcing_dispatch host true _ _ _ announced
  unfold startup
  split
  · exact announced
  · dsimp only
    split
    · exact .other dispatched id
    · exact dispatched

theorem feed_announces_iff {context : Context (Store × History) Carrier} (action : Feeding Carrier)
    (announced : context.world.Announces) :
    (context.feed host.recording action).world.Announces ↔ context.Sound host action := by
  cases action with
  | relay channel line =>
      by_cases after : channel = afterInsertChannel
      · subst after
        constructor
        · intro relayed _
          apply relayed.seen line
          exact mem_seenAfterInsert_append.mpr (.inr ⟨_, List.mem_singleton_self _, by simp [Effect.offered]⟩)
        · exact fun stored => .relayed announced (stored rfl)
      · exact iff_of_true (announcing_record after announced) (absurd · after)
  | perform activity =>
      cases activity with
      | startup => exact iff_of_true (startup_announces host announced) trivial
      | bootstrap =>
          show (context.bootstrap host.recording).world.Announces ↔ ∀ line, _
          unfold bootstrap
          cases context.bootstrapEmit with
          | none => exact iff_of_true announced (fun line pending => by cases pending)
          | some line =>
              rw [announces_publish_iff host announced]
              simp
      | clock carrier =>
          have other : clockChannel ≠ afterInsertChannel := by decide
          exact iff_of_true (.other announced other) trivial
      | event event =>
          show (context.handleEvent host.recording event).world.Announces ↔ host.accepts _ _ = true
          unfold handleEvent
          dsimp only
          split
          · obtain ⟨ready, same⟩ :=
              accountReady_announces host (eventToTurtle event) announced
            rw [announces_publish_iff host ready, same]
          · exact announces_publish_iff host announced
      | line line =>
          refine iff_of_true ?_ trivial
          show (if line = [] then context else _).world.Announces
          split
          · exact announced
          · exact announcing_dispatch host true _ _ _ announced
      | query sparql => exact iff_of_true (announcing_record id announced) trivial
      | emit line => exact iff_of_true (announcing_dispatch host true _ _ _ announced) trivial

end Context

section Forgetting

variable {Store Carrier : Type} (host : Host Store Carrier)

/-- The same worker without the history. -/
def World.forget (world : World (Store × History) Carrier) : World Store Carrier :=
  { world with store := world.store.1 }

theorem forget_insertWithDag (world : World (Store × History) Carrier) (line : Text) :
    (world.insertWithDag host.recording line).forget = world.forget.insertWithDag host line := by
  unfold World.insertWithDag World.insertTurtle Host.recording World.forget World.record
  dsimp only
  cases (host.insertTurtle world.store.1 line).2 <;> rfl

theorem forget_simulates : Simulates host.recording host
    (fun (world : World (Store × History) Carrier) other => other = world.forget) where
  verify := rfl
  query := by
    rintro world _ rfl
    rfl
  theme := by
    rintro world _ rfl
    rfl
  update := by
    rintro world _ rfl sparql
    rfl
  call := by
    rintro world _ rfl call
    rfl
  recorded := by
    rintro world _ rfl effect -
    rfl
  inserted := by
    rintro world _ rfl line
    exact (forget_insertWithDag host world line).symm
  constructed := by
    rintro world _ rfl line
    rfl
  updated := by
    rintro world _ rfl sparql
    rfl
  called := by
    rintro world _ rfl call path
    rfl

theorem forget_dispatch (hasCarrier : Bool) (defaultAccount line : Text)
    (world : World (Store × History) Carrier) :
    (dispatch host.recording hasCarrier defaultAccount line world).forget =
      dispatch host hasCarrier defaultAccount line world.forget :=
  ((forget_simulates host).dispatch rfl hasCarrier defaultAccount line).symm

namespace Context

def forget (context : Context (Store × History) Carrier) : Context Store Carrier :=
  { context with world := context.world.forget }

theorem forget_feed (context : Context (Store × History) Carrier) (action : Feeding Carrier) :
    (context.feed host.recording action).forget = context.forget.feed host action := by
  have line : ∀ (context : Context (Store × History) Carrier) (account line : Text),
      (context.dispatched host.recording account line).forget =
        context.forget.dispatched host account line := fun context account line => by
    unfold dispatched forget
    rw [forget_dispatch]
  cases action with
  | relay channel line => rfl
  | perform activity =>
      cases activity with
      | startup =>
          show (context.startup host.recording).forget = context.forget.startup host
          unfold startup
          rw [show context.forget.startupEmitted = context.startupEmitted from rfl,
            show context.forget.pendingAccountLoad = context.pendingAccountLoad from rfl]
          split
          · rfl
          · have started := line context context.accountId "[] a design:ResolveActiveTheme .".toList
            dsimp only
            rw [show context.forget.accountId = context.accountId from rfl, ← started]
            split <;> rfl
      | bootstrap =>
          show (context.bootstrap host.recording).forget = context.forget.bootstrap host
          unfold bootstrap
          rw [show context.forget.bootstrapEmit = context.bootstrapEmit from rfl]
          split <;> rfl
      | clock carrier => rfl
      | event event =>
          show (context.handleEvent host.recording event).forget = context.forget.handleEvent host event
          unfold handleEvent
          dsimp only
          split
          · have ready : (context.accountReady host.recording (eventToTurtle event)).forget =
                context.forget.accountReady host (eventToTurtle event) := by
              unfold accountReady
              dsimp only
              rw [show context.forget.world.pendingAutoExport = context.world.pendingAutoExport from rfl,
                show context.forget.accountId = context.accountId from rfl]
              split
              · split <;> rfl
              · rfl
            rw [← ready]
            rfl
          · rfl
      | line given =>
          show (if given = [] then context else _).forget = if given = [] then _ else _
          split
          · rfl
          · exact line _ _ _
      | query sparql => rfl
      | emit given => exact line _ _ _

/-- The history changes nothing that the worker does. -/
theorem forget_replay (context : Context (Store × History) Carrier)
    (actions : List (Feeding Carrier)) :
    (replay (feed host.recording) context actions).forget =
      replay (feed host) context.forget actions := by
  induction actions generalizing context with
  | nil => rfl
  | cons action actions ih =>
      rw [replay, replay, List.foldl_cons, List.foldl_cons, ← forget_feed]
      exact ih _

end Context

end Forgetting

/-- In every run the inserts are announced as they turn out, and what `afterInsert` carries is in the
store's history, exactly if the store takes the worker's own lines and no script relays another. -/
theorem afterInsert_stored_iff {Store Carrier : Type} (host : Host Store Carrier)
    {context : Context (Store × History) Carrier} (begins : context.world.Announces)
    (actions : List (Feeding Carrier)) :
    (∀ front, front <+: actions →
        let world := (replay (Context.feed host.recording) context front).world
        Announced world.effects world.store.2 ∧
          ∀ line ∈ seenAfterInsert world.effects, (line, true) ∈ world.store.2) ↔
      Throughout (Context.feed host.recording) (Context.Sound host) context actions := by
  have run := @forall_prefix_iff_throughout _ _ (Context.feed host.recording)
    (fun context => context.world.Announces) _
    (fun _ action announced => Context.feed_announces_iff host action announced) _ actions begins
  rw [← run]
  apply forall_congr'
  intro front
  apply imp_congr_right
  intro _
  constructor
  · exact fun held => held.1
  · exact fun announced => ⟨announced, announced.seen⟩

def onboardingLine : Text :=
  "[] a antenna:OnboardingRequired ; antenna:reason \"no-account\" .".toList

/-- A worker that has just been started without an account. -/
def onboardingContext : Context (Unit × History) Unit where
  world := ⟨((), []), (), none, []⟩
  accountId := []
  bootstrapEmit := some onboardingLine
  pendingAccountLoad := none
  startupEmitted := true

def connectedEvent : CarrierEvent := ⟨0, .replicate 64 0, .connected⟩

def onboardingRun : List (Feeding Unit) :=
  [.perform .bootstrap, .relay afterInsertChannel onboardingLine, .perform (.event connectedEvent)]

theorem afterInsert_stored_onboarding :
    onboardingContext.world.Announces ∧
      ∀ front, front <+: onboardingRun →
        let world := (replay (Context.feed idleHost.recording) onboardingContext front).world
        Announced world.effects world.store.2 ∧
          ∀ line ∈ seenAfterInsert world.effects, (line, true) ∈ world.store.2 := by
  have begins : onboardingContext.world.Announces := .start
  refine ⟨begins, (afterInsert_stored_iff idleHost begins onboardingRun).mpr ?_⟩
  refine ⟨fun _ _ => rfl, fun _ => ?_, rfl, trivial⟩
  exact List.mem_singleton_self (onboardingLine, true)

/-- A store that takes nothing, as one whose disk is full. -/
def fullHost : Host Unit Unit :=
  { idleHost with insertTurtle := fun _ _ => ((), .error "IO error".toList) }

/-- The line of an event that the store refuses is announced as inserted. -/
theorem refused_event_announced :
    ¬ ∀ (host : Host Unit Unit) (event : CarrierEvent),
      let world := (onboardingContext.feed host.recording (.perform (.event event))).world
      Announced world.effects world.store.2 ∧
        ∀ line ∈ seenAfterInsert world.effects, (line, true) ∈ world.store.2 := by
  intro every
  have announced := (every fullHost connectedEvent).1
  have begins : onboardingContext.world.Announces := .start
  have accepted :=
    (Context.feed_announces_iff fullHost (.perform (.event connectedEvent)) begins).mp announced
  cases accepted

end LeanAntenna
