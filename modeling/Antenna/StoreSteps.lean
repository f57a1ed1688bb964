import Antenna.DispatchSteps
import Antenna.TickSteps

/-!
What the router and the worker do to the store: they load Turtle into it, and they run the updates
that lines ask for. Every property of the store that these keep holds throughout a run.
-/

namespace LeanAntenna

open Text Replay

/-- The SPARQL update that a dispatched line runs. -/
def updateOf (line : Text) : Option Text :=
  match route line true with
  | .spin line rdfType =>
      let name := rdfType.drop spNs.length
      if name = "InsertData".toList ∨ name = "DeleteData".toList ∨ name = "Modify".toList then
        spText (extractProperty line)
      else none
  | _ => none

variable {Store Carrier : Type} {host : Host Store Carrier} {kept : Store → Prop}

theorem kept_foldl {α : Type} (values : List α)
    (step : World Store Carrier → α → World Store Carrier)
    (each : ∀ world value, kept world.store → kept (step world value).store)
    {world : World Store Carrier} (held : kept world.store) :
    kept (values.foldl step world).store := by
  induction values generalizing world with
  | nil => exact held
  | cons value values ih => exact ih (each world value held)

section Reading

variable (world : World Store Carrier)

theorem store_foldl {α : Type} (values : List α)
    (step : World Store Carrier → α → World Store Carrier)
    (each : ∀ world value, (step world value).store = world.store) :
    (values.foldl step world).store = world.store := by
  induction values generalizing world with
  | nil => rfl
  | cons value values ih => exact (ih (step world value)).trans (each world value)

theorem handleDesign_store (rdfType : Text) :
    (world.handleDesign host rdfType).store = world.store := by
  unfold World.handleDesign
  dsimp only
  repeat' split
  · exact store_foldl world _ (fun world triple => world.send (World.tripleLine triple))
      fun world triple => rfl
  · rfl
  · rfl

theorem runSelect_store (sparql : Text) : (world.runSelect host sparql).store = world.store := by
  unfold World.runSelect
  dsimp only
  split
  · refine store_foldl (world.record (.query sparql)) _ _ fun world row => ?_
    split <;> rfl
  · rfl
  · rfl

theorem runAsk_store (sparql : Text) : (world.runAsk host sparql).store = world.store := by
  unfold World.runAsk
  dsimp only
  split <;> rfl

theorem handleCarrier_store (line rdfType defaultAccount : Text) :
    (world.handleCarrier host line rdfType defaultAccount).store = world.store := by
  unfold World.handleCarrier
  repeat' split
  all_goals rfl

end Reading

section Router

variable (inserts : ∀ store line, kept store → kept (host.insertTurtle store line).1)
  {world : World Store Carrier} (held : kept world.store)

include inserts held

theorem kept_insertTurtle (line : Text) : kept (world.insertTurtle host line).1.store :=
  inserts world.store line held

theorem kept_insertWithDag (line : Text) : kept (world.insertWithDag host line).store := by
  have inserted := kept_insertTurtle inserts
    (show kept (world.record (.beforeInsert line)).store from held) line
  unfold World.insertWithDag
  split
  · rename_i stored reason outcome
    rw [outcome] at inserted
    exact inserted
  · rename_i stored outcome
    rw [outcome] at inserted
    exact inserted

theorem kept_handleSubscribeBlocklist (line : Text) :
    kept (world.handleSubscribeBlocklist host line).store := by
  unfold World.handleSubscribeBlocklist
  repeat' split
  · exact kept_foldl _ _ (fun world uri held => kept_insertWithDag inserts held _) held
  · exact kept_insertWithDag inserts held _
  · exact held

theorem kept_runConstruct (sparql : Text) : kept (world.runConstruct host sparql).store := by
  unfold World.runConstruct
  dsimp only
  split
  · exact kept_foldl _ _ (fun world triple held => kept_insertTurtle inserts
      (show kept (world.send _).store from held) _) held
  · exact held
  · exact held

theorem kept_handleSpin {line rdfType : Text}
    (updates : let name := rdfType.drop spNs.length
      (name = "InsertData".toList ∨ name = "DeleteData".toList ∨ name = "Modify".toList) →
        ∀ sparql, spText (extractProperty line) = some sparql →
          kept (host.update world.store sparql).1) :
    kept (world.handleSpin host line rdfType).store := by
  unfold World.handleSpin
  dsimp only
  split
  · exact held
  · rename_i sparql given
    split_ifs with select ask construct update
    · rw [runSelect_store]
      exact held
    · rw [runAsk_store]
      exact held
    · exact kept_runConstruct inserts held sparql
    · have updated := updates update sparql given
      unfold World.runUpdate
      dsimp only
      split <;> exact updated
    · exact held

/-- What a dispatched line keeps: it loads Turtle and runs its own update. -/
theorem kept_dispatch (defaultAccount : Text) {line : Text}
    (updates : ∀ sparql, updateOf line = some sparql → kept (host.update world.store sparql).1) :
    kept (dispatch host true defaultAccount line world).store := by
  unfold updateOf at updates
  unfold dispatch
  cases routed : route line true with
  | ignored => exact held
  | stored line => exact kept_insertWithDag inserts held line
  | spin line rdfType =>
      refine kept_handleSpin inserts held fun named sparql given => updates sparql ?_
      rw [routed]
      exact (if_pos named).trans given
  | carrier line rdfType =>
      dsimp only
      rw [handleCarrier_store]
      exact held
  | carrierSkipped rdfType => exact held
  | design rdfType =>
      dsimp only
      rw [handleDesign_store]
      exact held
  | subscribeBlocklist line rdfType => exact kept_handleSubscribeBlocklist inserts held line

theorem kept_publish (line : Text) : kept (world.publish host line).store :=
  inserts world.store line held

end Router

/-- The line an activity dispatches. -/
def Activity.dispatched : Activity Carrier → Option Text
  | .line text | .emit text => some text
  | _ => none

theorem dispatched_mem {inputs : TickInputs Carrier} {activity : Activity Carrier} {line : Text} :
    activity ∈ inputs.activities → activity.dispatched = some line →
      line ∈ inputs.lines ++ inputs.emits := by
  unfold TickInputs.activities
  cases inputs.iterated with
  | error reason => cases activity <;> simp [Activity.dispatched]
  | ok done => cases activity <;> simp [Activity.dispatched] <;> grind

section Worker

variable (inserts : ∀ store line, kept store → kept (host.insertTurtle store line).1)

include inserts

theorem kept_startup {context : Context Store Carrier} (held : kept context.world.store) :
    kept (context.startup host).world.store := by
  have read : updateOf "[] a design:ResolveActiveTheme .".toList = none := by decide
  have started : kept (dispatch host true context.accountId
      "[] a design:ResolveActiveTheme .".toList context.world).store :=
    kept_dispatch inserts held _ fun sparql runs => by
      rw [read] at runs
      contradiction
  unfold Context.startup
  split
  · exact held
  · cases context.pendingAccountLoad <;> exact started

theorem kept_perform {context : Context Store Carrier} (held : kept context.world.store)
    {activity : Activity Carrier}
    (updates : ∀ line, activity.dispatched = some line → ∀ sparql, updateOf line = some sparql →
      ∀ store, kept store → kept (host.update store sparql).1) :
    kept (context.perform host activity).world.store := by
  have dispatches : ∀ line, activity.dispatched = some line →
      kept (context.dispatched host context.accountId line).world.store := fun line named =>
    kept_dispatch inserts held _ fun sparql runs => updates line named sparql runs _ held
  cases activity with
  | startup => exact kept_startup inserts held
  | bootstrap =>
      simp only [Context.perform, Context.bootstrap]
      cases context.bootstrapEmit with
      | none => exact held
      | some line => exact kept_publish inserts held line
  | clock carrier => exact held
  | event event =>
      simp only [Context.perform, Context.handleEvent]
      refine kept_publish inserts ?_ _
      split
      · unfold Context.accountReady
        cases context.world.pendingAutoExport with
        | none => exact held
        | some path =>
            dsimp only
            split <;> exact held
      · exact held
  | line line =>
      simp only [Context.perform]
      split
      · exact held
      · exact dispatches line rfl
  | query sparql => exact held
  | emit line => exact dispatches line rfl

/-- What loading Turtle and the updates of a run keep holds after the run. -/
theorem kept_ticks {context : Context Store Carrier} (held : kept context.world.store)
    {ticks : List (TickInputs Carrier)}
    (updates : ∀ inputs ∈ ticks, ∀ line ∈ inputs.lines ++ inputs.emits,
      ∀ sparql, updateOf line = some sparql →
        ∀ store, kept store → kept (host.update store sparql).1) :
    kept (replay (Context.tick host) context ticks).world.store := by
  rw [Context.ticks_eq_replay]
  have harmless : ∀ activity ∈ ticks.flatMap TickInputs.activities,
      ∀ line, activity.dispatched = some line → ∀ sparql, updateOf line = some sparql →
        ∀ store, kept store → kept (host.update store sparql).1 := by
    intro activity member line named
    obtain ⟨inputs, listed, inside⟩ := List.mem_flatMap.mp member
    exact updates inputs listed line (dispatched_mem inside named)
  generalize ticks.flatMap TickInputs.activities = activities at harmless ⊢
  induction activities generalizing context with
  | nil => exact held
  | cons activity activities ih =>
      exact ih (kept_perform inserts held (harmless activity (by simp)))
        fun other member => harmless other (List.mem_cons_of_mem _ member)

end Worker

end LeanAntenna
