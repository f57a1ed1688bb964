import Antenna.DispatchCore

/-!
What dispatching a line can do to the router's state: it adds effects, never takes the pending
export path, and leaves one only for a create or import command that names it.
-/

namespace LeanAntenna

open Text

section Dispatched

variable {Store Carrier : Type}

/-- Only effects were added, and taking the export path was none of them. -/
def Continues (before after : World Store Carrier) : Prop :=
  ∃ added, after.effects = before.effects ++ added ∧ Effect.takeAutoExport ∉ added ∧
    after.pendingAutoExport = before.pendingAutoExport

theorem Continues.refl (world : World Store Carrier) : Continues world world :=
  ⟨[], by simp, by simp, rfl⟩

theorem Continues.trans {first second third : World Store Carrier} (left : Continues first second)
    (right : Continues second third) : Continues first third := by
  obtain ⟨earlier, effects, untaken, kept⟩ := left
  obtain ⟨later, more, alsoUntaken, alsoKept⟩ := right
  refine ⟨earlier ++ later, by rw [more, effects, List.append_assoc], ?_, alsoKept.trans kept⟩
  rw [List.mem_append, not_or]
  exact ⟨untaken, alsoUntaken⟩

theorem continues_record (world : World Store Carrier) {effect : Effect}
    (other : effect ≠ .takeAutoExport) : Continues world (world.record effect) :=
  ⟨[effect], rfl, by simpa using other.symm, rfl⟩

theorem continues_send (world : World Store Carrier) (line : Text) :
    Continues world (world.send line) := continues_record world (by simp)

theorem continues_antennaError (world : World Store Carrier) (message : Text) :
    Continues world (world.antennaError message) := continues_send world _

theorem continues_insertTurtle (world : World Store Carrier) (host : Host Store Carrier)
    (line : Text) : Continues world (world.insertTurtle host line).1 :=
  ⟨[.insert line], rfl, by simp, rfl⟩

theorem continues_insertWithDag (world : World Store Carrier) (host : Host Store Carrier)
    (line : Text) : Continues world (world.insertWithDag host line) := by
  have announced : Continues world (world.record (.beforeInsert line)) :=
    continues_record world (by simp)
  have inserted := continues_insertTurtle (world.record (.beforeInsert line)) host line
  unfold World.insertWithDag
  generalize (world.record (.beforeInsert line)).insertTurtle host line = outcome at inserted ⊢
  obtain ⟨stored, result⟩ := outcome
  cases result with
  | error reason => exact announced.trans inserted
  | ok done =>
      have recorded : Continues stored (stored.record (.afterInsert line)) :=
        continues_record stored (by simp)
      exact (announced.trans inserted).trans (recorded.trans (continues_send _ line))

theorem continues_foldl {α : Type} (values : List α)
    (step : World Store Carrier → α → World Store Carrier)
    (each : ∀ world value, Continues world (step world value)) (world : World Store Carrier) :
    Continues world (values.foldl step world) := by
  induction values generalizing world with
  | nil => exact Continues.refl world
  | cons value values ih => exact (each world value).trans (ih (step world value))

/-- The effects of all but the worker's own steps and the inserts through the DAG. -/
def Effect.Plain : Effect → Prop
  | .takeAutoExport | .beforeInsert _ | .afterInsert _ => False
  | _ => True

/-- Only plain effects were added. -/
def Adds (before after : World Store Carrier) : Prop :=
  ∃ added, after.effects = before.effects ++ added ∧ (∀ effect ∈ added, effect.Plain) ∧
    after.pendingAutoExport = before.pendingAutoExport

theorem Adds.continues {before after : World Store Carrier} (adds : Adds before after) :
    Continues before after := by
  obtain ⟨added, effects, plain, kept⟩ := adds
  exact ⟨added, effects, fun member => plain _ member, kept⟩

theorem Adds.refl (world : World Store Carrier) : Adds world world := ⟨[], by simp, by simp, rfl⟩

theorem Adds.trans {first second third : World Store Carrier} (left : Adds first second)
    (right : Adds second third) : Adds first third := by
  obtain ⟨earlier, effects, plain, kept⟩ := left
  obtain ⟨later, more, alsoPlain, alsoKept⟩ := right
  refine ⟨earlier ++ later, by rw [more, effects, List.append_assoc], ?_, alsoKept.trans kept⟩
  intro effect member
  exact (List.mem_append.mp member).elim (plain effect) (alsoPlain effect)

theorem adds_record (world : World Store Carrier) {effect : Effect} (plain : effect.Plain) :
    Adds world (world.record effect) :=
  ⟨[effect], rfl, fun other member => by rwa [List.mem_singleton.mp member], rfl⟩

theorem adds_send (world : World Store Carrier) (line : Text) : Adds world (world.send line) :=
  adds_record world trivial

theorem adds_antennaError (world : World Store Carrier) (message : Text) :
    Adds world (world.antennaError message) := adds_send world _

theorem adds_insertTurtle (world : World Store Carrier) (host : Host Store Carrier) (line : Text) :
    Adds world (world.insertTurtle host line).1 := by
  obtain ⟨added, effects, plain, kept⟩ := adds_record world (show (Effect.insert line).Plain from trivial)
  exact ⟨added, effects, plain, kept⟩

theorem adds_foldl {Value : Type} (values : List Value)
    (step : World Store Carrier → Value → World Store Carrier)
    (each : ∀ world value, Adds world (step world value)) (world : World Store Carrier) :
    Adds world (values.foldl step world) := by
  induction values generalizing world with
  | nil => exact Adds.refl world
  | cons value values ih => exact (each world value).trans (ih (step world value))

theorem adds_runSelect (world : World Store Carrier) (host : Host Store Carrier) (sparql : Text) :
    Adds (world.record (.query sparql)) (world.runSelect host sparql) := by
  unfold World.runSelect
  dsimp only
  split
  · refine adds_foldl _ _ (fun world row => ?_) _
    split
    · exact Adds.refl world
    · exact adds_send world _
  · exact Adds.refl _
  · exact adds_antennaError _ _

theorem adds_runAsk (world : World Store Carrier) (host : Host Store Carrier) (sparql : Text) :
    Adds (world.record (.ask sparql)) (world.runAsk host sparql) := by
  unfold World.runAsk
  dsimp only
  split
  · exact adds_send _ _
  · exact adds_antennaError _ _

theorem adds_runConstruct (world : World Store Carrier) (host : Host Store Carrier) (sparql : Text) :
    Adds (world.record (.query sparql)) (world.runConstruct host sparql) := by
  unfold World.runConstruct
  dsimp only
  split
  · refine adds_foldl _ _ (fun world triple => ?_) _
    exact (adds_send world _).trans (adds_insertTurtle _ host _)
  · exact Adds.refl _
  · exact adds_antennaError _ _

theorem adds_runUpdate (world : World Store Carrier) (host : Host Store Carrier) (sparql : Text) :
    Adds (world.record (.update sparql)) (world.runUpdate host sparql) := by
  unfold World.runUpdate
  dsimp only
  split
  · exact ⟨[], by simp [World.record], by simp, rfl⟩
  · exact ⟨[_], rfl, by simp [Effect.Plain], rfl⟩

theorem adds_handleSpin (world : World Store Carrier) (host : Host Store Carrier)
    (line rdfType : Text) : Adds world (world.handleSpin host line rdfType) := by
  unfold World.handleSpin
  dsimp only
  split
  · exact adds_antennaError _ _
  · rename_i sparql given
    have query : (Effect.query sparql).Plain := trivial
    have ask : (Effect.ask sparql).Plain := trivial
    have update : (Effect.update sparql).Plain := trivial
    repeat' split
    · exact (adds_record world query).trans (adds_runSelect world host sparql)
    · exact (adds_record world ask).trans (adds_runAsk world host sparql)
    · exact (adds_record world query).trans (adds_runConstruct world host sparql)
    · exact (adds_record world update).trans (adds_runUpdate world host sparql)
    · exact adds_antennaError _ _

theorem adds_handleDesign (world : World Store Carrier) (host : Host Store Carrier) (rdfType : Text) :
    Adds world (world.handleDesign host rdfType) := by
  unfold World.handleDesign
  dsimp only
  repeat' split
  · exact (adds_foldl _ _ (fun world triple => adds_send world _) _).trans (adds_send _ _)
  · exact adds_antennaError _ _
  · exact adds_antennaError _ _

theorem continues_handleSubscribeBlocklist (world : World Store Carrier)
    (host : Host Store Carrier) (line : Text) :
    Continues world (world.handleSubscribeBlocklist host line) := by
  unfold World.handleSubscribeBlocklist
  repeat' split
  · exact continues_foldl _ _ (fun world uri => continues_insertWithDag world host _) _
  · exact continues_insertWithDag world host _
  · exact continues_antennaError _ _

/-- The export path a line asks for: that of a create or import command. -/
def requestedPath (hasCarrier : Bool) (line : Text) : Option Text :=
  match route line hasCarrier with
  | .carrier line rdfType =>
      (Command.ofLocal (rdfType.drop carrierNs.length)).bind fun command =>
        command.autoExportPath (extractProperty line)
  | _ => none

def World.stash (world : World Store Carrier) (path : Option Text) : World Store Carrier :=
  { world with pendingAutoExport := path.or world.pendingAutoExport }

theorem stash_none (world : World Store Carrier) : world.stash none = world := rfl

theorem adds_handleCarrier (world : World Store Carrier) (host : Host Store Carrier)
    (line rdfType defaultAccount : Text) :
    Adds
      (world.stash ((Command.ofLocal (rdfType.drop carrierNs.length)).bind fun command =>
        command.autoExportPath (extractProperty line)))
      (world.handleCarrier host line rdfType defaultAccount) := by
  unfold World.handleCarrier
  cases Command.ofLocal (rdfType.drop carrierNs.length) with
  | none => exact Adds.refl world
  | some command =>
      simp only [Option.bind_some]
      cases called : command.call (extractProperty line) defaultAccount with
      | error missing =>
          have unasked : command.autoExportPath (extractProperty line) = none := by
            cases command <;> first | rfl | contradiction
          rw [unasked]
          exact adds_antennaError _ _
      | ok call =>
          have calls : Adds (world.stash (command.autoExportPath (extractProperty line)))
              { world.record (.call call) with
                carrier := (host.call world.carrier call).1
                pendingAutoExport := (command.autoExportPath (extractProperty line)).or
                  world.pendingAutoExport } :=
            ⟨[.call call], rfl, by simp [Effect.Plain], rfl⟩
          dsimp only
          split
          · exact calls
          · exact calls.trans (adds_antennaError _ _)

/-- A dispatched line never takes the pending path, and leaves the one it asks for. -/
theorem continues_dispatch (world : World Store Carrier) (host : Host Store Carrier)
    (hasCarrier : Bool) (defaultAccount line : Text) :
    Continues (world.stash (requestedPath hasCarrier line))
      (dispatch host hasCarrier defaultAccount line world) := by
  unfold dispatch requestedPath
  cases route line hasCarrier with
  | ignored => exact Continues.refl world
  | stored line => exact continues_insertWithDag world host line
  | spin line rdfType => exact (adds_handleSpin world host line rdfType).continues
  | carrier line rdfType => exact (adds_handleCarrier world host line rdfType defaultAccount).continues
  | carrierSkipped rdfType => exact Continues.refl world
  | design rdfType => exact (adds_handleDesign world host rdfType).continues
  | subscribeBlocklist line rdfType => exact continues_handleSubscribeBlocklist world host line

end Dispatched

/-- A store and a carrier that accept everything. -/
def idleHost : Host Unit Unit where
  query _ _ := .ok (.boolean true)
  update _ _ := ((), .ok ())
  insertTurtle _ _ := ((), .ok ())
  resolveActiveTheme _ := .ok []
  verifySignedBlocklist _ _ := .ok []
  call _ _ := ((), .ok [])

end LeanAntenna
