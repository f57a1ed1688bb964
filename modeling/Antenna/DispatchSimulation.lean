import Antenna.DispatchCore

/-!
Two routers side by side: a relation that each step of the handlers keeps is kept by every line.
-/

namespace LeanAntenna

open Text

/-- The effects of a step that changes nothing but the log. -/
def Effect.Quiet : Effect → Prop
  | .send _ | .query _ | .ask _ => True
  | _ => False

section Simulation

variable {Store Carrier OtherStore OtherCarrier : Type}

def World.updated (world : World Store Carrier) (host : Host Store Carrier) (sparql : Text) :
    World Store Carrier :=
  { world.record (.update sparql) with store := (host.update world.store sparql).1 }

def World.called (world : World Store Carrier) (host : Host Store Carrier) (call : CarrierCall)
    (path : Option Text) : World Store Carrier :=
  { world.record (.call call) with
    carrier := (host.call world.carrier call).1
    pendingAutoExport := path.or world.pendingAutoExport }

/-- Related states answer alike, and the steps of the handlers keep them related. -/
structure Simulates (left : Host Store Carrier) (right : Host OtherStore OtherCarrier)
    (related : World Store Carrier → World OtherStore OtherCarrier → Prop) : Prop where
  verify : left.verifySignedBlocklist = right.verifySignedBlocklist
  query : ∀ {world other}, related world other →
    left.query world.store = right.query other.store
  theme : ∀ {world other}, related world other →
    left.resolveActiveTheme world.store = right.resolveActiveTheme other.store
  update : ∀ {world other}, related world other → ∀ sparql,
    (left.update world.store sparql).2 = (right.update other.store sparql).2
  call : ∀ {world other}, related world other → ∀ call,
    (left.call world.carrier call).2 = (right.call other.carrier call).2
  recorded : ∀ {world other}, related world other → ∀ {effect : Effect}, effect.Quiet →
    related (world.record effect) (other.record effect)
  inserted : ∀ {world other}, related world other → ∀ line,
    related (world.insertWithDag left line) (other.insertWithDag right line)
  constructed : ∀ {world other}, related world other → ∀ line,
    related ((world.send line).insertTurtle left line).1 ((other.send line).insertTurtle right line).1
  updated : ∀ {world other}, related world other → ∀ sparql,
    related (world.updated left sparql) (other.updated right sparql)
  called : ∀ {world other}, related world other → ∀ call path,
    related (world.called left call path) (other.called right call path)

namespace Simulates

variable {left : Host Store Carrier} {right : Host OtherStore OtherCarrier}
  {related : World Store Carrier → World OtherStore OtherCarrier → Prop}
  (simulates : Simulates left right related)
  {world : World Store Carrier} {other : World OtherStore OtherCarrier} (same : related world other)

include simulates same

theorem send (line : Text) : related (world.send line) (other.send line) :=
  simulates.recorded same trivial

theorem antennaError (message : Text) :
    related (world.antennaError message) (other.antennaError message) :=
  simulates.send same _

theorem runSelect (sparql : Text) :
    related (world.runSelect left sparql) (other.runSelect right sparql) := by
  have asked : related (world.record (.query sparql)) (other.record (.query sparql)) :=
    simulates.recorded same trivial
  unfold World.runSelect
  rw [simulates.query same]
  dsimp only
  split
  · refine List.foldl_rel asked fun row _ world other same => ?_
    by_cases empty : row = []
    · rwa [if_pos empty, if_pos empty]
    · rw [if_neg empty, if_neg empty]
      exact simulates.send same _
  · exact asked
  · exact simulates.antennaError asked _

theorem runAsk (sparql : Text) :
    related (world.runAsk left sparql) (other.runAsk right sparql) := by
  have asked : related (world.record (.ask sparql)) (other.record (.ask sparql)) :=
    simulates.recorded same trivial
  unfold World.runAsk
  rw [simulates.query same]
  dsimp only
  split
  · exact simulates.send asked _
  · exact simulates.antennaError asked _

theorem runConstruct (sparql : Text) :
    related (world.runConstruct left sparql) (other.runConstruct right sparql) := by
  have asked : related (world.record (.query sparql)) (other.record (.query sparql)) :=
    simulates.recorded same trivial
  unfold World.runConstruct
  rw [simulates.query same]
  dsimp only
  split
  · exact List.foldl_rel asked fun triple _ world other same => simulates.constructed same _
  · exact asked
  · exact simulates.antennaError asked _

theorem runUpdate (sparql : Text) :
    related (world.runUpdate left sparql) (other.runUpdate right sparql) := by
  have updated := simulates.updated same sparql
  unfold World.runUpdate
  dsimp only
  rw [simulates.update same]
  cases (right.update other.store sparql).2 with
  | ok done => exact updated
  | error reason => exact simulates.antennaError updated _

theorem handleSpin (line rdfType : Text) :
    related (world.handleSpin left line rdfType) (other.handleSpin right line rdfType) := by
  unfold World.handleSpin
  dsimp only
  split
  · exact simulates.antennaError same _
  · split_ifs
    · exact simulates.runSelect same _
    · exact simulates.runAsk same _
    · exact simulates.runConstruct same _
    · exact simulates.runUpdate same _
    · exact simulates.antennaError same _

theorem handleCarrier (line rdfType defaultAccount : Text) :
    related (world.handleCarrier left line rdfType defaultAccount)
      (other.handleCarrier right line rdfType defaultAccount) := by
  unfold World.handleCarrier
  cases Command.ofLocal (rdfType.drop carrierNs.length) with
  | none => exact same
  | some command =>
      dsimp only
      cases command.call (extractProperty line) defaultAccount with
      | error missing => exact simulates.antennaError same _
      | ok call =>
          have called := simulates.called same call (command.autoExportPath (extractProperty line))
          have outcome := simulates.call same call
          dsimp only
          rw [outcome]
          cases (right.call other.carrier call).2 with
          | ok id => exact called
          | error reason => exact simulates.antennaError called _

theorem handleDesign (rdfType : Text) :
    related (world.handleDesign left rdfType) (other.handleDesign right rdfType) := by
  unfold World.handleDesign
  rw [simulates.theme same]
  dsimp only
  split_ifs
  · split
    · refine simulates.send ?_ _
      exact List.foldl_rel same fun triple _ world other same => simulates.send same _
    · exact simulates.antennaError same _
  · exact simulates.antennaError same _

theorem handleSubscribeBlocklist (line : Text) :
    related (world.handleSubscribeBlocklist left line) (other.handleSubscribeBlocklist right line) := by
  unfold World.handleSubscribeBlocklist
  rw [simulates.verify]
  split
  · split
    · exact List.foldl_rel same fun uri _ world other same => simulates.inserted same _
    · exact simulates.inserted same _
  · exact simulates.antennaError same _

/-- Whatever a line does, the two routers do it side by side. -/
theorem dispatch (hasCarrier : Bool) (defaultAccount line : Text) :
    related (LeanAntenna.dispatch left hasCarrier defaultAccount line world)
      (LeanAntenna.dispatch right hasCarrier defaultAccount line other) := by
  unfold LeanAntenna.dispatch
  cases route line hasCarrier with
  | ignored => exact same
  | stored line => exact simulates.inserted same line
  | spin line rdfType => exact simulates.handleSpin same line rdfType
  | carrier line rdfType => exact simulates.handleCarrier same line rdfType defaultAccount
  | carrierSkipped rdfType => exact same
  | design rdfType => exact simulates.handleDesign same rdfType
  | subscribeBlocklist line rdfType => exact simulates.handleSubscribeBlocklist same line

end Simulates

end Simulation

end LeanAntenna
