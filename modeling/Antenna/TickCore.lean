import Antenna.CarrierEvents
import Antenna.DispatchCore
import Antenna.Library.Replay

/-!
The worker's tick: startup, carrier events, input lines and the lines that scripts emit. What the
carrier library and the scripts come up with in a tick is its input.
-/

namespace LeanAntenna

open Text Replay

structure Context (Store Carrier : Type) where
  world : World Store Carrier
  accountId : Text
  bootstrapEmit : Option Text
  pendingAccountLoad : Option Text
  startupEmitted : Bool

/-- What a tick finds: the state in which `carrier_iterate` leaves the carrier and its outcome, the
events, the input lines, the queries of scripts and the lines they emit. -/
structure TickInputs (Carrier : Type) where
  carrier : Carrier
  iterated : Except Text Unit
  events : List CarrierEvent
  lines : List Text
  queries : List Text
  emits : List Text

section World

variable {Store Carrier : Type} (host : Host Store Carrier)

/-- A call whose outcome is only logged. -/
def World.callCarrier (world : World Store Carrier) (call : CarrierCall) : World Store Carrier :=
  { world.record (.call call) with carrier := (host.call world.carrier call).1 }

/-- A line of the worker's own goes out and into the store, whether the store takes it or not. -/
def World.publish (world : World Store Carrier) (line : Text) : World Store Carrier :=
  (((world.send line).record (.beforeInsert line)).insertTurtle host line).1.record
    (.afterInsert line)

end World

def clockChannel : Text := antennaNs ++ "clock".toList

def clockTick : Text := "[] a <http://resonator.network/v2/antenna#ClockTick> .".toList

def accountReadyName : Text := "carrier:AccountReady".toList

namespace Context

variable {Store Carrier : Type} (host : Host Store Carrier)

def dispatched (context : Context Store Carrier) (defaultAccount line : Text) :
    Context Store Carrier :=
  { context with world := dispatch host true defaultAccount line context.world }

def startup (context : Context Store Carrier) : Context Store Carrier :=
  if context.startupEmitted then context
  else
    let started := { context.dispatched host context.accountId
      "[] a design:ResolveActiveTheme .".toList with startupEmitted := true }
    match context.pendingAccountLoad with
    | some id =>
        { started with
          world := started.world.callCarrier host (.loadAccount id)
          pendingAccountLoad := none }
    | none => started

def bootstrap (context : Context Store Carrier) : Context Store Carrier :=
  match context.bootstrapEmit with
  | some line => { context with world := context.world.publish host line, bootstrapEmit := none }
  | none => context

/-- The account id after the line of a ready account: an id that is set stays. -/
def accountInForce (accountId line : Text) : Text :=
  if accountId = [] then
    ((extractProperty line "carrier:account".toList).filter (· ≠ [])).getD accountId
  else accountId

/-- What the worker does on the line of a ready account: the pending path is taken, and the account
in force is exported to it. -/
def accountReady (context : Context Store Carrier) (line : Text) : Context Store Carrier :=
  let accountId := accountInForce context.accountId line
  let taken := { context.world.record .takeAutoExport with pendingAutoExport := none }
  let world := match context.world.pendingAutoExport with
    | some path =>
        if accountId = [] then taken
        else taken.callCarrier host (.exportAccount accountId path none)
    | none => taken
  { context with world, accountId }

def handleEvent (context : Context Store Carrier) (event : CarrierEvent) :
    Context Store Carrier :=
  let line := eventToTurtle event
  let seen := if contains line accountReadyName then context.accountReady host line else context
  { seen with world := seen.world.publish host line }

/-- One tick; an error of the carrier ends it. -/
def tick (context : Context Store Carrier) (inputs : TickInputs Carrier) :
    Context Store Carrier :=
  let started := (context.startup host).bootstrap host
  let clocked := { started with
    world := { started.world.record (.broadcast clockChannel clockTick) with
      carrier := inputs.carrier } }
  match inputs.iterated with
  | .error _ => clocked
  | .ok () =>
      let drained := inputs.events.foldl (handleEvent host) clocked
      let account := drained.accountId
      let answered := inputs.lines.foldl
        (fun context line => if line = [] then context else context.dispatched host account line)
        drained
      let asked := { answered with
        world := inputs.queries.foldl (fun world sparql => world.record (.query sparql))
          answered.world }
      inputs.emits.foldl (fun context line => context.dispatched host account line) asked

end Context

end LeanAntenna
