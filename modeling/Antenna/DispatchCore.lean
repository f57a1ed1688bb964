import Antenna.CarrierCommands

/-!
The router: one line is ignored, stored through the DAG, or handed to the handler of its type. The
store, the carrier library, the theme resolver and the signature check are parameters.
-/

namespace LeanAntenna

open Text

structure TripleText where
  subject : Text
  predicate : Text
  object : Text
deriving DecidableEq, Repr

/-- A row is what `QuerySolution::iter` yields: variable names with the terms bound to them. -/
inductive QueryResults where
  | solutions (rows : List (Except Text (List (Text × Text))))
  | boolean (answer : Bool)
  | graph (triples : List (Except Text TripleText))

/-- The code the router calls. A carrier method returns a text: the new account's or conversation's
id where it makes one. -/
structure Host (Store Carrier : Type) where
  query : Store → Text → Except Text QueryResults
  update : Store → Text → Store × Except Text Unit
  insertTurtle : Store → Text → Store × Except Text Unit
  resolveActiveTheme : Store → Except Text (List TripleText)
  verifySignedBlocklist : Text → Text → Except Text (List Text)
  call : Carrier → CarrierCall → Carrier × Except Text Text

/-- What the router and the worker do besides changing their state, in the order in which they do
it. -/
inductive Effect where
  | send (line : Text)
  | beforeInsert (line : Text)
  | afterInsert (line : Text)
  | insert (line : Text)
  | query (sparql : Text)
  | ask (sparql : Text)
  | update (sparql : Text)
  | call (call : CarrierCall)
  | broadcast (channel line : Text)
  | takeAutoExport
deriving DecidableEq, Repr

def spText (property : Properties) : Option Text :=
  (property "sp:text".toList).or (property ('<' :: spNs ++ "text>".toList))

structure World (Store Carrier : Type) where
  store : Store
  carrier : Carrier
  pendingAutoExport : Option Text
  effects : List Effect

namespace World

variable {Store Carrier : Type}

def record (world : World Store Carrier) (effect : Effect) : World Store Carrier :=
  { world with effects := world.effects ++ [effect] }

def send (world : World Store Carrier) (line : Text) : World Store Carrier :=
  world.record (.send line)

def antennaError (world : World Store Carrier) (message : Text) : World Store Carrier :=
  world.send ("[] a antenna:Error ; antenna:message \"".toList ++ message ++ "\" .".toList)

def insertTurtle (world : World Store Carrier) (host : Host Store Carrier) (line : Text) :
    World Store Carrier × Except Text Unit :=
  let (store, outcome) := host.insertTurtle world.store line
  ({ world.record (.insert line) with store }, outcome)

def insertWithDag (world : World Store Carrier) (host : Host Store Carrier) (line : Text) :
    World Store Carrier :=
  match (world.record (.beforeInsert line)).insertTurtle host line with
  | (stored, .error _) => stored
  | (stored, .ok ()) => (stored.record (.afterInsert line)).send line

def withoutQuotes (text : Text) : Text := text.filter fun c => c ≠ '"' && c ≠ '\\'

def handleSubscribeBlocklist (world : World Store Carrier) (host : Host Store Carrier)
    (line : Text) : World Store Carrier :=
  match extractProperty line "antenna:blocklistPayload".toList,
      extractProperty line "antenna:blocklistSig".toList with
  | some payload, some sig =>
      match host.verifySignedBlocklist payload sig with
      | .ok entries =>
          entries.foldl
            (fun world uri => world.insertWithDag host
              ("[] a antenna:BlocklistApply ; antenna:contactUri \"".toList ++ withoutQuotes uri ++
                "\" .".toList))
            world
      | .error reason =>
          world.insertWithDag host
            ("[] a antenna:BlocklistRejected ; antenna:reason \"".toList ++ withoutQuotes reason ++
              "\" .".toList)
  | _, _ =>
      world.antennaError "SubscribeBlocklist missing antenna:blocklistPayload/Sig".toList

def tripleLine (triple : TripleText) : Text :=
  triple.subject ++ ' ' :: triple.predicate ++ ' ' :: triple.object ++ " .".toList

def handleDesign (world : World Store Carrier) (host : Host Store Carrier) (rdfType : Text) :
    World Store Carrier :=
  let name := rdfType.drop designNs.length
  if name = "ResolveActiveTheme".toList then
    match host.resolveActiveTheme world.store with
    | .ok triples =>
        let sent := triples.foldl (fun world triple => world.send (tripleLine triple)) world
        sent.send ("[] a design:ThemeBundleComplete ; design:bundleSize ".toList ++
          (toString triples.length).toList ++ " .".toList)
    | .error reason =>
        world.antennaError ("ResolveActiveTheme failed: ".toList ++ turtleEscape reason)
  else world.antennaError ("Unknown design type: ".toList ++ name)

def resultLine (row : List (Text × Text)) : Text :=
  let parts := row.map fun (name, term) =>
    "antenna:var_".toList ++ name ++ " \"".toList ++ turtleEscape term ++ "\"".toList
  "[] a antenna:Result ; ".toList ++ (" ; ".toList).intercalate parts ++ " .".toList

def runSelect (world : World Store Carrier) (host : Host Store Carrier) (sparql : Text) :
    World Store Carrier :=
  let asked := world.record (.query sparql)
  match host.query world.store sparql with
  | .ok (.solutions rows) =>
      (rows.filterMap Except.toOption).foldl
        (fun world row => if row = [] then world else world.send (resultLine row)) asked
  | .ok _ => asked
  | .error reason => asked.antennaError (turtleEscape reason)

def runAsk (world : World Store Carrier) (host : Host Store Carrier) (sparql : Text) :
    World Store Carrier :=
  let asked := world.record (.ask sparql)
  match host.query world.store sparql with
  | .ok results =>
      let answer := match results with
        | .boolean answer => answer
        | _ => false
      asked.send ("[] a sp:AskResult ; sp:boolean ".toList ++ (toString answer).toList ++
        " .".toList)
  | .error reason => asked.antennaError (turtleEscape reason)

def runConstruct (world : World Store Carrier) (host : Host Store Carrier) (sparql : Text) :
    World Store Carrier :=
  let asked := world.record (.query sparql)
  match host.query world.store sparql with
  | .ok (.graph triples) =>
      (triples.filterMap Except.toOption).foldl
        (fun world triple =>
          ((world.send (tripleLine triple)).insertTurtle host (tripleLine triple)).1) asked
  | .ok _ => asked
  | .error reason => asked.antennaError (turtleEscape reason)

def runUpdate (world : World Store Carrier) (host : Host Store Carrier) (sparql : Text) :
    World Store Carrier :=
  let (store, outcome) := host.update world.store sparql
  let updated := { world.record (.update sparql) with store }
  match outcome with
  | .ok () => updated
  | .error reason => updated.antennaError (turtleEscape reason)

def handleSpin (world : World Store Carrier) (host : Host Store Carrier) (line rdfType : Text) :
    World Store Carrier :=
  let name := rdfType.drop spNs.length
  match spText (extractProperty line) with
  | none => world.antennaError ("Missing sp:text in ".toList ++ name)
  | some sparql =>
      if name = "Select".toList then world.runSelect host sparql
      else if name = "Ask".toList then world.runAsk host sparql
      else if name = "Construct".toList then world.runConstruct host sparql
      else if name = "InsertData".toList ∨ name = "DeleteData".toList ∨ name = "Modify".toList then
        world.runUpdate host sparql
      else world.antennaError ("Unknown SPIN type: ".toList ++ name)

/-- A command stashes its export path, if it has one, before the call that can fail. A command the
router does not know is only logged. -/
def handleCarrier (world : World Store Carrier) (host : Host Store Carrier)
    (line rdfType defaultAccount : Text) : World Store Carrier :=
  match Command.ofLocal (rdfType.drop carrierNs.length) with
  | none => world
  | some command =>
      match command.call (extractProperty line) defaultAccount with
      | .error missing =>
          world.antennaError (missing.command ++ " missing ".toList ++ missing.field)
      | .ok call =>
          let (carrier, outcome) := host.call world.carrier call
          let called := { world.record (.call call) with
            carrier
            pendingAutoExport := (command.autoExportPath (extractProperty line)).or
              world.pendingAutoExport }
          match outcome with
          | .ok _ => called
          | .error reason =>
              called.antennaError (command.localName ++ " failed: ".toList ++ turtleEscape reason)

end World

/-- Where a line goes. `stored` lines are raw data. -/
inductive Route where
  | ignored
  | stored (line : Text)
  | spin (line rdfType : Text)
  | carrier (line rdfType : Text)
  | carrierSkipped (rdfType : Text)
  | design (rdfType : Text)
  | subscribeBlocklist (line rdfType : Text)
deriving DecidableEq, Repr

def subscribeBlocklistType : Text := antennaNs ++ "SubscribeBlocklist".toList

def routeOfType (line rdfType : Text) (hasCarrier : Bool) : Route :=
  if spNs <+: rdfType then .spin line rdfType
  else if carrierNs <+: rdfType then
    if hasCarrier then .carrier line rdfType else .carrierSkipped rdfType
  else if designNs <+: rdfType then .design rdfType
  else if rdfType = subscribeBlocklistType then .subscribeBlocklist line rdfType
  else .stored line

def route (line : Text) (hasCarrier : Bool) : Route :=
  if line = [] ∨ line.head? = some '#' then .ignored
  else
    let stripped := stripLeadingDirectives line
    if stripped = [] then .ignored
    else
      match extractType stripped with
      | none => .stored stripped
      | some rdfType => routeOfType stripped rdfType hasCarrier

/-- The type with which a line is handed to one of the four handlers. -/
def Route.handedType : Route → Option Text
  | .spin _ rdfType | .carrier _ rdfType | .design rdfType | .subscribeBlocklist _ rdfType =>
      some rdfType
  | .ignored | .stored _ | .carrierSkipped _ => none

def dispatch {Store Carrier : Type} (host : Host Store Carrier) (hasCarrier : Bool)
    (defaultAccount line : Text) (world : World Store Carrier) : World Store Carrier :=
  match route line hasCarrier with
  | .ignored | .carrierSkipped _ => world
  | .stored line => world.insertWithDag host line
  | .spin line rdfType => world.handleSpin host line rdfType
  | .carrier line rdfType => world.handleCarrier host line rdfType defaultAccount
  | .design rdfType => world.handleDesign host rdfType
  | .subscribeBlocklist line _ => world.handleSubscribeBlocklist host line

end LeanAntenna
