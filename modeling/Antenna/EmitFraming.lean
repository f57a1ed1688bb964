import Antenna.AutoExport
import Antenna.DispatchSimulation
import Antenna.LineFraming

/-!
What the tick makes of the lines that scripts emit, beside what it makes of the same lines when
`antenna_send` passes them.
-/

namespace LeanAntenna

open Text

/-- A node's emit channel with the OUT channels it is routed to. -/
structure EmitRoute where
  outUris : List Text
  queued : List Text

section Pump

variable {Store Carrier : Type}

/-- `pump_emits`: all the emissions go out on the OUT channels of their routes before any of them is
dispatched. -/
def World.pumpEmits (world : World Store Carrier) (routes : List EmitRoute) :
    World Store Carrier × List Text :=
  (routes.foldl
    (fun world route => route.queued.foldl
      (fun world turtle => route.outUris.foldl
        (fun world uri => world.record (.broadcast uri turtle)) world) world) world,
    routes.flatMap EmitRoute.queued)

/-- A tick whose emissions wait in the channels of the nodes. -/
def Context.tickPumping (host : Host Store Carrier) (context : Context Store Carrier)
    (inputs : TickInputs Carrier) (routes : List EmitRoute) : Context Store Carrier :=
  let asked := context.tick host { inputs with emits := [] }
  match inputs.iterated with
  | .error _ => asked
  | .ok () =>
      let (world, emits) := asked.world.pumpEmits routes
      emits.foldl (fun context turtle => context.dispatched host asked.accountId turtle)
        { asked with world }

/-- What the pump sends out. -/
def outBroadcasts (routes : List EmitRoute) : List Effect :=
  routes.flatMap fun route => route.queued.flatMap fun turtle =>
    route.outUris.map (.broadcast · turtle)

def World.recorded (world : World Store Carrier) (effects : List Effect) : World Store Carrier :=
  { world with effects := world.effects ++ effects }

theorem record_foldl {Value : Type} (effects : Value → List Effect)
    (step : World Store Carrier → Value → World Store Carrier)
    (each : ∀ world value, step world value = world.recorded (effects value)) (values : List Value)
    (world : World Store Carrier) :
    values.foldl step world = world.recorded (values.flatMap effects) := by
  induction values generalizing world with
  | nil => simp [World.recorded]
  | cons value values ih => simp [ih, each, World.recorded, List.append_assoc]

theorem recordEach_recorded {Value : Type} (effect : Value → Effect) (values : List Value)
    (world : World Store Carrier) :
    values.foldl (fun world value => world.record (effect value)) world =
      world.recorded (values.map effect) := by
  rw [List.map_eq_flatMap]
  exact record_foldl _ _ (fun world value => rfl) values world

theorem pumpEmits_recorded (world : World Store Carrier) (routes : List EmitRoute) :
    (world.pumpEmits routes).1 = world.recorded (outBroadcasts routes) := by
  refine record_foldl _ _ (fun world route => ?_) routes world
  refine record_foldl _ _ (fun world turtle => ?_) route.queued world
  exact recordEach_recorded _ route.outUris world

end Pump

section Following

variable {Store Carrier : Type} (host : Host Store Carrier)

/-- The same state with other effects before its own. -/
def World.following (earlier : List Effect) (world : World Store Carrier) : World Store Carrier :=
  { world with effects := earlier ++ world.effects }

variable (earlier : List Effect) (world : World Store Carrier)

theorem record_following (effect : Effect) :
    (world.following earlier).record effect = (world.record effect).following earlier := by
  simp [World.record, World.following]

theorem send_following (line : Text) :
    (world.following earlier).send line = (world.send line).following earlier :=
  record_following earlier world _

theorem insertTurtle_following (line : Text) :
    (world.following earlier).insertTurtle host line =
      ((world.insertTurtle host line).1.following earlier, (world.insertTurtle host line).2) := by
  simp [World.insertTurtle, World.record, World.following]

theorem insertWithDag_following (line : Text) :
    (world.following earlier).insertWithDag host line =
      (world.insertWithDag host line).following earlier := by
  unfold World.insertWithDag
  rw [record_following, insertTurtle_following]
  cases (world.record (.beforeInsert line)).insertTurtle host line with
  | mk stored outcome =>
      cases outcome with
      | error reason => rfl
      | ok done =>
          dsimp only
          rw [record_following, send_following]

theorem following_simulates : Simulates host host
    (fun (world other : World Store Carrier) => other = world.following earlier) where
  verify := rfl
  query := by
    rintro world _ rfl
    rfl
  theme := by
    rintro world _ rfl
    rfl
  update := by
    rintro world _ rfl sparql
    rfl
  call := by
    rintro world _ rfl call
    rfl
  recorded := by
    rintro world _ rfl effect -
    exact record_following earlier world effect
  inserted := by
    rintro world _ rfl line
    exact insertWithDag_following host earlier world line
  constructed := by
    rintro world _ rfl line
    rw [send_following, insertTurtle_following]
  updated := by
    rintro world _ rfl sparql
    unfold World.updated
    rw [record_following]
    rfl
  called := by
    rintro world _ rfl call path
    unfold World.called
    rw [record_following]
    rfl

/-- What a line does depends on nothing that was done before but the state. -/
theorem dispatch_following (hasCarrier : Bool) (defaultAccount line : Text) :
    dispatch host hasCarrier defaultAccount line (world.following earlier) =
      (dispatch host hasCarrier defaultAccount line world).following earlier :=
  (following_simulates host earlier).dispatch rfl hasCarrier defaultAccount line

end Following

section Framed

variable {Store Carrier : Type} (host : Host Store Carrier)

/-- One line of a script: nothing is lost when it is trimmed. -/
structure SingleLine (turtle : Text) : Prop where
  visible : turtle ≠ []
  trimmed : trim turtle = turtle
  unbroken : '\n' ∉ turtle

theorem turtleLines_joined {lines : List Text} (single : ∀ turtle ∈ lines, SingleLine turtle) :
    turtleLines (['\n'].intercalate lines) = lines := by
  by_cases empty : lines = []
  · rw [empty]
    rfl
  · have whole : ∀ turtle ∈ lines, '\n' ∉ turtle := fun turtle member =>
      (single turtle member).unbroken
    have same : lines.map trim = lines := by
      rw [List.map_congr_left fun turtle member => (single turtle member).trimmed, List.map_id']
    rw [turtleLines_rows, List.splitOn_intercalate '\n' whole empty, same, List.filter_eq_self]
    intro turtle member
    simpa using (single turtle member).visible

def dispatchAll (account : Text) (lines : List Text) (world : World Store Carrier) :
    World Store Carrier :=
  lines.foldl (fun world line => dispatch host true account line world) world

theorem dispatched_foldl (account : Text) (lines : List Text) (context : Context Store Carrier) :
    lines.foldl (fun context line => context.dispatched host account line) context =
      { context with world := dispatchAll host account lines context.world } := by
  induction lines generalizing context with
  | nil => rfl
  | cons line lines ih => exact ih (context.dispatched host account line)

/-- The effects of the lines, wherever they are dispatched. -/
theorem dispatchAll_recorded (account : Text) (lines : List Text) (world : World Store Carrier) :
    dispatchAll host account lines world =
      (dispatchAll host account lines { world with effects := [] }).following world.effects := by
  have kept : world = World.following world.effects { world with effects := [] } := by
    simp [World.following]
  conv_lhs => rw [kept]
  exact List.foldl_hom (World.following world.effects) fun state line =>
    dispatch_following host world.effects state true account line

/-- The input loop skips the empty lines. -/
theorem lines_dispatched (account : Text) (lines : List Text) (context : Context Store Carrier) :
    lines.foldl
        (fun context line => if line = [] then context else context.dispatched host account line)
        context =
      { context with world := dispatchAll host account (lines.filter (· ≠ [])) context.world } := by
  rw [← dispatched_foldl, List.foldl_filter]
  congr
  funext context line
  by_cases empty : line = []
  · simp [empty]
  · simp [empty]

theorem tick_lines (context : Context Store Carrier) (inputs : TickInputs Carrier)
    (iterated : inputs.iterated = .ok ()) {lines : List Text} (visible : ∀ line ∈ lines, line ≠ []) :
    let drained := context.tick host { inputs with queries := [], emits := [] }
    context.tick host { inputs with lines := inputs.lines ++ lines, queries := [], emits := [] } =
      { drained with world := dispatchAll host drained.accountId lines drained.world } := by
  have kept : lines.filter (· ≠ []) = lines :=
    List.filter_eq_self.mpr fun line member => by simpa using visible line member
  unfold Context.tick
  simp only [iterated, List.foldl_nil, lines_dispatched, List.filter_append, kept]
  rw [dispatchAll, List.foldl_append]
  rfl

theorem tick_queries (context : Context Store Carrier) (inputs : TickInputs Carrier)
    (iterated : inputs.iterated = .ok ()) :
    let drained := context.tick host { inputs with queries := [], emits := [] }
    context.tick host { inputs with emits := [] } =
      { drained with world := drained.world.recorded (inputs.queries.map .query) } := by
  unfold Context.tick
  simp only [iterated, List.foldl_nil, recordEach_recorded]

/-- The emissions of a tick do what their lines do when they are sent as one buffer, once the pump has
sent them out on the OUT channels of their nodes. -/
theorem emissions_as_sent (context : Context Store Carrier) (inputs : TickInputs Carrier)
    (iterated : inputs.iterated = .ok ()) (routes : List EmitRoute)
    (single : ∀ route ∈ routes, ∀ turtle ∈ route.queued, SingleLine turtle) :
    let buffer := ['\n'].intercalate (routes.flatMap EmitRoute.queued)
    SendArgs.batch ⟨false, false, Utf8.encode buffer⟩ false =
        .ok ((routes.flatMap EmitRoute.queued).map Utf8.encode) ∧
      let drained := context.tick host { inputs with queries := [], emits := [] }
      let sent := context.tick host { inputs with
        lines := inputs.lines ++ turtleLines buffer, queries := [], emits := [] }
      ∃ added, sent.world.effects = drained.world.effects ++ added ∧
        context.tickPumping host inputs routes =
          { sent with world := { sent.world with
            effects := drained.world.effects ++
              (inputs.queries.map .query ++ outBroadcasts routes ++ added) } } := by
  have each : ∀ turtle ∈ routes.flatMap EmitRoute.queued, SingleLine turtle := by
    intro turtle member
    obtain ⟨route, listed, queued⟩ := List.mem_flatMap.mp member
    exact single route listed turtle queued
  have framed := turtleLines_joined each
  constructor
  · rw [SendArgs.batch, if_neg (by simp), if_neg (by simp), Utf8.decode_encode]
    exact congrArg (fun lines => Except.ok (lines.map Utf8.encode)) framed
  · have lines := tick_lines host context inputs iterated fun line member => (each line member).visible
    have queries := tick_queries host context inputs iterated
    dsimp only at lines queries ⊢
    rw [framed, lines]
    generalize context.tick host { inputs with queries := [], emits := [] } = drained at queries ⊢
    refine ⟨(dispatchAll host drained.accountId (routes.flatMap EmitRoute.queued)
      { drained.world with effects := [] }).effects, ?_, ?_⟩
    · rw [dispatchAll_recorded]
      rfl
    · unfold Context.tickPumping
      simp only [queries]
      simp only [iterated, dispatched_foldl, pumpEmits_recorded]
      rw [dispatchAll_recorded, dispatchAll_recorded host _ _ drained.world]
      simp [World.recorded, World.following, World.pumpEmits]

/-- Without OUT channels the pump only hands its emissions to the tick. -/
theorem tickPumping_silent (context : Context Store Carrier) (inputs : TickInputs Carrier)
    (iterated : inputs.iterated = .ok ()) {routes : List EmitRoute}
    (silent : ∀ route ∈ routes, route.outUris = []) :
    context.tickPumping host inputs routes =
      context.tick host { inputs with emits := routes.flatMap EmitRoute.queued } := by
  have unsent : outBroadcasts routes = [] := by
    rw [outBroadcasts, List.flatMap_eq_nil_iff]
    intro route member
    simp [silent route member]
  unfold Context.tickPumping
  simp only [iterated, pumpEmits_recorded, unsent]
  unfold Context.tick
  simp only [lines_dispatched]
  simp [World.recorded, World.pumpEmits]

end Framed

section Cases

def noteLine : Text := "# a note".toList

def statementLine : Text := "<urn:s> <urn:p> <urn:o> .".toList

def outChannel : Text := "urn:out".toList

theorem singleLines : ∀ turtle ∈ [noteLine, statementLine], SingleLine turtle := by
  intro turtle member
  rcases List.mem_pair.mp member with rfl | rfl
  · exact ⟨by decide, by decide, by decide⟩
  · exact ⟨by decide, by decide, by decide⟩

theorem emissions_as_sent_note :
    SendArgs.batch ⟨false, false, Utf8.encode (noteLine ++ '\n' :: statementLine)⟩ false =
        .ok [Utf8.encode noteLine, Utf8.encode statementLine] ∧
      ∃ added, ((settled []).tick idleHost (quietTick (turtleLines (noteLine ++ '\n' :: statementLine)))
          ).world.effects =
            ((settled []).tick idleHost (quietTick [])).world.effects ++ added ∧
        ((settled []).tickPumping idleHost (quietTick [])
            [⟨[outChannel], [noteLine, statementLine]⟩]).world.effects =
          ((settled []).tick idleHost (quietTick [])).world.effects ++
            ([.broadcast outChannel noteLine, .broadcast outChannel statementLine] ++ added) := by
  obtain ⟨batch, added, sent, pumped⟩ := emissions_as_sent idleHost (settled []) (quietTick []) rfl
    [⟨[outChannel], [noteLine, statementLine]⟩]
    (by
      intro route member
      rw [List.mem_singleton.mp member]
      exact singleLines)
  exact ⟨batch, added, sent, congrArg (fun context => context.world.effects) pumped⟩

def Effect.sends : Effect → Bool
  | .send _ => true
  | _ => false

/-- Emitted as one text, the lines have the executions, calls, inserts and broadcasts that they have as
one buffer. -/
def AsSent {Store Carrier : Type} (host : Host Store Carrier) (context : Context Store Carrier)
    (inputs : TickInputs Carrier) (outUris lines : List Text) : Prop :=
  let buffer := ['\n'].intercalate lines
  (context.tickPumping host inputs [⟨outUris, [buffer]⟩]).world.effects.filter (!·.sends) =
    (context.tick host { inputs with lines := inputs.lines ++ turtleLines buffer }).world.effects.filter
      (!·.sends)

/-- A comment in front takes the statement with it, and an OUT channel has a broadcast of its own. -/
theorem emission_not_as_sent :
    (∀ turtle ∈ [noteLine, statementLine], SingleLine turtle) ∧
      ¬ AsSent idleHost (settled []) (quietTick []) [] [noteLine, statementLine] ∧
      ¬ AsSent idleHost (settled []) (quietTick []) [outChannel] [statementLine] := by
  refine ⟨singleLines, ?_⟩
  unfold AsSent
  decide

end Cases

end LeanAntenna
