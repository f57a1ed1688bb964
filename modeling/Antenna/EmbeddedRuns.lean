import Antenna.EmbeddedLanes
import Antenna.EmitFraming

/-!
Every run of a handle, however the embedder's threads and the worker interleave, is a run of ticks one
after the other on the lines that went in; and what comes out is what those ticks sent.
-/

namespace LeanAntenna

open Text Replay Transition RingBuffer

variable {Store Carrier : Type} (host : Host Store Carrier)

section Following

variable (earlier : List Effect)

def Context.following (context : Context Store Carrier) : Context Store Carrier :=
  { context with world := context.world.following earlier }

theorem callCarrier_following (world : World Store Carrier) (call : CarrierCall) :
    (world.following earlier).callCarrier host call =
      (world.callCarrier host call).following earlier := by
  simp [World.callCarrier, World.record, World.following]

theorem publish_following (world : World Store Carrier) (line : Text) :
    (world.following earlier).publish host line = (world.publish host line).following earlier := by
  unfold World.publish
  rw [send_following, record_following, insertTurtle_following, record_following]

theorem accountReady_following (context : Context Store Carrier) (line : Text) :
    (context.following earlier).accountReady host line =
      (context.accountReady host line).following earlier := by
  unfold Context.accountReady Context.following
  cases pending : context.world.pendingAutoExport with
  | none =>
      have same : (context.world.following earlier).pendingAutoExport = none := pending
      simp only [same, record_following]
      rfl
  | some path =>
      have same : (context.world.following earlier).pendingAutoExport = some path := pending
      simp only [same, record_following]
      split
      · rfl
      · simp only [World.callCarrier, World.record, World.following, List.append_assoc]

theorem startup_following (context : Context Store Carrier) :
    (context.following earlier).startup host = (context.startup host).following earlier := by
  unfold Context.startup Context.dispatched Context.following
  dsimp only
  split
  · rfl
  · rw [dispatch_following]
    split
    · rw [callCarrier_following]
    · rfl

/-- What an activity does depends on nothing that was logged before. -/
theorem perform_following (context : Context Store Carrier) (activity : Activity Carrier) :
    (context.following earlier).perform host activity =
      (context.perform host activity).following earlier := by
  cases activity with
  | startup => exact startup_following host earlier context
  | bootstrap =>
      simp only [Context.perform, Context.bootstrap, Context.following]
      split
      · rw [publish_following]
      · rfl
  | clock carrier =>
      simp only [Context.perform, Context.following, record_following]
      rfl
  | event event =>
      simp only [Context.perform, Context.handleEvent]
      split
      · rw [accountReady_following]
        simp only [Context.following, publish_following]
      · simp only [Context.following, publish_following]
  | line line =>
      simp only [Context.perform]
      split
      · rfl
      · simp only [Context.dispatched, Context.following, dispatch_following]
  | query sparql => simp only [Context.perform, Context.following, record_following]
  | emit line => simp only [Context.perform, Context.dispatched, Context.following, dispatch_following]

end Following

/-- A context whose effects are still to come. -/
def Context.unlogged (context : Context Store Carrier) : Context Store Carrier :=
  { context with world := { context.world with effects := [] } }

theorem following_unlogged (context : Context Store Carrier) :
    context.unlogged.following context.world.effects = context := by
  simp [Context.following, Context.unlogged, World.following]

theorem sent_perform (context : Context Store Carrier) (activity : Activity Carrier) :
    (context.perform host activity).world.sent =
      context.world.sent ++ AntennaHandle.fresh context (context.perform host activity) := by
  have grown : (context.perform host activity).world.sent =
      context.world.sent ++ (context.unlogged.perform host activity).world.sent := by
    conv_lhs => rw [← following_unlogged context, perform_following]
    exact List.filterMap_append
  rw [AntennaHandle.fresh, grown, List.drop_left]

section Ticks

/-- The line that an activity reads from the input. -/
def Activity.input : Activity Carrier → Option Text
  | .line text => some text
  | _ => none

variable {inputs : TickInputs Carrier}

theorem activities_event (iterated : inputs.iterated = .ok ()) (unread : inputs.lines = [])
    (unasked : inputs.queries = []) (unpumped : inputs.emits = []) (event : CarrierEvent) :
    { inputs with events := inputs.events ++ [event] }.activities =
      inputs.activities ++ [.event event] := by
  simp [TickInputs.activities, iterated, unread, unasked, unpumped]

theorem activities_line (iterated : inputs.iterated = .ok ()) (unasked : inputs.queries = [])
    (unpumped : inputs.emits = []) (line : Text) :
    { inputs with lines := inputs.lines ++ [line] }.activities =
      inputs.activities ++ [.line line] := by
  simp [TickInputs.activities, iterated, unasked, unpumped]

theorem activities_query (iterated : inputs.iterated = .ok ()) (unpumped : inputs.emits = [])
    (sparql : Text) :
    { inputs with queries := inputs.queries ++ [sparql] }.activities =
      inputs.activities ++ [.query sparql] := by
  simp [TickInputs.activities, iterated, unpumped]

theorem activities_emit (iterated : inputs.iterated = .ok ()) (line : Text) :
    { inputs with emits := inputs.emits ++ [line] }.activities =
      inputs.activities ++ [.emit line] := by
  simp [TickInputs.activities, iterated]

/-- How much of a tick is behind the worker at each stage. A tick that panicked is cut off
somewhere. -/
inductive Begun : WorkerStage → List (Activity Carrier) → Prop
  | polling : Begun .polling []
  | startup : Begun .startup []
  | bootstrap : Begun .bootstrap [.startup]
  | clock : Begun .clock [.startup, .bootstrap]
  | events (inputs : TickInputs Carrier) (iterated : inputs.iterated = .ok ())
      (unread : inputs.lines = []) (unasked : inputs.queries = []) (unpumped : inputs.emits = []) :
      Begun .events inputs.activities
  | lines (inputs : TickInputs Carrier) (iterated : inputs.iterated = .ok ())
      (unasked : inputs.queries = []) (unpumped : inputs.emits = []) :
      Begun .lines inputs.activities
  | queries (inputs : TickInputs Carrier) (iterated : inputs.iterated = .ok ())
      (unpumped : inputs.emits = []) : Begun .queries inputs.activities
  | emits (inputs : TickInputs Carrier) (iterated : inputs.iterated = .ok ()) :
      Begun .emits inputs.activities
  | failing (inputs : TickInputs Carrier) (part : List (Activity Carrier))
      (front : part <+: inputs.activities) : Begun .failing part
  | stopped (inputs : TickInputs Carrier) (part : List (Activity Carrier))
      (front : part <+: inputs.activities) : Begun .stopped part

/-- A tick in which nothing arrives. -/
def TickInputs.idle (carrier : Carrier) : TickInputs Carrier := ⟨carrier, .ok (), [], [], [], []⟩

theorem Begun.front {stage : WorkerStage} {part : List (Activity Carrier)} (begun : Begun stage part)
    (carrier : Carrier) : ∃ inputs : TickInputs Carrier, part <+: inputs.activities := by
  cases begun with
  | polling => exact ⟨.idle carrier, List.nil_prefix⟩
  | startup => exact ⟨.idle carrier, List.nil_prefix⟩
  | bootstrap => exact ⟨.idle carrier, ⟨_, rfl⟩⟩
  | clock => exact ⟨.idle carrier, ⟨_, rfl⟩⟩
  | events inputs => exact ⟨inputs, List.prefix_rfl⟩
  | lines inputs => exact ⟨inputs, List.prefix_rfl⟩
  | queries inputs => exact ⟨inputs, List.prefix_rfl⟩
  | emits inputs => exact ⟨inputs, List.prefix_rfl⟩
  | failing inputs part front => exact ⟨inputs, front⟩
  | stopped inputs part front => exact ⟨inputs, front⟩

/-- Which activity leads from a stage to the next. An error of the carrier ends the tick, or all. -/
inductive Advances : WorkerStage → Activity Carrier → WorkerStage → Prop
  | startup : Advances .startup .startup .bootstrap
  | bootstrap : Advances .bootstrap .bootstrap .clock
  | clock (carrier : Carrier) : Advances .clock (.clock carrier) .events
  | failed (carrier : Carrier) {stage : WorkerStage} (ended : stage ∈ [.polling, .stopped]) :
      Advances .clock (.clock carrier) stage
  | event (event : CarrierEvent) : Advances .events (.event event) .events
  | line {stage : WorkerStage} (reading : stage ∈ [.events, .lines]) (line : Text) :
      Advances stage (.line line) .lines
  | query (sparql : Text) : Advances .queries (.query sparql) .queries
  | emit {stage : WorkerStage} (pumping : stage ∈ [.queries, .emits]) (line : Text) :
      Advances stage (.emit line) .emits

/-- The stages between which nothing is done. -/
inductive Passes : WorkerStage → WorkerStage → Prop
  | poll : Passes .polling .startup
  | read {stage : WorkerStage} (reading : stage ∈ [.events, .lines]) : Passes stage .queries
  | finish {stage : WorkerStage} (pumping : stage ∈ [.queries, .emits]) : Passes stage .polling

variable {stage next : WorkerStage} {part : List (Activity Carrier)} {activity : Activity Carrier}

theorem Advances.live (advances : Advances stage activity next) : stage ∉ [.failing, .stopped] := by
  cases advances with
  | line reading line => cases stage <;> simp at reading ⊢
  | emit pumping line => cases stage <;> simp at pumping ⊢
  | _ => decide

theorem Passes.live (passes : Passes stage next) :
    stage ∉ [.failing, .stopped] ∧ next ≠ .failing := by
  cases passes with
  | poll => decide
  | read reading => cases stage <;> simp at reading ⊢
  | finish pumping => cases stage <;> simp at pumping ⊢

/-- An activity lengthens the tick that is under way, or ends it. -/
theorem Begun.advance (begun : Begun stage part) (advances : Advances stage activity next) :
    ∃ (ticks : List (TickInputs Carrier)) (later : List (Activity Carrier)),
      part ++ [activity] = ticks.flatMap TickInputs.activities ++ later ∧ Begun next later := by
  cases advances with
  | startup =>
      cases begun
      exact ⟨[], _, rfl, .bootstrap⟩
  | bootstrap =>
      cases begun
      exact ⟨[], _, rfl, .clock⟩
  | clock carrier =>
      cases begun
      exact ⟨[], _, rfl, .events (.idle carrier) rfl rfl rfl rfl⟩
  | failed carrier ended =>
      cases begun
      simp only [List.mem_cons, List.not_mem_nil, or_false] at ended
      rcases ended with rfl | rfl
      · exact ⟨[⟨carrier, .error [], [], [], [], []⟩], [], rfl, .polling⟩
      · exact ⟨[], _, rfl, .stopped ⟨carrier, .error [], [], [], [], []⟩ _ List.prefix_rfl⟩
  | event event =>
      cases begun with
      | events inputs iterated unread unasked unpumped =>
          exact ⟨[], _, (activities_event iterated unread unasked unpumped event).symm,
            .events _ iterated unread unasked unpumped⟩
  | line reading line =>
      cases begun with
      | events inputs iterated unread unasked unpumped =>
          exact ⟨[], _, (activities_line iterated unasked unpumped line).symm,
            .lines _ iterated unasked unpumped⟩
      | lines inputs iterated unasked unpumped =>
          exact ⟨[], _, (activities_line iterated unasked unpumped line).symm,
            .lines _ iterated unasked unpumped⟩
      | _ => simp at reading
  | query sparql =>
      cases begun with
      | queries inputs iterated unpumped =>
          exact ⟨[], _, (activities_query iterated unpumped sparql).symm,
            .queries _ iterated unpumped⟩
  | emit pumping line =>
      cases begun with
      | queries inputs iterated unpumped =>
          exact ⟨[], _, (activities_emit iterated line).symm, .emits _ iterated⟩
      | emits inputs iterated =>
          exact ⟨[], _, (activities_emit iterated line).symm, .emits _ iterated⟩
      | _ => simp at pumping

theorem Begun.pass (begun : Begun stage part) (passes : Passes stage next) :
    ∃ (ticks : List (TickInputs Carrier)) (later : List (Activity Carrier)),
      part = ticks.flatMap TickInputs.activities ++ later ∧ Begun next later := by
  cases passes with
  | poll =>
      cases begun
      exact ⟨[], [], rfl, .startup⟩
  | read reading =>
      cases begun with
      | events inputs iterated _ _ unpumped => exact ⟨[], _, rfl, .queries inputs iterated unpumped⟩
      | lines inputs iterated _ unpumped => exact ⟨[], _, rfl, .queries inputs iterated unpumped⟩
      | _ => simp at reading
  | finish pumping =>
      cases begun with
      | queries inputs => exact ⟨[inputs], [], by simp, .polling⟩
      | emits inputs => exact ⟨[inputs], [], by simp, .polling⟩
      | _ => simp at pumping

end Ticks

namespace AntennaHandle

/-- The lines that activities read from the input. -/
def inputLines (performed : List (Activity Carrier)) : List Text := performed.filterMap Activity.input

theorem inputLines_snoc (performed : List (Activity Carrier)) (activity : Activity Carrier) :
    inputLines (performed ++ [activity]) = inputLines performed ++ activity.input.toList := by
  cases read : activity.input <;> simp [inputLines, read]

theorem sent_replay (start : Context Store Carrier) (activities : List (Activity Carrier)) :
    start.world.sent <+: (replay (Context.perform host) start activities).world.sent := by
  induction activities generalizing start with
  | nil => exact List.prefix_rfl
  | cons activity activities ih =>
      refine List.IsPrefix.trans ?_ (ih (start.perform host activity))
      exact ⟨_, (sent_perform host start activity).symm⟩

theorem fresh_append {before between after : Context Store Carrier}
    (first : before.world.sent <+: between.world.sent)
    (later : after.world.sent = between.world.sent ++ fresh between after) :
    fresh before after = fresh before between ++ fresh between after := by
  obtain ⟨more, grown⟩ := first
  conv_lhs => rw [fresh, later, ← grown, List.append_assoc, List.drop_left]
  congr 1
  rw [fresh, ← grown, List.drop_left]

end AntennaHandle

section Worker

/-- A worker that did what ticks do one after the other, the last one perhaps in part. -/
structure Ticking (begins context : Context Store Carrier) (stage : WorkerStage)
    (performed : List (Activity Carrier)) : Prop where
  worker : context = replay (Context.perform host) begins performed
  ticks : ∃ (ticks : List (TickInputs Carrier)) (part : List (Activity Carrier)),
    performed = ticks.flatMap TickInputs.activities ++ part ∧ Begun stage part

namespace Ticking

variable {host} {begins context : Context Store Carrier} {stage next : WorkerStage}
  {performed : List (Activity Carrier)} {activity : Activity Carrier}

theorem start : Ticking host begins begins .polling [] := ⟨rfl, [], [], rfl, .polling⟩

theorem perform (ticking : Ticking host begins context stage performed)
    (advances : Advances stage activity next) :
    Ticking host begins (context.perform host activity) next (performed ++ [activity]) := by
  obtain ⟨worker, ticks, part, split, begun⟩ := ticking
  obtain ⟨more, later, added, after⟩ := begun.advance advances
  refine ⟨?_, ticks ++ more, later, ?_, after⟩
  · rw [replay_append, ← worker]
    rfl
  · rw [split, List.append_assoc, added, List.flatMap_append, List.append_assoc]

theorem pass (ticking : Ticking host begins context stage performed) (passes : Passes stage next) :
    Ticking host begins context next performed := by
  obtain ⟨worker, ticks, part, split, begun⟩ := ticking
  obtain ⟨more, later, added, after⟩ := begun.pass passes
  refine ⟨worker, ticks ++ more, later, ?_, after⟩
  rw [split, added, List.flatMap_append, List.append_assoc]

/-- Wherever the worker is, its last tick can be cut off there. -/
theorem cutOff (ticking : Ticking host begins context stage performed)
    (ended : next ∈ [.failing, .stopped]) : Ticking host begins context next performed := by
  obtain ⟨worker, ticks, part, split, begun⟩ := ticking
  obtain ⟨inputs, front⟩ := begun.front begins.world.carrier
  refine ⟨worker, ticks, part, split, ?_⟩
  simp only [List.mem_cons, List.not_mem_nil, or_false] at ended
  rcases ended with rfl | rfl
  · exact .failing inputs part front
  · exact .stopped inputs part front

theorem fresh_perform (ticking : Ticking host begins context stage performed)
    (activity : Activity Carrier) :
    AntennaHandle.fresh begins (context.perform host activity) =
      AntennaHandle.fresh begins context ++
        AntennaHandle.fresh context (context.perform host activity) := by
  apply AntennaHandle.fresh_append _ (sent_perform host context activity)
  rw [ticking.worker]
  exact AntennaHandle.sent_replay host begins performed

theorem whole (ticking : Ticking host begins context stage performed) :
    ∃ (ticks : List (TickInputs Carrier)) (part : List (Activity Carrier))
      (last : TickInputs Carrier), part <+: last.activities ∧
        performed = ticks.flatMap TickInputs.activities ++ part ∧
        context = replay (Context.perform host) (replay (Context.tick host) begins ticks) part := by
  obtain ⟨worker, ticks, part, split, begun⟩ := ticking
  obtain ⟨last, front⟩ := begun.front begins.world.carrier
  refine ⟨ticks, part, last, front, split, ?_⟩
  rw [worker, split, replay_append, ← Context.ticks_eq_replay]

end Ticking

end Worker

namespace AntennaHandle

variable (debugPanic : Bool)

/-- What goes out behind the messages of the ticks: the document of a worker that panicked. -/
inductive Farewell : WorkerStage → Bool → List (List UInt8) → Prop
  | none {stage : WorkerStage} (running : stage ≠ .failing) : Farewell stage false []
  | failing (message : Text) : Farewell .failing false [Utf8.encode (panicDocument message)]
  | stopped (message : Text) : Farewell .stopped true [Utf8.encode (panicDocument message)]

/-- The worker did what ticks do one after the other, the last one perhaps in part, on the lines it
received; and it offered what they sent. A line that made the input panic was not dispatched. -/
structure Sequential (start : Context Store Carrier) (handle : AntennaHandle Store Carrier) :
    Prop where
  input : ∃ base waiting, handle.input.Carries base waiting
  output : ∃ base waiting, handle.output.Carries base waiting
  idle : handle.sending = false → handle.input.remaining = []
  texts : ∀ data ∈ handle.input.offered, ∃ text, data = Utf8.encode text
  ticking : Ticking host start handle.context handle.stage handle.performed
  lines : ∃ spoiled, handle.input.received =
      (inputLines handle.performed ++ spoiled).map Utf8.encode ∧ spoiled.length ≤ 1 ∧
        (Farewell handle.stage handle.poisoned [] → spoiled = [])
  messages : ∃ farewell, Farewell handle.stage handle.poisoned farewell ∧
    handle.output.offered = (fresh start handle.context).map Utf8.encode ++ farewell

/-- No message is so long that its size wraps where it is pushed. -/
def Fits (handle : AntennaHandle Store Carrier) : HandleStep Carrier → Prop
  | .attempt => ∀ message ∈ handle.input.remaining.head?, Short message
  | .write => ∀ message ∈ handle.output.remaining.head?, Short message
  | _ => True

instance (handle : AntennaHandle Store Carrier) :
    ∀ action : HandleStep Carrier, Decidable (handle.Fits action)
  | .attempt => inferInstanceAs (Decidable (∀ message ∈ handle.input.remaining.head?, _ < _))
  | .write => inferInstanceAs (Decidable (∀ message ∈ handle.output.remaining.head?, _ < _))
  | .send _ | .drain _ _ | .deliver | .destroy | .poll | .startup | .bootstrap | .iterate _ _
  | .event _ | .receive | .query _ | .emit _ | .finish | .panic _ _ | .stop => isTrue trivial

variable {host} {start : Context Store Carrier} {handle : AntennaHandle Store Carrier}

theorem create_sequential {ringBytes : Nat} (divides : ringBytes ∣ 2 ^ 32)
    (start : Context Store Carrier) : (create ringBytes start).Sequential host start where
  input := ⟨0, [], Lane.new_carries divides⟩
  output := ⟨0, [], Lane.new_carries divides⟩
  idle _ := rfl
  texts data offered := absurd offered (List.not_mem_nil)
  ticking := .start
  lines := ⟨[], rfl, by simp, fun _ => rfl⟩
  messages := ⟨[], .none nofun, by simp [create, fresh, Lane.new]⟩

theorem batch_texts {args : SendArgs} {poisoned : Bool} {batch : List (List UInt8)}
    (cut : args.batch poisoned = .ok batch) : ∀ data ∈ batch, ∃ text, data = Utf8.encode text := by
  intro data listed
  unfold SendArgs.batch at cut
  split at cut
  · cases cut
  · split at cut
    · cases cut
    · split at cut
      · cases cut
      · cases cut
        obtain ⟨text, _, rfl⟩ := List.mem_map.mp listed
        exact ⟨text, rfl⟩

theorem Sequential.send (sequential : handle.Sequential host start) (free : handle.sending = false)
    (args : SendArgs) : (handle.send args).Sequential host start := by
  unfold AntennaHandle.send
  split
  · exact { sequential with }
  · rename_i batch cut
    obtain ⟨base, waiting, carries⟩ := sequential.input
    exact { sequential with
      input := ⟨base, waiting, carries.offer (sequential.idle free) batch⟩
      idle := nofun
      texts := fun data offered => (List.mem_append.mp offered).elim (sequential.texts data)
        (batch_texts cut data) }

theorem Sequential.attempt (sequential : handle.Sequential host start)
    (busy : handle.sending = true) (fits : handle.Fits .attempt) : handle.attempt.Sequential host start := by
  obtain ⟨base, waiting, carries⟩ := sequential.input
  obtain ⟨later, pushed⟩ := carries.push true fits
  have texts : ∀ data ∈ (handle.input.push true).offered, ∃ text, data = Utf8.encode text := by
    rw [Lane.push_offered]
    exact sequential.texts
  have lines := sequential.lines
  rw [← Lane.push_received handle.input true] at lines
  unfold AntennaHandle.attempt
  dsimp only
  split
  · rename_i idle
    exact { sequential with idle := fun _ => idle }
  · split
    · rename_i lost
      exact { sequential with
        input := ⟨base, later, pushed⟩
        idle := fun _ => Lane.push_batch_dropped lost
        texts
        lines }
    · exact { sequential with
        input := ⟨base, later, pushed⟩
        idle := fun free => absurd (busy.symm.trans free) (by decide)
        texts
        lines }

theorem Sequential.deliver (sequential : handle.Sequential host start) (count : Nat) :
    (handle.deliver count).Sequential host start := by
  obtain ⟨base, waiting, carries⟩ := sequential.output
  have offered := (Lane.pop_rest handle.output).1
  unfold AntennaHandle.deliver
  cases waiting with
  | nil =>
      rw [carries.pop_none]
      exact { sequential with }
  | cons message rest =>
      obtain ⟨popped, later⟩ := carries.pop_some
      rw [popped] at later ⊢
      exact { sequential with output := ⟨_, rest, later⟩ }

theorem Sequential.write (sequential : handle.Sequential host start) (fits : handle.Fits .write) :
    { handle with output := handle.output.push false }.Sequential host start := by
  obtain ⟨base, waiting, carries⟩ := sequential.output
  obtain ⟨later, pushed⟩ := carries.push false fits
  have messages := sequential.messages
  rw [← Lane.push_offered handle.output false] at messages
  exact { sequential with output := ⟨base, later, pushed⟩, messages }

theorem Farewell.running {stage : WorkerStage} {poisoned : Bool} {farewell : List (List UInt8)}
    (goodbye : Farewell stage poisoned farewell) (live : stage ∉ [.failing, .stopped]) :
    poisoned = false ∧ farewell = [] := by
  cases goodbye with
  | none running => exact ⟨rfl, rfl⟩
  | failing message => simp at live
  | stopped message => simp at live

theorem Farewell.length_le {stage : WorkerStage} {poisoned : Bool} {farewell : List (List UInt8)}
    (goodbye : Farewell stage poisoned farewell) : farewell.length ≤ 1 := by
  cases goodbye with
  | none running => exact Nat.zero_le _
  | failing message => exact Nat.le_refl _
  | stopped message => exact Nat.le_refl _

theorem Farewell.silent {stage : WorkerStage} {poisoned : Bool} {farewell : List (List UInt8)}
    (goodbye : Farewell stage poisoned farewell) (running : stage ≠ .failing)
    (unpoisoned : poisoned = false) : farewell = [] := by
  cases goodbye with
  | none _ => rfl
  | failing message => exact absurd rfl running
  | stopped message => cases unpoisoned

theorem Farewell.last {poisoned : Bool} {farewell : List (List UInt8)}
    (goodbye : Farewell .failing poisoned farewell) :
    ∃ message, farewell = [Utf8.encode (panicDocument message)] := by
  cases goodbye with
  | none running => exact absurd rfl running
  | failing message => exact ⟨message, rfl⟩

/-- An activity performed on the input as the step that led to it left it. -/
theorem Sequential.perform (sequential : handle.Sequential host start)
    (ready : handle.output.remaining = []) {input : Lane} {base : Nat}
    {waiting : List (List UInt8)} (carries : input.Carries base waiting)
    (offered : input.offered = handle.input.offered)
    (remaining : input.remaining = handle.input.remaining) {activity : Activity Carrier}
    (received : input.received = handle.input.received ++ activity.input.toList.map Utf8.encode)
    {stage : WorkerStage} (advances : Advances handle.stage activity stage)
    (alive : stage ∉ [.failing, .stopped]) :
    ({ handle with input }.perform host activity stage).Sequential host start := by
  obtain ⟨farewell, goodbye, messages⟩ := sequential.messages
  have live := advances.live
  obtain ⟨unpoisoned, rfl⟩ := goodbye.running live
  have running : Farewell stage handle.poisoned [] := by
    rw [unpoisoned]
    exact .none fun failing => alive (by simp [failing])
  obtain ⟨outBase, outWaiting, outCarries⟩ := sequential.output
  obtain ⟨spoiled, lines, _, clean⟩ := sequential.lines
  have unspoiled : spoiled = [] := by
    apply clean
    rw [unpoisoned]
    exact .none fun failing => live (by simp [failing])
  refine {
    input := ⟨base, waiting, carries⟩
    output := ⟨outBase, outWaiting, outCarries.offer ready _⟩
    idle := fun free => remaining.trans (sequential.idle free)
    texts := fun data member => sequential.texts data (offered ▸ member)
    ticking := sequential.ticking.perform advances
    lines := ⟨[], ?_, by simp, fun _ => rfl⟩
    messages := ⟨[], running, ?_⟩ }
  · change input.received = (inputLines (handle.performed ++ [activity]) ++ []).map Utf8.encode
    rw [received, lines, unspoiled, inputLines_snoc]
    simp
  · change handle.output.offered ++ _ = (fresh start (handle.context.perform host activity)).map
      Utf8.encode ++ []
    rw [messages, sequential.ticking.fresh_perform activity]
    simp

theorem Sequential.activity (sequential : handle.Sequential host start)
    (ready : handle.output.remaining = []) {activity : Activity Carrier}
    (unread : activity.input = none) {stage : WorkerStage}
    (advances : Advances handle.stage activity stage) (alive : stage ∉ [.failing, .stopped]) :
    (handle.perform host activity stage).Sequential host start := by
  obtain ⟨base, waiting, carries⟩ := sequential.input
  exact sequential.perform ready carries rfl rfl (by simp [unread]) advances alive

/-- A tick that panics is cut off, and its document goes out behind the messages. -/
theorem Sequential.fail (sequential : handle.Sequential host start)
    (live : handle.stage ∉ [.failing, .stopped]) {input : Lane} {base : Nat}
    {waiting : List (List UInt8)} (carries : input.Carries base waiting)
    (offered : input.offered = handle.input.offered)
    (remaining : input.remaining = handle.input.remaining) {spoiled : List Text}
    (received : input.received = handle.input.received ++ spoiled.map Utf8.encode)
    (single : spoiled.length ≤ 1) (message : Text) :
    ({ handle with input }.fail message).Sequential host start := by
  obtain ⟨farewell, goodbye, messages⟩ := sequential.messages
  obtain ⟨unpoisoned, rfl⟩ := goodbye.running live
  obtain ⟨outBase, outWaiting, outCarries⟩ := sequential.output
  obtain ⟨earlier, lines, _, clean⟩ := sequential.lines
  have unspoiled : earlier = [] := by
    apply clean
    rw [unpoisoned]
    exact .none fun failing => live (by simp [failing])
  refine {
    input := ⟨base, waiting, carries⟩
    output := ⟨outBase, outWaiting, outCarries.abandon.offer rfl _⟩
    idle := fun free => remaining.trans (sequential.idle free)
    texts := fun data member => sequential.texts data (offered ▸ member)
    ticking := sequential.ticking.cutOff List.mem_cons_self
    lines := ⟨spoiled, ?_, single, ?_⟩
    messages := ⟨[Utf8.encode (panicDocument message)], ?_, ?_⟩ }
  · change input.received = _
    rw [received, lines, unspoiled, List.append_nil, List.map_append]
    rfl
  · intro silent
    obtain ⟨_, impossible⟩ := silent.last
    cases impossible
  · change Farewell .failing handle.poisoned _
    rw [unpoisoned]
    exact .failing message
  · change handle.output.offered ++ _ = _
    rw [messages, List.append_nil]
    rfl

theorem Sequential.passes (sequential : handle.Sequential host start) {stage : WorkerStage}
    (passes : Passes handle.stage stage) : { handle with stage }.Sequential host start := by
  obtain ⟨farewell, goodbye, messages⟩ := sequential.messages
  obtain ⟨unpoisoned, rfl⟩ := goodbye.running passes.live.1
  obtain ⟨spoiled, lines, single, clean⟩ := sequential.lines
  have running : Farewell stage handle.poisoned [] := by
    rw [unpoisoned]
    exact .none passes.live.2
  exact { sequential with
    ticking := sequential.ticking.pass passes
    lines := ⟨spoiled, lines, single, fun _ => clean goodbye⟩
    messages := ⟨[], running, messages⟩ }

theorem Sequential.receive (sequential : handle.Sequential host start)
    (ready : handle.Ready [.events, .lines]) : (handle.receive host debugPanic).Sequential host start := by
  obtain ⟨reading, out⟩ := ready
  obtain ⟨base, waiting, carries⟩ := sequential.input
  unfold AntennaHandle.receive
  cases waiting with
  | nil =>
      rw [carries.pop_none]
      exact sequential.passes (.read reading)
  | cons data rest =>
      obtain ⟨popped, later⟩ := carries.pop_some
      have taken : data ∈ handle.input.offered := by
        obtain ⟨sent, split, order, _⟩ := carries.order
        rw [split]
        apply List.mem_append_left
        apply order.subset
        rw [← carries.balance]
        simp
      obtain ⟨line, rfl⟩ := sequential.texts data taken
      have advances : Advances handle.stage (.line line : Activity Carrier) .lines := .line reading line
      rw [popped] at later ⊢
      dsimp only at later ⊢
      rw [Utf8.lossy_encode]
      split
      · exact @Sequential.fail _ _ _ _ _ sequential advances.live _ _ _ later rfl rfl [line] rfl
          (by simp) _
      · exact sequential.perform out later rfl rfl rfl advances (by decide)

theorem Sequential.stop (sequential : handle.Sequential host start)
    (failing : handle.stage = .failing) :
    { handle with stage := .stopped, poisoned := true }.Sequential host start := by
  obtain ⟨farewell, goodbye, messages⟩ := sequential.messages
  obtain ⟨spoiled, lines, single, clean⟩ := sequential.lines
  rw [failing] at goodbye
  obtain ⟨message, rfl⟩ := goodbye.last
  exact { sequential with
    ticking := sequential.ticking.cutOff (by simp)
    lines := ⟨spoiled, lines, single, nofun⟩
    messages := ⟨_, .stopped message, messages⟩ }

theorem Sequential.close (sequential : handle.Sequential host start) (polling : handle.stage = .polling) :
    { handle with stage := .stopped }.Sequential host start := by
  obtain ⟨farewell, goodbye, messages⟩ := sequential.messages
  obtain ⟨unpoisoned, rfl⟩ := goodbye.running (by simp [polling])
  obtain ⟨spoiled, lines, single, clean⟩ := sequential.lines
  have running : Farewell .stopped handle.poisoned [] := by
    rw [unpoisoned]
    exact .none nofun
  exact { sequential with
    ticking := sequential.ticking.cutOff (by simp)
    lines := ⟨spoiled, lines, single, fun _ => clean goodbye⟩
    messages := ⟨[], running, messages⟩ }

theorem step_sequential {action : HandleStep Carrier} {next : AntennaHandle Store Carrier}
    (sequential : handle.Sequential host start) (fits : handle.Fits action)
    (stepped : handle.step host debugPanic action = some next) : next.Sequential host start := by
  cases action with
  | send args =>
      simp only [step] at stepped
      split at stepped
      · cases stepped
      · rename_i free
        cases stepped
        exact sequential.send (by simpa using free) args
  | attempt =>
      simp only [step] at stepped
      split at stepped
      · rename_i busy
        cases stepped
        exact sequential.attempt busy fits
      · cases stepped
  | drain handleNull cbNull =>
      simp only [step] at stepped
      split at stepped
      · cases stepped
        unfold AntennaHandle.drain
        split
        · exact { sequential with }
        · split
          · exact { sequential with }
          · exact { sequential with }
      · cases stepped
  | deliver =>
      obtain ⟨count, _, rfl⟩ := Option.map_eq_some_iff.mp stepped
      exact sequential.deliver count
  | destroy =>
      cases stepped
      exact { sequential with }
  | poll =>
      simp only [step] at stepped
      split at stepped
      · rename_i polling
        cases stepped
        have starts : Passes handle.stage .startup := polling ▸ .poll
        by_cases done : handle.done = true
        · rw [if_pos done]
          exact sequential.close polling
        · rw [if_neg done]
          exact sequential.passes starts
      · cases stepped
  | startup =>
      simp only [step] at stepped
      split at stepped
      · rename_i ready
        cases stepped
        have here : handle.stage = .startup := by simpa using ready.1
        exact sequential.activity ready.2 rfl (here ▸ .startup) (by decide)
      · cases stepped
  | bootstrap =>
      simp only [step] at stepped
      split at stepped
      · rename_i ready
        cases stepped
        have here : handle.stage = .bootstrap := by simpa using ready.1
        exact sequential.activity ready.2 rfl (here ▸ .bootstrap) (by decide)
      · cases stepped
  | iterate carrier succeeds =>
      simp only [step] at stepped
      split at stepped
      · rename_i ready
        cases stepped
        have here : handle.stage = .clock := by simpa using ready.1
        cases succeeds with
        | false => exact sequential.activity ready.2 rfl (here ▸ .failed carrier (by simp)) (by decide)
        | true => exact sequential.activity ready.2 rfl (here ▸ .clock carrier) (by decide)
      · cases stepped
  | event event =>
      simp only [step] at stepped
      split at stepped
      · rename_i ready
        cases stepped
        have here : handle.stage = .events := by simpa using ready.1
        exact sequential.activity ready.2 rfl (here ▸ .event event) (by decide)
      · cases stepped
  | receive =>
      simp only [step] at stepped
      split at stepped
      · rename_i ready
        cases stepped
        exact sequential.receive debugPanic ready
      · cases stepped
  | query sparql =>
      simp only [step] at stepped
      split at stepped
      · rename_i ready
        cases stepped
        have here : handle.stage = .queries := by simpa using ready.1
        exact sequential.activity ready.2 rfl (here ▸ .query sparql) (by decide)
      · cases stepped
  | emit line =>
      simp only [step] at stepped
      split at stepped
      · rename_i ready
        cases stepped
        exact sequential.activity ready.2 rfl (.emit ready.1 line) (by decide)
      · cases stepped
  | finish =>
      simp only [step] at stepped
      split at stepped
      · rename_i ready
        cases stepped
        exact sequential.passes (.finish ready.1)
      · cases stepped
  | write =>
      simp only [step] at stepped
      split at stepped
      · cases stepped
      · cases stepped
        exact sequential.write fits
  | panic payload underLock =>
      simp only [step] at stepped
      split at stepped
      · rename_i ticking
        cases stepped
        have live : handle.stage ∉ [.failing, .stopped] := by
          intro dead
          revert ticking dead
          cases handle.stage <;> decide
        obtain ⟨base, waiting, carries⟩ := sequential.input
        have nothing : handle.input.received =
            handle.input.received ++ ([] : List Text).map Utf8.encode := by simp
        have failed := sequential.fail live carries rfl rfl nothing (by simp)
          (panicPayloadMessage payload)
        exact { failed with }
      · cases stepped
  | stop =>
      simp only [step] at stepped
      split at stepped
      · rename_i ready
        cases stepped
        exact sequential.stop (by simpa using ready.1)
      · cases stepped

theorem run_sequential {ringBytes : Nat} (divides : ringBytes ∣ 2 ^ 32)
    {actions : List (HandleStep Carrier)}
    (fits : StepsMeet (step host debugPanic) Fits (create ringBytes start) actions)
    (ran : runSteps (step host debugPanic) (create ringBytes start) actions = some handle) :
    handle.Sequential host start :=
  runSteps_preserves Fits (Sequential host start)
    (fun _ _ _ sequential fits stepped => step_sequential debugPanic sequential fits stepped)
    (create_sequential divides start) fits ran

variable (host) in
/-- The handle did what `ticks` and the front part of one more tick do, read the lines it accepted in
order, and lets out the messages it sent in order. -/
structure RunsTicks (start : Context Store Carrier) (handle : AntennaHandle Store Carrier)
    (ticks : List (TickInputs Carrier)) (part : List (Activity Carrier)) : Prop where
  worker : handle.context =
    replay (Context.perform host) (replay (Context.tick host) start ticks) part
  lines : ∃ spoiled base waiting, handle.input.ring.Represents base waiting ∧
    handle.input.accepted =
      (inputLines (ticks.flatMap TickInputs.activities ++ part) ++ spoiled).map Utf8.encode ++
        waiting ∧
    spoiled.length ≤ 1 ∧ (handle.stage ≠ .failing → handle.poisoned = false → spoiled = [])
  messages : ∃ farewell base waiting, handle.output.ring.Represents base waiting ∧
    (handle.output.received ++ waiting).Sublist
      ((fresh start handle.context).map Utf8.encode ++ farewell) ∧
    (handle.output.dropped = 0 → handle.output.received ++ waiting ++ handle.output.remaining =
      (fresh start handle.context).map Utf8.encode ++ farewell) ∧
    farewell.length ≤ 1 ∧ (handle.stage ≠ .failing → handle.poisoned = false → farewell = [])

theorem Sequential.runsTicks (sequential : handle.Sequential host start) :
    ∃ (ticks : List (TickInputs Carrier)) (part : List (Activity Carrier))
      (last : TickInputs Carrier), part <+: last.activities ∧
        RunsTicks host start handle ticks part := by
  obtain ⟨ticks, part, last, front, performed, worker⟩ := sequential.ticking.whole
  obtain ⟨inBase, unread, carriesIn⟩ := sequential.input
  obtain ⟨outBase, undrained, carriesOut⟩ := sequential.output
  obtain ⟨spoiled, lines, single, clean⟩ := sequential.lines
  obtain ⟨farewell, goodbye, offered⟩ := sequential.messages
  obtain ⟨sent, split, order, whole⟩ := carriesOut.order
  have quiet : handle.stage ≠ .failing → handle.poisoned = false →
      Farewell handle.stage handle.poisoned [] := by
    intro running unpoisoned
    rw [unpoisoned]
    exact .none running
  refine ⟨ticks, part, last, front, worker, ?_, ?_⟩
  · refine ⟨spoiled, inBase, unread, carriesIn.represents, ?_, single, ?_⟩
    · rw [← performed, ← lines, carriesIn.balance]
    · intro running unpoisoned
      exact clean (quiet running unpoisoned)
  · refine ⟨farewell, outBase, undrained, carriesOut.represents, ?_, ?_, ?_, ?_⟩
    · rw [carriesOut.balance, ← offered, split]
      exact order.trans (List.sublist_append_left _ _)
    · intro none
      rw [carriesOut.balance, ← offered, split, whole none]
    · exact goodbye.length_le
    · exact goodbye.silent

/-- However the embedder's calls, the worker and a panic interleave, the worker does what a run of
ticks does on the lines the embedder got accepted, in order and each once; and what is drained is what
these ticks sent, in order, all of it as long as no message found the ring full in all its attempts. -/
theorem embedded_run_is_ticks {ringBytes : Nat} (divides : ringBytes ∣ 2 ^ 32)
    {actions : List (HandleStep Carrier)}
    (fits : StepsMeet (step host debugPanic) Fits (create ringBytes start) actions)
    (ran : runSteps (step host debugPanic) (create ringBytes start) actions = some handle) :
    ∃ (ticks : List (TickInputs Carrier)) (part : List (Activity Carrier))
      (last : TickInputs Carrier), part <+: last.activities ∧
        RunsTicks host start handle ticks part :=
  (run_sequential debugPanic divides fits ran).runsTicks

/-- A statement is sent, stored, echoed and drained. -/
def echoRun : List (HandleStep Unit) :=
  [.send ⟨false, false, Utf8.encode "<a> <b> <c> .".toList⟩, .attempt, .poll, .startup, .bootstrap,
    .iterate () true, .receive, .write, .attempt, .receive, .finish, .drain false false, .deliver,
    .deliver]

theorem embedded_run_is_ticks_echo :
    ∃ handle, runSteps (step idleHost true) (create 64 (settled [])) echoRun = some handle ∧
      handle.output.received = [Utf8.encode "<a> <b> <c> .".toList] ∧ handle.drains = [1] ∧
        ∃ (ticks : List (TickInputs Unit)) (part : List (Activity Unit)) (last : TickInputs Unit),
          part <+: last.activities ∧ RunsTicks idleHost (settled []) handle ticks part := by
  have facts : StepsMeet (step idleHost true) Fits (create 64 (settled [])) echoRun ∧
      (runSteps (step idleHost true) (create 64 (settled [])) echoRun).map
          (fun handle => (handle.output.received, handle.drains)) =
        some ([Utf8.encode "<a> <b> <c> .".toList], [1]) := by decide +kernel
  obtain ⟨fits, outcome⟩ := facts
  obtain ⟨handle, ran, seen⟩ := Option.map_eq_some_iff.mp outcome
  obtain ⟨received, drains⟩ := Prod.mk.inj seen
  exact ⟨handle, ran, received, drains, embedded_run_is_ticks true (by decide) fits ran⟩

end AntennaHandle

end LeanAntenna
