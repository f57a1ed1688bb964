import Antenna.SendCore
import Antenna.DispatchReplies
import Antenna.EscapeCore
import Antenna.Library.Transition
import Antenna.TickSteps

/-!
A handle of the embedding interface with both sides at work: the embedder's calls on its threads, and
the worker that ticks, panics and stops on its own. The worker's tick is cut into its activities, and
every push and pop is one step.
-/

namespace LeanAntenna

open Text

/-- One direction of the handle: its ring, the messages its writer has still to send with the
attempts at the first of them, and what was offered, accepted, received and dropped so far. -/
structure Lane where
  ring : RingBuffer
  remaining : List (List UInt8)
  attempt : Nat
  offered : List (List UInt8)
  accepted : List (List UInt8)
  received : List (List UInt8)
  dropped : Nat
deriving DecidableEq

namespace Lane

def new (capacity : Nat) : Lane := ⟨RingBuffer.new capacity, [], 0, [], [], [], 0⟩

def offer (lane : Lane) (messages : List (List UInt8)) : Lane :=
  { lane with remaining := messages, attempt := 0, offered := lane.offered ++ messages }

def abandon (lane : Lane) : Lane :=
  { lane with
    remaining := []
    attempt := 0
    dropped := lane.dropped + lane.remaining.length }

/-- One attempt of `ChannelWriter::send`. In a batch a message that finds no room ends the whole
batch. -/
def push (batch : Bool) (lane : Lane) : Lane :=
  match lane.remaining with
  | [] => lane
  | message :: rest =>
      match lane.ring.push message with
      | (ring, true) =>
          { lane with
            ring
            remaining := rest
            attempt := 0
            accepted := lane.accepted ++ [message] }
      | (ring, false) =>
          if lane.attempt + 1 < sendAttempts then { lane with ring, attempt := lane.attempt + 1 }
          else if batch then { lane with ring }.abandon
          else { lane with ring, remaining := rest, attempt := 0, dropped := lane.dropped + 1 }

/-- `ChannelReader::recv` before its bytes are decoded. -/
def pop (lane : Lane) : Lane × Option (List UInt8) :=
  match lane.ring.pop with
  | (ring, some data) => ({ lane with ring, received := lane.received ++ [data] }, some data)
  | (ring, none) => ({ lane with ring }, none)

end Lane

/-- What the worker does next. A tick that panicked is `failing` until its error document is sent. -/
inductive WorkerStage where
  | polling
  | startup
  | bootstrap
  | clock
  | events
  | lines
  | queries
  | emits
  | failing
  | stopped
deriving DecidableEq, Repr

/-- `sends` and `drains` are what the finished calls of `antenna_send` and `antenna_drain` returned,
and `draining` counts the documents of a drain under way. `accountPoisoned` is the lock of the account
id after a panic under it. -/
structure AntennaHandle (Store Carrier : Type) where
  input : Lane
  output : Lane
  context : Context Store Carrier
  stage : WorkerStage
  poisoned : Bool
  accountPoisoned : Bool
  done : Bool
  sending : Bool
  sends : List Int
  draining : Option Nat
  drains : List Int
  performed : List (Activity Carrier)

/-- The embedder's steps, the worker's steps and a panic anywhere in a tick, with the text of its
payload where it has one. -/
inductive HandleStep (Carrier : Type) where
  | send (args : SendArgs)
  | attempt
  | drain (handleNull cbNull : Bool)
  | deliver
  | destroy
  | poll
  | startup
  | bootstrap
  | iterate (carrier : Carrier) (succeeds : Bool)
  | event (event : CarrierEvent)
  | receive
  | query (sparql : Text)
  | emit (line : Text)
  | finish
  | write
  | panic (payload : Option Text) (underLock : Bool)
  | stop

def panicPayloadMessage (payload : Option Text) : Text :=
  payload.getD "(non-string panic payload)".toList

/-- The document with which a worker that panicked says good-bye. -/
def panicDocument (message : Text) : Text :=
  ("[] a <http://resonator.network/v2/antenna#Error> ; " ++
    "<http://resonator.network/v2/antenna#message> \"").toList ++ escapeTurtleString message ++
      "\" .".toList

def debugPanicMark : Text := "antenna:DebugPanic".toList

def debugPanicMessage : Text := "antenna:DebugPanic injected via FFI input".toList

namespace AntennaHandle

variable {Store Carrier : Type} (host : Host Store Carrier) (debugPanic : Bool)

/-- A new handle over rings of the given size; `antenna_create` takes `ffiRingBytes`. -/
def create (ringBytes : Nat) (context : Context Store Carrier) : AntennaHandle Store Carrier where
  input := Lane.new ringBytes
  output := Lane.new ringBytes
  context
  stage := .polling
  poisoned := false
  accountPoisoned := false
  done := false
  sending := false
  sends := []
  draining := none
  drains := []
  performed := []

/-- The lines that an activity adds to what the router sent. -/
def fresh (before after : Context Store Carrier) : List Text :=
  after.world.sent.drop before.world.sent.length

/-- An activity of the tick, whose messages go out one after the other before the next activity. -/
def perform (handle : AntennaHandle Store Carrier) (activity : Activity Carrier)
    (stage : WorkerStage) : AntennaHandle Store Carrier :=
  let context := handle.context.perform host activity
  { handle with
    context
    stage
    output := handle.output.offer ((fresh handle.context context).map Utf8.encode)
    performed := handle.performed ++ [activity] }

/-- `catch_unwind` around the tick: what the tick had still to send is lost, and the error document
goes out. -/
def fail (handle : AntennaHandle Store Carrier) (message : Text) : AntennaHandle Store Carrier :=
  { handle with
    stage := .failing
    output := handle.output.abandon.offer [Utf8.encode (panicDocument message)] }

/-- The worker goes on once the messages of its last activity are out. -/
def Ready (handle : AntennaHandle Store Carrier) (stages : List WorkerStage) : Prop :=
  handle.stage ∈ stages ∧ handle.output.remaining = []

instance (handle : AntennaHandle Store Carrier) (stages : List WorkerStage) :
    Decidable (handle.Ready stages) := inferInstanceAs (Decidable (_ ∧ _))

/-- `DebugPanicIn::recv` in the input loop of the tick; without a line the loop is over. -/
def receive (handle : AntennaHandle Store Carrier) : AntennaHandle Store Carrier :=
  match handle.input.pop with
  | (input, none) => { handle with input, stage := .queries }
  | (input, some data) =>
      let line := Utf8.lossy data
      if debugPanic = true ∧ contains line debugPanicMark then
        { handle with input }.fail debugPanicMessage
      else { handle with input }.perform host (.line line) .lines

/-- `antenna_send` up to its first push. -/
def send (handle : AntennaHandle Store Carrier) (args : SendArgs) : AntennaHandle Store Carrier :=
  match args.batch handle.poisoned with
  | .error code => { handle with sends := handle.sends ++ [code] }
  | .ok batch => { handle with input := handle.input.offer batch, sending := true }

/-- One attempt of an `antenna_send` under way; it returns when no line is left, and when one has
used up its attempts. -/
def attempt (handle : AntennaHandle Store Carrier) : AntennaHandle Store Carrier :=
  let input := handle.input.push true
  if handle.input.remaining = [] then
    { handle with sending := false, sends := handle.sends ++ [0] }
  else if handle.input.dropped < input.dropped then
    { handle with input, sending := false, sends := handle.sends ++ [-3] }
  else { handle with input }

/-- `count.saturating_add(1)` on a `c_int` -/
def saturatingSucc (count : Nat) : Nat := min (count + 1) (2 ^ 31 - 1)

/-- `antenna_drain` up to its first receive. -/
def drain (handle : AntennaHandle Store Carrier) (handleNull cbNull : Bool) :
    AntennaHandle Store Carrier :=
  if handleNull then { handle with drains := handle.drains ++ [-1] }
  else if cbNull then { handle with drains := handle.drains ++ [0] }
  else { handle with draining := some 0 }

/-- One receive of an `antenna_drain` under way. -/
def deliver (handle : AntennaHandle Store Carrier) (count : Nat) : AntennaHandle Store Carrier :=
  match handle.output.pop with
  | (output, some _) => { handle with output, draining := some (saturatingSucc count) }
  | (output, none) =>
      { handle with output, draining := none, drains := handle.drains ++ [(count : Int)] }

def tickStages : List WorkerStage := [.startup, .bootstrap, .clock, .events, .lines, .queries, .emits]

/-- A step that the thread it belongs to cannot take where it stands gives `none`. -/
def step (handle : AntennaHandle Store Carrier) :
    HandleStep Carrier → Option (AntennaHandle Store Carrier)
  | .send args => if handle.sending then none else some (handle.send args)
  | .attempt => if handle.sending then some handle.attempt else none
  | .drain handleNull cbNull =>
      if handle.draining = none then some (handle.drain handleNull cbNull) else none
  | .deliver => handle.draining.map handle.deliver
  | .destroy => some { handle with done := true }
  | .poll =>
      if handle.stage = .polling then
        some { handle with stage := if handle.done then .stopped else .startup }
      else none
  | .startup =>
      if handle.Ready [.startup] then some (handle.perform host .startup .bootstrap) else none
  | .bootstrap =>
      if handle.Ready [.bootstrap] then some (handle.perform host .bootstrap .clock) else none
  | .iterate carrier succeeds =>
      if handle.Ready [.clock] then
        some (handle.perform host (.clock carrier) (if succeeds then .events else .polling))
      else none
  | .event event =>
      if handle.Ready [.events] then some (handle.perform host (.event event) .events) else none
  | .receive =>
      if handle.Ready [.events, .lines] then some (handle.receive host debugPanic) else none
  | .query sparql =>
      if handle.Ready [.queries] then some (handle.perform host (.query sparql) .queries) else none
  | .emit line =>
      if handle.Ready [.queries, .emits] then some (handle.perform host (.emit line) .emits) else none
  | .finish =>
      if handle.Ready [.queries, .emits] then some { handle with stage := .polling } else none
  | .write =>
      if handle.output.remaining = [] then none
      else some { handle with output := handle.output.push false }
  | .panic payload underLock =>
      if handle.stage ∈ tickStages then
        some { handle.fail (panicPayloadMessage payload) with
          accountPoisoned := handle.accountPoisoned || (underLock && handle.stage = .events) }
      else none
  | .stop =>
      if handle.Ready [.failing] then some { handle with stage := .stopped, poisoned := true }
      else none

/-- `antenna_account_id`: how many bytes it copies, and the buffer it leaves. -/
def accountId (handle : AntennaHandle Store Carrier) (handleNull : Bool)
    (buffer : Option (List UInt8)) : Nat × Option (List UInt8) :=
  match buffer with
  | none => (0, none)
  | some bytes =>
      if handleNull = true ∨ bytes = [] ∨ handle.accountPoisoned = true then (0, some bytes)
      else
        let id := Utf8.encode handle.context.accountId
        let count := min id.length (bytes.length - 1)
        (count, some (id.take count ++ 0 :: bytes.drop (count + 1)))

end AntennaHandle

end LeanAntenna
