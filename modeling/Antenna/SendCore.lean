import Antenna.ClockCore
import Antenna.Library.Replay
import Antenna.Library.Utf8
import Mathlib.Algebra.GroupWithZero.Nat

/-!
`antenna_send`: a buffer is cut into lines, and each line is pushed onto the IN ring with a bounded
number of attempts, while the worker drains the ring at any pace.
-/

namespace LeanAntenna

open Text Replay

/-- `FFI_RING_BYTES` -/
def ffiRingBytes : Nat := 2 ^ 20

/-- The lines that `push_turtle_lines` pushes. -/
def turtleLines (input : Text) : List Text := ((lines input).map trim).filter (· ≠ [])

structure SendArgs where
  handleNull : Bool
  turtleNull : Bool
  turtle : List UInt8

/-- The lines a call pushes, or the code with which it returns at once. -/
def SendArgs.batch (args : SendArgs) (poisoned : Bool) : Except Int (List (List UInt8)) :=
  if args.handleNull ∨ (args.turtleNull ∧ args.turtle ≠ []) then .error (-1)
  else if poisoned then .error (-4)
  else
    match Utf8.decode args.turtle with
    | none => .error (-2)
    | some text => .ok ((turtleLines text).map Utf8.encode)

/-- A call of `antenna_send` under way: the lines still to push, the attempts at the first of them,
the lines enqueued so far, and what the worker has received since the call began. -/
structure Sending where
  ring : RingBuffer
  batch : List (List UInt8)
  remaining : List (List UInt8)
  attempt : Nat
  result : Option Int
  enqueued : List (List UInt8)
  received : List (List UInt8)

/-- The caller may call again with the same buffer once a call has returned -3. -/
inductive SendAction where
  | attempt
  | drain
  | retry
deriving DecidableEq, Repr

namespace Sending

def start (ring : RingBuffer) (batch : List (List UInt8)) : Sending :=
  { ring, batch, remaining := batch, attempt := 0, result := none, enqueued := [], received := [] }

def antennaSend (ring : RingBuffer) (args : SendArgs) (poisoned : Bool) : Sending :=
  match args.batch poisoned with
  | .error code => { start ring [] with result := some code }
  | .ok batch => start ring batch

/-- One attempt of `ChannelWriter::send` at the next line. -/
def push (sending : Sending) : Sending :=
  match sending.result, sending.remaining with
  | some _, _ => sending
  | none, [] => { sending with result := some 0 }
  | none, line :: rest =>
      match sending.ring.push line with
      | (ring, true) =>
          { sending with
            ring
            remaining := rest
            attempt := 0
            enqueued := sending.enqueued ++ [line] }
      | (ring, false) =>
          if sending.attempt + 1 < sendAttempts then
            { sending with ring, attempt := sending.attempt + 1 }
          else { sending with ring, result := some (-3) }

def drain (sending : Sending) : Sending :=
  match sending.ring.pop with
  | (ring, some data) => { sending with ring, received := sending.received ++ [data] }
  | (ring, none) => { sending with ring }

def retry (sending : Sending) : Sending :=
  if sending.result = some (-3) then
    { sending with remaining := sending.batch, attempt := 0, result := none }
  else sending

def step (sending : Sending) : SendAction → Sending
  | .attempt => sending.push
  | .drain => sending.drain
  | .retry => sending.retry

/-- A refused call has enqueued nothing, and the lines of an accepted one reach the worker once,
behind what lay in the ring. -/
structure Atomic (initial : List (List UInt8)) (sending : Sending) : Prop where
  refused : sending.result = some (-3) → sending.enqueued = []
  accepted : sending.result = some 0 → sending.enqueued = sending.batch
  delivered : sending.result = some 0 → sending.ring.pop.2 = none →
    sending.received = initial ++ sending.batch

end Sending

end LeanAntenna
