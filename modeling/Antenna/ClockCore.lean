import Antenna.RingCore

/-!
The clock of a channel over its two kernel objects, `ChannelWriter::send`, and the poll loop of a
script node's thread over any number of inboxes.
-/

namespace LeanAntenna

/-- The `target_os` that selects the clock: an eventfd on Linux, a pipe elsewhere. -/
inductive TargetOs where
  | linux
  | other
deriving DecidableEq, Repr

/-- A non-blocking pipe: how many bytes it holds and how many it can hold. -/
structure Pipe where
  held : Nat
  size : Nat
  positive : 0 < size
  bounded : held ≤ size

/-- A pipe writes the bytes it has room for and fails with EAGAIN otherwise. -/
def Pipe.write (pipe : Pipe) (count : Nat) : Pipe :=
  if room : pipe.held + count ≤ pipe.size then
    { pipe with held := pipe.held + count, bounded := room }
  else pipe

def Pipe.read (pipe : Pipe) (count : Nat) : Pipe :=
  { pipe with held := pipe.held - count, bounded := Nat.le_trans (Nat.sub_le _ _) pipe.bounded }

inductive Clock where
  | eventfd (counter : Nat)
  | selfPipe (pipe : Pipe)

namespace Clock

def new (os : TargetOs) (pipeSize : Nat) (positive : 0 < pipeSize) : Clock :=
  match os with
  | .linux => .eventfd 0
  | .other => .selfPipe { held := 0, size := pipeSize, positive, bounded := Nat.zero_le _ }

/-- `write(2)` of a buffer. An eventfd takes exactly eight bytes and adds their value; fewer fail
with EINVAL and change nothing. -/
def write (clock : Clock) (buf : List UInt8) : Clock :=
  match clock with
  | .eventfd counter =>
      if buf.length < 8 then .eventfd counter
      else .eventfd (counter + (buf.take 8).foldr (fun byte value => byte.toNat + 256 * value) 0)
  | .selfPipe pipe => .selfPipe (pipe.write buf.length)

/-- `read(2)` into a buffer of `count` bytes: an eventfd is zeroed by a read of eight bytes. -/
def read (clock : Clock) (count : Nat) : Clock :=
  match clock with
  | .eventfd counter => if count < 8 then .eventfd counter else .eventfd 0
  | .selfPipe pipe => .selfPipe (pipe.read count)

/-- What `poll(2)` reports as POLLIN on the read end. -/
def readable : Clock → Bool
  | .eventfd counter => decide (0 < counter)
  | .selfPipe pipe => decide (0 < pipe.held)

def signal (clock : Clock) : Clock := clock.write [1]

def consume (clock : Clock) : Clock := clock.read 8

def isEventfd : Clock → Bool
  | .eventfd _ => true
  | .selfPipe _ => false

end Clock

/-- Where a producer stands inside `ChannelWriter::send`; `pushed` is between the successful push
and the signal. -/
inductive SendPc where
  | idle
  | attempting (data : List UInt8) (attempt : Nat)
  | pushed
deriving DecidableEq, Repr

/-- One channel into a node: its ring, its clock and its producer. -/
structure Inbox where
  ring : RingBuffer
  clock : Clock
  sender : SendPc

/-- `for attempt in 0..20u32` in `ChannelWriter::send`. -/
def sendAttempts : Nat := 20

namespace Inbox

def new (os : TargetOs) (pipeSize : Nat) (positive : 0 < pipeSize) (capacity : Nat) : Inbox :=
  { ring := RingBuffer.new capacity, clock := Clock.new os pipeSize positive, sender := .idle }

def call (inbox : Inbox) (data : List UInt8) : Option Inbox :=
  match inbox.sender with
  | .idle => some { inbox with sender := .attempting data 0 }
  | _ => none

/-- One attempt of `send`: a refused push sleeps and tries again until the attempts are used up,
then the message is dropped. -/
def attempt (inbox : Inbox) : Option Inbox :=
  match inbox.sender with
  | .attempting data attempt =>
      match inbox.ring.push data with
      | (ring, true) => some { inbox with ring, sender := .pushed }
      | (ring, false) =>
          if attempt + 1 < sendAttempts then
            some { inbox with ring, sender := .attempting data (attempt + 1) }
          else some { inbox with ring, sender := .idle }
  | _ => none

def signal (inbox : Inbox) : Option Inbox :=
  match inbox.sender with
  | .pushed => some { inbox with clock := inbox.clock.signal, sender := .idle }
  | _ => none

/-- The ring holds something that `pop` would return. -/
def Unread (inbox : Inbox) : Prop := inbox.ring.tail ≠ inbox.ring.head

instance (inbox : Inbox) : Decidable inbox.Unread := inferInstanceAs (Decidable (_ ≠ _))

end Inbox

/-- Where a node's thread stands in its loop. `scanning` walks the poll results in order;
`draining` has consumed the clock of one inbox and receives until its ring is empty. -/
inductive NodePc (count : Nat) where
  | polling
  | scanning (revents : Fin count → Bool) (next : Nat)
  | draining (revents : Fin count → Bool) (current : Fin count)
  | stopped

structure NodeState (count : Nat) where
  inboxes : Fin count → Inbox
  thread : NodePc count

namespace NodeState

variable {count : Nat}

def start (os : TargetOs) (pipeSize : Nat) (positive : 0 < pipeSize) (capacity : Nat) :
    NodeState count :=
  { inboxes := fun _ => Inbox.new os pipeSize positive capacity, thread := .polling }

def setInbox (state : NodeState count) (index : Fin count) (inbox : Inbox) : NodeState count :=
  { state with inboxes := Function.update state.inboxes index inbox }

inductive Action (count : Nat) where
  | call (index : Fin count) (data : List UInt8)
  | attempt (index : Fin count)
  | signal (index : Fin count)
  | thread

/-- The thread's next action. A poll that reports nothing is repeated; a node without inboxes
leaves its loop. -/
def stepThread (state : NodeState count) : Option (NodeState count) :=
  match state.thread with
  | .polling =>
      if count = 0 then some { state with thread := .stopped }
      else
        let revents := fun index => (state.inboxes index).clock.readable
        if ∃ index, revents index = true then some { state with thread := .scanning revents 0 }
        else some state
  | .scanning revents next =>
      if inside : next < count then
        let current : Fin count := ⟨next, inside⟩
        let inbox := state.inboxes current
        if revents current then
          some { state.setInbox current { inbox with clock := inbox.clock.consume } with
            thread := .draining revents current }
        else some { state with thread := .scanning revents (next + 1) }
      else some { state with thread := .polling }
  | .draining revents current =>
      let inbox := state.inboxes current
      match inbox.ring.pop with
      | (ring, some _) => some (state.setInbox current { inbox with ring })
      | (ring, none) =>
          some { state.setInbox current { inbox with ring } with
            thread := .scanning revents (current.val + 1) }
  | .stopped => none

def step (state : NodeState count) : Action count → Option (NodeState count)
  | .call index data => ((state.inboxes index).call data).map (state.setInbox index)
  | .attempt index => (state.inboxes index).attempt.map (state.setInbox index)
  | .signal index => (state.inboxes index).signal.map (state.setInbox index)
  | .thread => state.stepThread

def isPolling (state : NodeState count) : Bool :=
  match state.thread with
  | .polling => true
  | _ => false

/-- Whenever the node is at its poll, every inbox with an unread message whose producer is not
between push and signal has a readable clock. -/
def NoLostWakeup (state : NodeState count) : Prop :=
  state.isPolling = true → ∀ index, (state.inboxes index).sender ≠ .pushed →
    (state.inboxes index).Unread → (state.inboxes index).clock.readable = true

instance (state : NodeState count) : Decidable state.NoLostWakeup :=
  inferInstanceAs (Decidable (_ → _))

end NodeState

end LeanAntenna
