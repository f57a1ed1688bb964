import Antenna.Library.Transition
import Antenna.Library.Fifo

/-!
The single-producer single-consumer ring buffer of `channel.rs`. `push` and `pop` are the two
functions run without interference; `Machine` runs them one memory access at a time, so that a
list of actions is any interleaving of one producer with one consumer. All `u32` arithmetic
wraps, as in the release profile.
-/

namespace LeanAntenna

/-- `u32::to_le_bytes`. -/
def toLeBytes (value : UInt32) : List UInt8 :=
  [UInt8.ofNat value.toNat, UInt8.ofNat (value.toNat / 256),
    UInt8.ofNat (value.toNat / 65536), UInt8.ofNat (value.toNat / 16777216)]

/-- `u32::from_le_bytes`. -/
def fromLeBytes (bytes : List UInt8) : UInt32 :=
  UInt32.ofNat (bytes.foldr (fun byte value => byte.toNat + 256 * value) 0)

structure RingBuffer where
  head : UInt32
  tail : UInt32
  buf : Array UInt8
  capacity : UInt32
deriving DecidableEq, Repr

namespace RingBuffer

/-- The `usize` capacity sizes the backing store; the field keeps its low 32 bits. -/
def new (capacity : Nat) : RingBuffer :=
  { head := 0, tail := 0, buf := Array.replicate capacity 0, capacity := UInt32.ofNat capacity }

/-- Physical index of a counter value. With a zero `capacity` field the source would panic here,
but neither `push` nor `pop` gets this far: nothing fits, and the buffer stays empty. -/
def slot (ring : RingBuffer) (position : UInt32) : Nat := (position % ring.capacity).toNat

def byteAt (ring : RingBuffer) (position : UInt32) : UInt8 := ring.buf.getD (ring.slot position) 0

def writeByte (ring : RingBuffer) (position : UInt32) (byte : UInt8) : RingBuffer :=
  { ring with buf := ring.buf.setIfInBounds (ring.slot position) byte }

/-- One of the enumerated write loops of `push`, from index `i` on. -/
def writeFrom (start : UInt32) : Nat → List UInt8 → RingBuffer → RingBuffer
  | _, [], ring => ring
  | i, byte :: rest, ring =>
      writeFrom start (i + 1) rest (ring.writeByte (start + UInt32.ofNat i) byte)

/-- One of the enumerated read loops of `pop`: `count` bytes from index `i` on. -/
def readFrom (ring : RingBuffer) (start : UInt32) : Nat → Nat → List UInt8
  | _, 0 => []
  | i, count + 1 =>
      ring.byteAt (start + UInt32.ofNat i) :: readFrom ring start (i + 1) count

def push (ring : RingBuffer) (data : List UInt8) : RingBuffer × Bool :=
  let len := UInt32.ofNat data.length
  let total := 4 + len
  let head := ring.head
  let tail := ring.tail
  let used := head - tail
  let free := ring.capacity - used
  if total > free then
    (ring, false)
  else
    let written := writeFrom head 0 (toLeBytes len) ring
    let written := writeFrom (head + 4) 0 data written
    ({ written with head := head + total }, true)

def pop (ring : RingBuffer) : RingBuffer × Option (List UInt8) :=
  let tail := ring.tail
  let head := ring.head
  if tail = head then
    (ring, none)
  else
    let len := fromLeBytes (ring.readFrom tail 0 4)
    let data := ring.readFrom (tail + 4) 0 len.toNat
    ({ ring with tail := tail + (4 + len) }, some data)

/-- The bytes between `tail` and `head`. -/
def unread (ring : RingBuffer) : List UInt8 :=
  ring.readFrom ring.tail 0 (ring.head - ring.tail).toNat

end RingBuffer

/-- A message as it lies in the ring: its length in four bytes, then its data. -/
def encode (data : List UInt8) : List UInt8 := toLeBytes (UInt32.ofNat data.length) ++ data

def encodeAll (messages : List (List UInt8)) : List UInt8 := messages.flatMap encode

def encodedSize (data : List UInt8) : Nat := 4 + data.length

/-- Where the producer stands inside `push`. -/
inductive PushPc where
  | idle
  | called (data : List UInt8)
  | headLoaded (data : List UInt8) (head : UInt32)
  | writing (data : List UInt8) (head used : UInt32) (written : Nat)
deriving DecidableEq, Repr

/-- Where the consumer stands inside `pop`. -/
inductive PopPc where
  | idle
  | called
  | tailLoaded (tail : UInt32)
  | readingLength (tail : UInt32) (bytes : List UInt8)
  | readingData (tail len : UInt32) (bytes : List UInt8)
deriving DecidableEq, Repr

/-- One finished call of `push`: its argument, the unread bytes it computed, its result. -/
structure PushReturn where
  data : List UInt8
  used : UInt32
  result : Bool
deriving DecidableEq, Repr

structure Machine where
  ring : RingBuffer
  producer : PushPc
  consumer : PopPc
  pushReturns : List PushReturn
  popped : List (List UInt8)
deriving DecidableEq, Repr

namespace Machine

def start (capacity : Nat) : Machine :=
  { ring := RingBuffer.new capacity, producer := .idle, consumer := .idle,
    pushReturns := [], popped := [] }

/-- The messages whose push returned true, in order. -/
def accepted (machine : Machine) : List (List UInt8) :=
  (machine.pushReturns.filter (·.result)).map (·.data)

inductive Action where
  | callPush (data : List UInt8)
  | producer
  | callPop
  | consumer
deriving DecidableEq, Repr

/-- The producer's next memory access. The length loop and the data loop write consecutive
positions, so one index runs over the length prefix and the data. -/
def stepProducer (machine : Machine) : Option Machine :=
  match machine.producer with
  | .idle => none
  | .called data => some { machine with producer := .headLoaded data machine.ring.head }
  | .headLoaded data head =>
      let used := head - machine.ring.tail
      let free := machine.ring.capacity - used
      if 4 + UInt32.ofNat data.length > free then
        some { machine with
          producer := .idle
          pushReturns := machine.pushReturns ++ [⟨data, used, false⟩] }
      else
        some { machine with producer := .writing data head used 0 }
  | .writing data head used written =>
      match (encode data)[written]? with
      | some byte =>
          some { machine with
            ring := machine.ring.writeByte (head + UInt32.ofNat written) byte
            producer := .writing data head used (written + 1) }
      | none =>
          some { machine with
            ring := { machine.ring with head := head + (4 + UInt32.ofNat data.length) }
            producer := .idle
            pushReturns := machine.pushReturns ++ [⟨data, used, true⟩] }

/-- The consumer's next memory access. -/
def stepConsumer (machine : Machine) : Option Machine :=
  match machine.consumer with
  | .idle => none
  | .called => some { machine with consumer := .tailLoaded machine.ring.tail }
  | .tailLoaded tail =>
      if tail = machine.ring.head then
        some { machine with consumer := .idle }
      else
        some { machine with consumer := .readingLength tail [] }
  | .readingLength tail bytes =>
      if bytes.length < 4 then
        some { machine with
          consumer := .readingLength tail
            (bytes ++ [machine.ring.byteAt (tail + UInt32.ofNat bytes.length)]) }
      else
        some { machine with consumer := .readingData tail (fromLeBytes bytes) [] }
  | .readingData tail len bytes =>
      if bytes.length < len.toNat then
        some { machine with
          consumer := .readingData tail len
            (bytes ++ [machine.ring.byteAt (tail + 4 + UInt32.ofNat bytes.length)]) }
      else
        some { machine with
          ring := { machine.ring with tail := tail + (4 + len) }
          consumer := .idle
          popped := machine.popped ++ [bytes] }

/-- A call is possible only when the previous one of that side has returned. -/
def step (machine : Machine) : Action → Option Machine
  | .callPush data =>
      if machine.producer = .idle then some { machine with producer := .called data } else none
  | .producer => machine.stepProducer
  | .callPop =>
      if machine.consumer = .idle then some { machine with consumer := .called } else none
  | .consumer => machine.stepConsumer

end Machine

end LeanAntenna
