import Mathlib.Data.List.Infix
import Antenna.RingMemory

/-!
Every interleaving of one producer's `push` steps with one consumer's `pop` steps refines a
bounded first-in first-out queue of messages.
-/

namespace LeanAntenna

open Transition

namespace Machine

/-- What the producer's local values say about the ring. `seen` is the value of `tail` that
`push` loaded, as an unbounded counter: the consumer may have moved on since. -/
def ProducerAt (ring : RingBuffer) (base : Nat) (pending : List (List UInt8)) : PushPc → Prop
  | .idle => True
  | .called data => Short data
  | .headLoaded data head => Short data ∧ head = ring.head
  | .writing data head used written =>
      Short data ∧ head = ring.head ∧ written ≤ (encode data).length ∧
      (∃ seen, seen ≤ base ∧ used.toNat = base + (encodeAll pending).length - seen ∧
        encodedSize data ≤ ring.capacity.toNat - used.toNat) ∧
      ring.Holds (base + (encodeAll pending).length) ((encode data).take written)

/-- What the consumer's local values say about the oldest unread message. -/
def ConsumerAt (ring : RingBuffer) (pending : List (List UInt8)) : PopPc → Prop
  | .idle => True
  | .called => True
  | .tailLoaded tail => tail = ring.tail
  | .readingLength tail bytes =>
      tail = ring.tail ∧ ∃ data rest, pending = data :: rest ∧
        bytes <+: toLeBytes (UInt32.ofNat data.length)
  | .readingData tail len bytes =>
      tail = ring.tail ∧ ∃ data rest, pending = data :: rest ∧
        len = UInt32.ofNat data.length ∧ bytes <+: data

/-- Each finished push returned true exactly when the message fitted beside the unread bytes it
had computed. -/
def ReturnsExact (machine : Machine) : Prop :=
  ∀ call ∈ machine.pushReturns, call.result = true ↔
    4 + call.data.length ≤ machine.ring.capacity.toNat - call.used.toNat

structure Refines (capacity : UInt32) (machine : Machine) (queue : Fifo (List UInt8)) : Prop where
  capacityKept : machine.ring.capacity = capacity
  represents : machine.ring.Represents (encodeAll queue.returned).length queue.pending
  acceptedEq : machine.accepted = queue.accepted
  poppedEq : machine.popped = queue.returned
  returnsExact : machine.ReturnsExact
  producerAt : ProducerAt machine.ring (encodeAll queue.returned).length queue.pending machine.producer
  consumerAt : ConsumerAt machine.ring queue.pending machine.consumer

theorem start_refines {capacity : Nat} (divides : capacity ∣ 2 ^ 32) :
    (start capacity).Refines (UInt32.ofNat capacity) Fifo.empty where
  capacityKept := rfl
  represents := RingBuffer.new_represents divides
  acceptedEq := rfl
  poppedEq := rfl
  returnsExact := by simp [ReturnsExact, start]
  producerAt := trivial
  consumerAt := trivial

/-- A consumer inside a message keeps its place when messages are appended behind it. -/
theorem ConsumerAt.append {ring next : RingBuffer} {pending : List (List UInt8)} {pc : PopPc}
    (at_ : ConsumerAt ring pending pc) (same : next.tail = ring.tail) (data : List UInt8) :
    ConsumerAt next (pending ++ [data]) pc := by
  cases pc with
  | idle | called => trivial
  | tailLoaded tail => exact at_.trans same.symm
  | readingLength tail bytes =>
      obtain ⟨tailEq, first, rest, pendingEq, bytesPrefix⟩ := at_
      exact ⟨tailEq.trans same.symm, first, rest ++ [data], by simp [pendingEq], bytesPrefix⟩
  | readingData tail len bytes =>
      obtain ⟨tailEq, first, rest, pendingEq, lenEq, bytesPrefix⟩ := at_
      exact ⟨tailEq.trans same.symm, first, rest ++ [data], by simp [pendingEq], lenEq, bytesPrefix⟩

theorem ConsumerAt.congr {ring next : RingBuffer} {pending : List (List UInt8)} {pc : PopPc}
    (at_ : ConsumerAt ring pending pc) (same : next.tail = ring.tail) :
    ConsumerAt next pending pc := by
  cases pc with
  | idle | called => trivial
  | tailLoaded tail => exact at_.trans same.symm
  | readingLength tail bytes => exact ⟨at_.1.trans same.symm, at_.2⟩
  | readingData tail len bytes => exact ⟨at_.1.trans same.symm, at_.2⟩

/-- Reading the oldest message out of the ring only frees room for the producer. -/
theorem ProducerAt.advance {ring next : RingBuffer} {base : Nat} {data : List UInt8}
    {rest : List (List UInt8)} {pc : PushPc} (at_ : ProducerAt ring base (data :: rest) pc)
    (sameHead : next.head = ring.head) (sameBuf : next.buf = ring.buf)
    (sameCapacity : next.capacity = ring.capacity) :
    ProducerAt next (base + encodedSize data) rest pc := by
  have top : base + encodedSize data + (encodeAll rest).length =
      base + (encodeAll (data :: rest)).length := by
    simp [Nat.add_assoc]
  cases pc with
  | idle => trivial
  | called message => exact at_
  | headLoaded message head => exact ⟨at_.1, at_.2.trans sameHead.symm⟩
  | writing message head used written =>
      obtain ⟨short, headEq, bound, ⟨seen, seenLe, usedEq, room⟩, holds⟩ := at_
      refine ⟨short, headEq.trans sameHead.symm, bound, ⟨seen, by omega, ?_, ?_⟩, ?_⟩
      · rw [top]
        exact usedEq
      · rw [sameCapacity]
        exact room
      · rw [top]
        intro i inside
        simpa [RingBuffer.byteAt, RingBuffer.slot, sameBuf, sameCapacity] using holds i inside

/-- Writing ahead of the unread bytes, inside the free room, changes none of them. -/
theorem represents_writeByte {ring : RingBuffer} {base offset : Nat}
    {pending : List (List UInt8)} (represents : ring.Represents base pending) (byte : UInt8)
    (ahead : (encodeAll pending).length ≤ offset) (near : offset < ring.capacity.toNat) :
    (ring.writeByte (UInt32.ofNat (base + offset)) byte).Represents base pending where
  aligned := by simpa [RingBuffer.Aligned, RingBuffer.writeByte] using represents.aligned
  tail := represents.tail
  head := represents.head
  fits := represents.fits
  holds := represents.holds.writeByte (represents.aligned.separate near base) byte ahead
  short := represents.short

/-- The producer's steps leave the queue alone, except that storing `head` accepts the message. -/
theorem stepProducer_refines {capacity : UInt32} {machine next : Machine}
    {queue : Fifo (List UInt8)} (refines : machine.Refines capacity queue)
    (stepped : machine.stepProducer = some next) :
    next.Refines capacity queue ∨
      ∃ data, queue.step encodedSize capacity.toNat (.accept data) =
          some { queue with pending := queue.pending ++ [data] } ∧
        next.Refines capacity { queue with pending := queue.pending ++ [data] } := by
  obtain ⟨capacityKept, represents, acceptedEq, poppedEq, returnsExact, producerAt, consumerAt⟩ :=
    refines
  have usedNow := represents.used_toNat
  have fits := represents.fits
  unfold stepProducer at stepped
  split at stepped
  · cases stepped
  · rename_i data pcEq
    cases stepped
    rw [pcEq] at producerAt
    exact .inl ⟨capacityKept, represents, acceptedEq, poppedEq, returnsExact,
      ⟨producerAt, rfl⟩, consumerAt⟩
  · rename_i data head pcEq
    rw [pcEq] at producerAt
    obtain ⟨short, rfl⟩ := producerAt
    have full := short.full_iff machine.ring.capacity (machine.ring.head - machine.ring.tail)
      (by omega)
    dsimp only at stepped
    split at stepped
    · rename_i refused
      cases stepped
      have tooLong := full.mp refused
      refine .inl ⟨capacityKept, represents, ?_, poppedEq, ?_, trivial, consumerAt⟩
      · simpa [accepted] using acceptedEq
      · intro call member
        rcases List.mem_append.mp member with old | new
        · exact returnsExact call old
        · rw [List.mem_singleton.mp new]
          simp only [encodedSize] at tooLong
          simp only [Bool.false_eq_true, false_iff]
          omega
    · rename_i fitting
      cases stepped
      have room := full.not.mp fitting
      refine .inl ⟨capacityKept, represents, acceptedEq, poppedEq, returnsExact, ?_, consumerAt⟩
      have usedEq : (machine.ring.head - machine.ring.tail).toNat =
          (encodeAll queue.returned).length + (encodeAll queue.pending).length -
            (encodeAll queue.returned).length := by omega
      exact ⟨short, rfl, Nat.zero_le _, ⟨_, Nat.le_refl _, usedEq, Nat.le_of_not_lt room⟩,
        RingBuffer.holds_nil _ _⟩
  · rename_i data head used written pcEq
    rw [pcEq] at producerAt
    obtain ⟨short, rfl, bound, ⟨seen, seenLe, usedEq, room⟩, holds⟩ := producerAt
    have sized : (encode data).length = encodedSize data := encode_length data
    split at stepped
    · rename_i byte byteEq
      cases stepped
      obtain ⟨inside, byteIs⟩ := List.getElem?_eq_some_iff.mp byteEq
      have position : machine.ring.head + UInt32.ofNat written = UInt32.ofNat
          ((encodeAll queue.returned).length + (encodeAll queue.pending).length + written) := by
        rw [represents.head, ← UInt32.ofNat_add]
      have takenLength : ((encode data).take written).length = written := by
        rw [List.length_take]
        omega
      refine .inl ⟨capacityKept, ?_, acceptedEq, poppedEq, returnsExact, ?_, consumerAt.congr rfl⟩
      · rw [position, Nat.add_assoc]
        exact represents_writeByte represents byte (by omega) (by omega)
      · refine ⟨short, rfl, by omega, ⟨seen, seenLe, usedEq, room⟩, ?_⟩
        have extended := holds.snoc represents.aligned.backed
          (represents.aligned.separate (by omega) _) byte (by omega)
        rw [takenLength, ← position] at extended
        rw [List.take_add_one, byteEq]
        exact extended
    · rename_i finished
      cases stepped
      have all : (encode data).length ≤ written := List.getElem?_eq_none_iff.mp finished
      rw [List.take_of_length_le all] at holds
      refine .inr ⟨data, ?_, capacityKept, ?_, ?_, poppedEq, ?_, trivial, ?_⟩
      · have load : queue.load encodedSize = (encodeAll queue.pending).length :=
          (encodeAll_length _).symm
        rw [Fifo.step, if_pos (by rw [load, ← capacityKept]; omega)]
      · constructor
        · exact represents.aligned
        · exact represents.tail
        · change machine.ring.head + _ = _
          rw [represents.head, short.total_eq, ← UInt32.ofNat_add]
          simp [Nat.add_assoc]
        · simp only [encodeAll_append, encodeAll_cons, encodeAll_nil, List.append_nil,
            List.length_append]
          omega
        · rw [encodeAll_append, encodeAll_cons, encodeAll_nil, List.append_nil]
          exact RingBuffer.holds_append.mpr ⟨represents.holds, holds⟩
        · intro message member
          rcases List.mem_append.mp member with old | new
          · exact represents.short message old
          · rw [List.mem_singleton.mp new]
            exact short
      · simp only [accepted, Fifo.accepted] at acceptedEq ⊢
        simp [acceptedEq]
      · intro call member
        rcases List.mem_append.mp member with old | new
        · exact returnsExact call old
        · rw [List.mem_singleton.mp new]
          simpa [encodedSize] using room
      · exact consumerAt.append rfl data

/-- The consumer's steps leave the queue alone, except that storing `tail` delivers the oldest
message. -/
theorem stepConsumer_refines {capacity : UInt32} {machine next : Machine}
    {queue : Fifo (List UInt8)} (refines : machine.Refines capacity queue)
    (stepped : machine.stepConsumer = some next) :
    next.Refines capacity queue ∨
      ∃ data rest, queue.pending = data :: rest ∧
        next.Refines capacity { returned := queue.returned ++ [data], pending := rest } := by
  obtain ⟨capacityKept, represents, acceptedEq, poppedEq, returnsExact, producerAt, consumerAt⟩ :=
    refines
  unfold stepConsumer at stepped
  split at stepped
  · cases stepped
  · cases stepped
    exact .inl ⟨capacityKept, represents, acceptedEq, poppedEq, returnsExact, producerAt, rfl⟩
  · rename_i tail pcEq
    rw [pcEq] at consumerAt
    cases consumerAt
    split at stepped
    · cases stepped
      exact .inl ⟨capacityKept, represents, acceptedEq, poppedEq, returnsExact, producerAt, trivial⟩
    · rename_i notEmpty
      cases stepped
      rw [represents.empty_iff] at notEmpty
      obtain ⟨data, rest, pendingEq⟩ := List.exists_cons_of_ne_nil notEmpty
      exact .inl ⟨capacityKept, represents, acceptedEq, poppedEq, returnsExact, producerAt,
        rfl, data, rest, pendingEq, List.nil_prefix⟩
  · rename_i tail bytes pcEq
    rw [pcEq] at consumerAt
    obtain ⟨rfl, data, rest, pendingEq, bytesPrefix⟩ := consumerAt
    split at stepped
    · rename_i short
      cases stepped
      refine .inl ⟨capacityKept, represents, acceptedEq, poppedEq, returnsExact, producerAt,
        rfl, data, rest, pendingEq, ?_⟩
      have frame := represents.holds
      rw [pendingEq, encodeAll_cons, encode, List.append_assoc] at frame
      have byteIs := (RingBuffer.holds_append.mp frame).1 bytes.length (by simpa using short)
      rw [UInt32.ofNat_add, ← represents.tail] at byteIs
      rw [byteIs]
      exact List.concat_get_prefix bytesPrefix (by simpa using short)
    · rename_i full
      cases stepped
      have whole : bytes = toLeBytes (UInt32.ofNat data.length) :=
        bytesPrefix.eq_of_length_le (by simp; omega)
      refine .inl ⟨capacityKept, represents, acceptedEq, poppedEq, returnsExact, producerAt,
        rfl, data, rest, pendingEq, ?_, List.nil_prefix⟩
      rw [whole, fromLeBytes_toLeBytes]
  · rename_i tail len bytes pcEq
    rw [pcEq] at consumerAt
    obtain ⟨rfl, data, rest, pendingEq, rfl, bytesPrefix⟩ := consumerAt
    have dataShort : Short data := represents.short data (by simp [pendingEq])
    split at stepped
    · rename_i short
      rw [dataShort.length_toNat] at short
      cases stepped
      refine .inl ⟨capacityKept, represents, acceptedEq, poppedEq, returnsExact, producerAt,
        rfl, data, rest, pendingEq, rfl, ?_⟩
      have frame := represents.holds
      rw [pendingEq, encodeAll_cons, encode, List.append_assoc] at frame
      have payload := (RingBuffer.holds_append.mp (RingBuffer.holds_append.mp frame).2).1
      have byteIs := payload bytes.length short
      rw [toLeBytes_length, UInt32.ofNat_add, UInt32.ofNat_add, ← represents.tail] at byteIs
      have start : machine.ring.tail + 4 = machine.ring.tail + UInt32.ofNat 4 := rfl
      rw [start, byteIs]
      exact List.concat_get_prefix bytesPrefix short
    · rename_i full
      rw [dataShort.length_toNat] at full
      cases stepped
      have whole : bytes = data := bytesPrefix.eq_of_length_le (by omega)
      subst whole
      rw [pendingEq] at represents producerAt
      have frame := represents.holds
      rw [encodeAll_cons] at frame
      have later := (RingBuffer.holds_append.mp frame).2
      have base : (encodeAll (queue.returned ++ [bytes])).length =
          (encodeAll queue.returned).length + encodedSize bytes := by simp
      refine .inr ⟨bytes, rest, pendingEq, capacityKept, ?_, ?_, ?_, returnsExact, ?_, trivial⟩
      · rw [base]
        constructor
        · exact represents.aligned
        · change machine.ring.tail + _ = _
          rw [represents.tail, dataShort.total_eq, ← UInt32.ofNat_add]
        · change machine.ring.head = _
          rw [represents.head]
          simp [Nat.add_assoc]
        · have fits := represents.fits
          simp only [encodeAll_cons, List.length_append] at fits
          change (encodeAll rest).length ≤ machine.ring.capacity.toNat
          omega
        · rw [encode_length] at later
          exact later
        · exact fun message member => represents.short message (by simp [member])
      · simpa [accepted, Fifo.accepted, pendingEq] using acceptedEq
      · simp [poppedEq]
      · rw [base]
        exact producerAt.advance rfl rfl rfl

theorem step_refines {capacity : UInt32} {machine next : Machine} {action : Action}
    {queue : Fifo (List UInt8)} (refines : machine.Refines capacity queue)
    (short : ∀ data, action = .callPush data → Short data)
    (stepped : machine.step action = some next) :
    ∃ moves queueNext, runSteps (Fifo.step encodedSize capacity.toNat) queue moves = some queueNext ∧
      next.Refines capacity queueNext := by
  cases action with
  | callPush data =>
      simp only [step] at stepped
      split at stepped
      · cases stepped
        exact ⟨[], queue, rfl, { refines with producerAt := short data rfl }⟩
      · cases stepped
  | producer =>
      rcases stepProducer_refines refines stepped with same | ⟨data, accept, next⟩
      · exact ⟨[], queue, rfl, same⟩
      · exact ⟨[.accept data], _, runSteps_cons.mpr ⟨_, accept, rfl⟩, next⟩
  | callPop =>
      simp only [step] at stepped
      split at stepped
      · cases stepped
        exact ⟨[], queue, rfl, { refines with consumerAt := trivial }⟩
      · cases stepped
  | consumer =>
      rcases stepConsumer_refines refines stepped with same | ⟨data, rest, pendingEq, next⟩
      · exact ⟨[], queue, rfl, same⟩
      · exact ⟨[.deliver], _, runSteps_cons.mpr ⟨_, by rw [Fifo.step, pendingEq], rfl⟩, next⟩

/-- Every interleaving of `push` steps with `pop` steps is a run of a bounded queue: what `pop`
returned is a prefix of what `push` accepted, the rest lies encoded between `tail` and `head`,
and `push` accepts exactly what fits beside the unread bytes it computed. The counters may pass
2^32 any number of times. -/
theorem ring_refines_fifo {capacity : Nat} (divides : capacity ∣ 2 ^ 32) {actions : List Action}
    (short : ∀ data, .callPush data ∈ actions → data.length < 2 ^ 32 - 4) {machine : Machine}
    (ran : runSteps step (start capacity) actions = some machine) :
    (∃ moves queue, runSteps (Fifo.step encodedSize machine.ring.capacity.toNat) Fifo.empty moves =
        some queue ∧ machine.accepted = queue.accepted ∧ machine.popped = queue.returned) ∧
      machine.popped <+: machine.accepted ∧
      machine.ring.unread = encodeAll (machine.accepted.drop machine.popped.length) ∧
      ∀ call ∈ machine.pushReturns, call.result = true ↔
        4 + call.data.length ≤ machine.ring.capacity.toNat - call.used.toNat := by
  have allowed : ∀ action ∈ actions, ∀ data, action = Action.callPush data → Short data :=
    fun action member data same => short data (same ▸ member)
  obtain ⟨moves, queue, moved, refines⟩ := runSteps_simulates
    (fun _ _ _ _ refines allowed stepped => step_refines refines allowed stepped)
    (start_refines divides) (stepsMeet_of_forall allowed _) ran
  have acceptedEq := refines.acceptedEq
  have poppedEq := refines.poppedEq
  refine ⟨⟨moves, queue, ?_, acceptedEq, poppedEq⟩, ?_, ?_, refines.returnsExact⟩
  · rw [refines.capacityKept]
    exact moved
  · rw [acceptedEq, poppedEq]
    exact queue.returned_prefix
  · rw [acceptedEq, poppedEq, queue.accepted_drop]
    exact refines.represents.unread_eq

/-- A second push overtakes a pop that is reading the first message. -/
def overlappedRun : List Action :=
  [.callPush [7, 8]] ++ List.replicate 9 .producer ++ [.callPop, .consumer, .consumer, .consumer] ++
    [.callPush [9]] ++ List.replicate 8 .producer ++ List.replicate 7 .consumer

theorem ring_refines_fifo_overlapped :
    ∃ machine, runSteps step (start 16) overlappedRun = some machine ∧
      machine.popped = [[7, 8]] ∧ machine.popped <+: machine.accepted ∧
      machine.ring.unread = encodeAll (machine.accepted.drop machine.popped.length) := by
  have ran : runSteps step (start 16) overlappedRun =
      some ((runSteps step (start 16) overlappedRun).get (by decide)) := by simp
  have short : ∀ data, Action.callPush data ∈ overlappedRun → data.length < 2 ^ 32 - 4 := by
    simp [overlappedRun]
  obtain ⟨_, inOrder, unread, _⟩ := ring_refines_fifo (by decide) short ran
  exact ⟨_, ran, by decide, inOrder, unread⟩

end Machine

end LeanAntenna
