import Antenna.RingMemory

/-! `push` and `pop` are what their memory accesses do when no other step comes between them. -/

namespace LeanAntenna

open Transition

namespace RingBuffer

theorem writeFrom_append (start : UInt32) (offset : Nat) (first second : List UInt8)
    (ring : RingBuffer) :
    writeFrom start offset (first ++ second) ring =
      writeFrom start (offset + first.length) second (writeFrom start offset first ring) := by
  induction first generalizing offset ring with
  | nil => rfl
  | cons byte rest ih =>
      simp only [List.cons_append, writeFrom, ih, List.length_cons]
      rw [Nat.add_right_comm, Nat.add_assoc]

theorem writeFrom_shift (start : UInt32) (shift offset : Nat) (bytes : List UInt8)
    (ring : RingBuffer) :
    writeFrom start (shift + offset) bytes ring =
      writeFrom (start + UInt32.ofNat shift) offset bytes ring := by
  induction bytes generalizing offset ring with
  | nil => rfl
  | cons byte rest ih =>
      simp only [writeFrom]
      rw [Nat.add_assoc, ih, UInt32.ofNat_add, UInt32.add_assoc]

/-- The two write loops of `push` write one frame. -/
theorem writeFrom_encode (head : UInt32) (data : List UInt8) (ring : RingBuffer) :
    writeFrom head 0 (encode data) ring =
      writeFrom (head + 4) 0 data
        (writeFrom head 0 (toLeBytes (UInt32.ofNat data.length)) ring) := by
  rw [encode, writeFrom_append, toLeBytes_length]
  exact writeFrom_shift head 4 0 data _

theorem readFrom_snoc (ring : RingBuffer) (start : UInt32) (offset count : Nat) :
    ring.readFrom start offset (count + 1) =
      ring.readFrom start offset count ++ [ring.byteAt (start + UInt32.ofNat (offset + count))] := by
  induction count generalizing offset with
  | zero => simp [readFrom]
  | succ count ih =>
      rw [readFrom, ih (offset + 1), readFrom]
      simp [Nat.add_comm, Nat.add_left_comm]

@[simp] theorem readFrom_length (ring : RingBuffer) (start : UInt32) (offset count : Nat) :
    (ring.readFrom start offset count).length = count := by
  induction count generalizing offset with
  | zero => rfl
  | succ count ih => simp [readFrom, ih]

end RingBuffer

namespace Machine

variable {machine : Machine}

theorem step_callPush (idle : machine.producer = .idle) (data : List UInt8) :
    machine.step (.callPush data) = some { machine with producer := .called data } := by
  simp only [step, idle, if_true]

theorem step_loadHead {data : List UInt8} (called : machine.producer = .called data) :
    machine.step .producer =
      some { machine with producer := .headLoaded data machine.ring.head } := by
  simp only [step, stepProducer, called]

theorem step_refuse {data : List UInt8} {head : UInt32}
    (loaded : machine.producer = .headLoaded data head)
    (full : 4 + UInt32.ofNat data.length > machine.ring.capacity - (head - machine.ring.tail)) :
    machine.step .producer = some { machine with
      producer := .idle
      pushReturns := machine.pushReturns ++ [⟨data, head - machine.ring.tail, false⟩] } := by
  simp only [step, stepProducer, loaded, full, if_true]

theorem step_admit {data : List UInt8} {head : UInt32}
    (loaded : machine.producer = .headLoaded data head)
    (fits : ¬4 + UInt32.ofNat data.length > machine.ring.capacity - (head - machine.ring.tail)) :
    machine.step .producer = some { machine with
      producer := .writing data head (head - machine.ring.tail) 0 } := by
  simp only [step, stepProducer, loaded, fits, if_false]

theorem step_write {data : List UInt8} {head used : UInt32} {written : Nat} {byte : UInt8}
    (writing : machine.producer = .writing data head used written)
    (byteEq : (encode data)[written]? = some byte) :
    machine.step .producer = some { machine with
      ring := machine.ring.writeByte (head + UInt32.ofNat written) byte
      producer := .writing data head used (written + 1) } := by
  simp only [step, stepProducer, writing, byteEq]

theorem step_storeHead {data : List UInt8} {head used : UInt32}
    (writing : machine.producer = .writing data head used (encode data).length) :
    machine.step .producer = some { machine with
      ring := { machine.ring with head := head + (4 + UInt32.ofNat data.length) }
      producer := .idle
      pushReturns := machine.pushReturns ++ [⟨data, used, true⟩] } := by
  simp only [step, stepProducer, writing, List.getElem?_eq_none (Nat.le_refl _)]

theorem step_callPop (idle : machine.consumer = .idle) :
    machine.step .callPop = some { machine with consumer := .called } := by
  simp only [step, idle, if_true]

theorem step_loadTail (called : machine.consumer = .called) :
    machine.step .consumer =
      some { machine with consumer := .tailLoaded machine.ring.tail } := by
  simp only [step, stepConsumer, called]

theorem step_findEmpty {tail : UInt32} (loaded : machine.consumer = .tailLoaded tail)
    (empty : tail = machine.ring.head) :
    machine.step .consumer = some { machine with consumer := .idle } := by
  simp only [step, stepConsumer, loaded, empty, if_true]

theorem step_findMessage {tail : UInt32} (loaded : machine.consumer = .tailLoaded tail)
    (notEmpty : tail ≠ machine.ring.head) :
    machine.step .consumer = some { machine with consumer := .readingLength tail [] } := by
  simp only [step, stepConsumer, loaded, notEmpty, if_false]

theorem step_readLength {tail : UInt32} {bytes : List UInt8}
    (reading : machine.consumer = .readingLength tail bytes) (more : bytes.length < 4) :
    machine.step .consumer = some { machine with
      consumer := .readingLength tail
        (bytes ++ [machine.ring.byteAt (tail + UInt32.ofNat bytes.length)]) } := by
  simp only [step, stepConsumer, reading, more, if_true]

theorem step_decodeLength {tail : UInt32} {bytes : List UInt8}
    (reading : machine.consumer = .readingLength tail bytes) (all : ¬bytes.length < 4) :
    machine.step .consumer = some { machine with
      consumer := .readingData tail (fromLeBytes bytes) [] } := by
  simp only [step, stepConsumer, reading, all, if_false]

theorem step_readData {tail len : UInt32} {bytes : List UInt8}
    (reading : machine.consumer = .readingData tail len bytes)
    (more : bytes.length < len.toNat) :
    machine.step .consumer = some { machine with
      consumer := .readingData tail len
        (bytes ++ [machine.ring.byteAt (tail + 4 + UInt32.ofNat bytes.length)]) } := by
  simp only [step, stepConsumer, reading, more, if_true]

theorem step_storeTail {tail len : UInt32} {bytes : List UInt8}
    (reading : machine.consumer = .readingData tail len bytes)
    (all : ¬bytes.length < len.toNat) :
    machine.step .consumer = some { machine with
      ring := { machine.ring with tail := tail + (4 + len) }
      consumer := .idle
      popped := machine.popped ++ [bytes] } := by
  simp only [step, stepConsumer, reading, all, if_false]

theorem run_write (data : List UInt8) (head used : UInt32) (rest : List UInt8) (written : Nat)
    (writing : machine.producer = .writing data head used written)
    (remaining : rest = (encode data).drop written) :
    runSteps step machine (List.replicate rest.length .producer) = some { machine with
      ring := machine.ring.writeFrom head written rest
      producer := .writing data head used (written + rest.length) } := by
  induction rest generalizing machine written with
  | nil => simp [RingBuffer.writeFrom, ← writing]
  | cons byte rest ih =>
      have here : (encode data)[written]? = some byte := by
        rw [← List.head?_drop, ← remaining, List.head?_cons]
      have later : rest = (encode data).drop (written + 1) := by
        rw [← List.tail_drop, ← remaining, List.tail_cons]
      rw [List.length_cons, List.replicate_succ, runSteps_cons]
      refine ⟨_, step_write writing here, ?_⟩
      rw [ih (written + 1) rfl later]
      simp [RingBuffer.writeFrom, Nat.add_comm, Nat.add_left_comm]

/-- The producer's actions of one call of `push`. -/
def pushActions (ring : RingBuffer) (data : List UInt8) : List Action :=
  .callPush data :: .producer :: .producer ::
    if (ring.push data).2 then List.replicate (encode data).length .producer ++ [.producer] else []

theorem run_pushActions (idle : machine.producer = .idle) (data : List UInt8) :
    runSteps step machine (pushActions machine.ring data) = some { machine with
      ring := (machine.ring.push data).1
      pushReturns := machine.pushReturns ++
        [⟨data, machine.ring.head - machine.ring.tail, (machine.ring.push data).2⟩] } := by
  rw [pushActions, runSteps_cons]
  refine ⟨_, step_callPush idle data, ?_⟩
  rw [runSteps_cons]
  refine ⟨_, step_loadHead rfl, ?_⟩
  rw [runSteps_cons]
  by_cases full : 4 + UInt32.ofNat data.length >
      machine.ring.capacity - (machine.ring.head - machine.ring.tail)
  · have refused : machine.ring.push data = (machine.ring, false) := by
      simp only [RingBuffer.push, if_pos full]
    refine ⟨_, step_refuse rfl full, ?_⟩
    simp [refused, ← idle]
  · have accepted : machine.ring.push data =
        ({ machine.ring.writeFrom machine.ring.head 0 (encode data) with
            head := machine.ring.head + (4 + UInt32.ofNat data.length) }, true) := by
      simp only [RingBuffer.push, if_neg full, RingBuffer.writeFrom_encode]
    refine ⟨_, step_admit rfl full, ?_⟩
    rw [accepted, if_pos rfl]
    refine runSteps_append (run_write data _ _ (encode data) 0 rfl rfl) ?_
    rw [runSteps_cons]
    refine ⟨_, step_storeHead (by rw [Nat.zero_add]), ?_⟩
    simp [← idle]

theorem run_readLength (tail : UInt32) (reading : machine.consumer = .readingLength tail []) :
    ∀ count ≤ 4, runSteps step machine (List.replicate count .consumer) = some { machine with
      consumer := .readingLength tail (machine.ring.readFrom tail 0 count) } := by
  intro count
  induction count with
  | zero => simp [RingBuffer.readFrom, ← reading]
  | succ count ih =>
      intro bound
      rw [List.replicate_succ']
      refine runSteps_append (ih (by omega)) (runSteps_cons.mpr
        ⟨_, step_readLength rfl (by rw [RingBuffer.readFrom_length]; omega), ?_⟩)
      simp [RingBuffer.readFrom_snoc]

theorem run_readData (tail len : UInt32) (reading : machine.consumer = .readingData tail len []) :
    ∀ count ≤ len.toNat, runSteps step machine (List.replicate count .consumer) =
      some { machine with
        consumer := .readingData tail len (machine.ring.readFrom (tail + 4) 0 count) } := by
  intro count
  induction count with
  | zero => simp [RingBuffer.readFrom, ← reading]
  | succ count ih =>
      intro bound
      rw [List.replicate_succ']
      refine runSteps_append (ih (by omega)) (runSteps_cons.mpr
        ⟨_, step_readData rfl (by rw [RingBuffer.readFrom_length]; omega), ?_⟩)
      simp [RingBuffer.readFrom_snoc]

/-- The consumer's actions of one call of `pop`. -/
def popActions (ring : RingBuffer) : List Action :=
  .callPop :: .consumer :: .consumer ::
    if ring.tail = ring.head then []
    else
      (List.replicate 4 .consumer ++ [.consumer]) ++
        (List.replicate (fromLeBytes (ring.readFrom ring.tail 0 4)).toNat .consumer ++ [.consumer])

theorem run_popActions (idle : machine.consumer = .idle) :
    runSteps step machine (popActions machine.ring) = some { machine with
      ring := machine.ring.pop.1
      popped := machine.popped ++ machine.ring.pop.2.toList } := by
  rw [popActions, runSteps_cons]
  refine ⟨_, step_callPop idle, ?_⟩
  rw [runSteps_cons]
  refine ⟨_, step_loadTail rfl, ?_⟩
  rw [runSteps_cons]
  by_cases empty : machine.ring.tail = machine.ring.head
  · refine ⟨_, step_findEmpty rfl empty, ?_⟩
    rw [if_pos empty, RingBuffer.pop, if_pos empty]
    simp [← idle]
  · refine ⟨_, step_findMessage rfl empty, ?_⟩
    rw [if_neg empty, RingBuffer.pop, if_neg empty]
    refine runSteps_append (runSteps_append (run_readLength _ rfl 4 (Nat.le_refl 4))
      (runSteps_cons.mpr ⟨_, step_decodeLength rfl (by rw [RingBuffer.readFrom_length]; omega),
        rfl⟩)) ?_
    refine runSteps_append (run_readData _ _ rfl _ (Nat.le_refl _)) ?_
    rw [runSteps_cons]
    refine ⟨_, step_storeTail rfl (by rw [RingBuffer.readFrom_length]; exact Nat.lt_irrefl _), ?_⟩
    simp [← idle]

end Machine

end LeanAntenna
