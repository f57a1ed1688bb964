import Antenna.RingSteps

/-!
The ring buffer at capacities that need not divide 2^32: `new` takes any size, and which unread
counter values share a byte depends on where the counters stand.
-/

namespace LeanAntenna

open Transition

inductive RingCall where
  | push (data : List UInt8)
  | pop
deriving DecidableEq, Repr

namespace RingBuffer

/-- One whole call of `push` or `pop`. -/
def call (ring : RingBuffer) : RingCall → Option RingBuffer
  | .push data => some (ring.push data).1
  | .pop => some ring.pop.1

/-- The unread bytes, as `push` counts them. -/
def used (ring : RingBuffer) : Nat := (ring.head - ring.tail).toNat

/-- The counter values from `tail` up to `head` have different physical indices. -/
def Distinct (ring : RingBuffer) : Prop :=
  ∀ low high, low < high → high < ring.used →
    ring.slot (ring.tail + UInt32.ofNat low) ≠ ring.slot (ring.tail + UInt32.ofNat high)

/-- No two of the `count` counter values from `tail` on lie at one index: the capacity divides 2^32,
or they do not pass 2^32, or they are no more than the remainder. -/
def Clear (ring : RingBuffer) (count : Nat) : Prop :=
  ring.capacity.toNat ∣ 2 ^ 32 ∨ ring.tail.toNat + count ≤ 2 ^ 32 ∨
    count ≤ 2 ^ 32 % ring.capacity.toNat

/-- A pushed message is short enough for its length prefix and, where there is room for it, lies
clear of the unread ones. -/
def Roomy (ring : RingBuffer) : RingCall → Prop
  | .push data =>
      data.length < 2 ^ 32 - 4 ∧
        (ring.used + encodedSize data ≤ ring.capacity.toNat →
          ring.Clear (ring.used + encodedSize data))
  | .pop => True

theorem distinct_iff_separate (ring : RingBuffer) :
    ring.Distinct ↔ ring.Separate ring.tail.toNat ring.used := by
  have position : ∀ offset, ring.slot (ring.tail + UInt32.ofNat offset) =
      (ring.tail.toNat + offset) % 2 ^ 32 % ring.capacity.toNat := by
    intro offset
    rw [← slot_ofNat, UInt32.ofNat_add, UInt32.ofNat_toNat]
  simp only [Distinct, position]
  exact Iff.rfl

theorem separate_iff_clear {ring : RingBuffer} {base count : Nat}
    (tail : ring.tail = UInt32.ofNat base) (positive : 0 < ring.capacity.toNat)
    (bound : count ≤ ring.capacity.toNat) : ring.Separate base count ↔ ring.Clear count := by
  have wrapped : ring.tail.toNat = base % 2 ^ 32 := by rw [tail, UInt32.toNat_ofNat']
  have fits := Nat.le_of_lt ring.capacity.toNat_lt
  rw [Clear, wrapped]
  exact Wraparound.apart_iff positive fits bound

theorem distinct_iff_clear {ring : RingBuffer} (positive : 0 < ring.capacity.toNat)
    (bound : ring.used ≤ ring.capacity.toNat) : ring.Distinct ↔ ring.Clear ring.used := by
  rw [distinct_iff_separate]
  exact separate_iff_clear (UInt32.ofNat_toNat).symm positive bound

/-- The unread bytes are a list of messages, none of which shares a byte with another. -/
def Sound (ring : RingBuffer) : Prop :=
  ∃ base pending, ring.Held base pending ∧ ring.Separate base (encodeAll pending).length

theorem new_sound (capacity : Nat) : (new capacity).Sound := by
  refine ⟨0, [], new_held capacity, ?_⟩
  intro low high before inside
  simp at inside

theorem Sound.used_le {ring : RingBuffer} (sound : ring.Sound) :
    ring.used ≤ ring.capacity.toNat := by
  obtain ⟨base, pending, held, _⟩ := sound
  rw [used, held.used_toNat]
  exact held.fits

theorem Sound.distinct {ring : RingBuffer} (sound : ring.Sound) : ring.Distinct := by
  obtain ⟨base, pending, held, separate⟩ := sound
  intro low high before inside
  rw [used, held.used_toNat] at inside
  rw [held.tail, ← UInt32.ofNat_add, ← UInt32.ofNat_add]
  exact separate.slot_ne before inside

/-- What a roomy push does: it stores the message behind the unread ones or nothing. -/
theorem push_sound {ring : RingBuffer} {base : Nat} {pending : List (List UInt8)}
    {data : List UInt8} (held : ring.Held base pending) (roomy : ring.Roomy (.push data)) :
    (ring.push data = (ring, false)) ∨
      ((ring.push data).1.Held base (pending ++ [data]) ∧
        (ring.push data).1.Separate base (encodeAll (pending ++ [data])).length) := by
  obtain ⟨short, clear⟩ := roomy
  have usedIs : ring.used = (encodeAll pending).length := held.used_toNat
  have fits := held.fits
  rw [usedIs] at clear
  by_cases room : (encodeAll pending).length + encodedSize data ≤ ring.capacity.toNat
  · right
    have positive : 0 < ring.capacity.toNat := by
      simp only [encodedSize] at room
      omega
    have apart := (separate_iff_clear held.tail positive room).mpr (clear room)
    refine ⟨held.push_accept short (by omega) apart, ?_⟩
    rw [encodeAll_append, List.length_append, encodeAll_cons, encodeAll_nil, List.append_nil,
      encode_length]
    simpa only [Separate, push_shape ring data] using apart
  · left
    exact held.push_full short (by omega)

theorem call_sound {ring next : RingBuffer} {action : RingCall} (sound : ring.Sound)
    (roomy : ring.Roomy action) (called : ring.call action = some next) : next.Sound := by
  obtain ⟨base, pending, held, separate⟩ := sound
  cases action with
  | push data =>
      cases called
      rcases push_sound held roomy with refused | ⟨heldNext, separateNext⟩
      · rw [refused]
        exact ⟨base, pending, held, separate⟩
      · exact ⟨base, pending ++ [data], heldNext, separateNext⟩
  | pop =>
      cases called
      cases pending with
      | nil =>
          rw [held.pop_empty]
          exact ⟨base, [], held, separate⟩
      | cons data rest =>
          refine ⟨base + encodedSize data, rest, held.pop_message.2, ?_⟩
          rw [encodeAll_cons, List.length_append, encode_length] at separate
          simpa only [Separate, pop_shape ring] using separate.drop

/-- A roomy push leaves the unread bytes where they are. -/
theorem Sound.push_keeps {ring : RingBuffer} (sound : ring.Sound) {data : List UInt8}
    (roomy : ring.Roomy (.push data)) : ring.unread <+: (ring.push data).1.unread := by
  obtain ⟨base, pending, held, _⟩ := sound
  rcases push_sound held roomy with refused | ⟨heldNext, _⟩
  · simp only [refused, List.prefix_refl]
  · rw [held.unread_eq, heldNext.unread_eq, encodeAll_append]
    exact List.prefix_append _ _

theorem call_capacity {ring next : RingBuffer} {action : RingCall}
    (called : ring.call action = some next) : next.capacity = ring.capacity := by
  cases action with
  | push data =>
      cases called
      exact (push_shape ring data).2.1
  | pop =>
      cases called
      exact (pop_shape ring).2.1

theorem run_capacity {ring final : RingBuffer} {calls : List RingCall}
    (ran : runSteps call ring calls = some final) : final.capacity = ring.capacity := by
  induction calls generalizing ring with
  | nil =>
      cases ran
      rfl
  | cons action calls ih =>
      obtain ⟨next, called, later⟩ := runSteps_cons.mp ran
      exact (ih later).trans (call_capacity called)

theorem run_sound {ring final : RingBuffer} {calls : List RingCall} (sound : ring.Sound)
    (meets : StepsMeet call Roomy ring calls) (ran : runSteps call ring calls = some final) :
    final.Sound :=
  runSteps_preserves Roomy Sound (fun _ _ _ sound roomy called => call_sound sound roomy called)
    sound meets ran

/-- Which unread counter values share no byte, in every reachable state; and a run whose pushes are
all roomy never gets to a state where two do, nor overwrites an unread byte. -/
theorem unread_distinct_iff {capacity : Nat} (positive : 0 < capacity)
    (bounded : capacity < 2 ^ 32) {calls : List RingCall} {ring : RingBuffer}
    (ran : runSteps call (new capacity) calls = some ring) :
    (ring.used ≤ capacity →
        (ring.Distinct ↔ capacity ∣ 2 ^ 32 ∨ ring.tail.toNat + ring.used ≤ 2 ^ 32 ∨
          ring.used ≤ 2 ^ 32 % capacity)) ∧
      (StepsMeet call Roomy (new capacity) calls →
        ring.used ≤ capacity ∧ ring.Distinct ∧
          ∀ data, ring.Roomy (.push data) → ring.unread <+: (ring.push data).1.unread) := by
  have field : ring.capacity.toNat = capacity := by
    rw [run_capacity ran, new, UInt32.toNat_ofNat', Nat.mod_eq_of_lt bounded]
  constructor
  · intro bound
    rw [distinct_iff_clear (by omega) (by omega), Clear, field]
  · intro meets
    have sound := run_sound (new_sound capacity) meets ran
    refine ⟨?_, sound.distinct, fun data roomy => sound.push_keeps roomy⟩
    rw [← field]
    exact sound.used_le

theorem unread_distinct_iff_ten :
    ∃ ring, runSteps call (new 10) [.push [7], .pop, .push [8]] = some ring ∧
      ring.used ≤ 10 ∧ ring.Distinct ∧
      ∀ data, ring.Roomy (.push data) → ring.unread <+: (ring.push data).1.unread := by
  have ran : runSteps call (new 10) [.push [7], .pop, .push [8]] =
      some ((runSteps call (new 10) [.push [7], .pop, .push [8]]).get (by decide)) := by simp
  have meets : StepsMeet call Roomy (new 10) [.push [7], .pop, .push [8]] := by
    refine ⟨⟨by decide, fun _ => .inr (.inl (by decide))⟩, fun next called => ⟨trivial, ?_⟩⟩
    cases called
    rintro next called
    cases called
    exact ⟨⟨by decide, fun _ => .inr (.inl (by decide))⟩, fun _ _ => trivial⟩
  exact ⟨_, ran, (unread_distinct_iff (by decide) (by decide) ran).2 meets⟩

/-- Bytes written to indices that differ among themselves are there afterwards. -/
theorem push_holds {ring : RingBuffer} {base : Nat} {data : List UInt8} (backed : ring.Backed)
    (head : ring.head = UInt32.ofNat base) (accepted : (ring.push data).2 = true)
    (separate : ring.Separate base (encodedSize data))
    (room : encodedSize data ≤ ring.capacity.toNat) :
    (ring.push data).1.Holds base (encode data) := by
  simp only [push] at accepted ⊢
  split at accepted
  · cases accepted
  · rename_i fits
    rw [if_neg fits, ← writeFrom_encode, head]
    have written := writeFrom_holds backed (encode data) 0
      (show base + 0 = base + ([] : List UInt8).length from rfl) (holds_nil ring base)
      (by simpa using separate) (by simpa using room)
    exact written

/-- `n` messages of one byte, each read before the next is sent. -/
def rounds : Nat → List RingCall
  | 0 => []
  | n + 1 => rounds n ++ [.push [0], .pop]

theorem rounds_held {capacity : Nat} (room : 5 ≤ capacity) (bounded : capacity < 2 ^ 32) (n : Nat)
    (below : 5 * n ≤ 2 ^ 32) :
    ∃ ring, runSteps call (new capacity) (rounds n) = some ring ∧ ring.Held (5 * n) [] := by
  induction n with
  | zero => exact ⟨new capacity, rfl, new_held capacity⟩
  | succ n ih =>
      obtain ⟨ring, ran, held⟩ := ih (by omega)
      have field : ring.capacity.toNat = capacity := by
        rw [run_capacity ran, new, UInt32.toNat_ofNat', Nat.mod_eq_of_lt bounded]
      have tail : ring.tail.toNat = 5 * n := by
        rw [held.tail, UInt32.toNat_ofNat', Nat.mod_eq_of_lt (by omega)]
      have separate : ring.Separate (5 * n) ((encodeAll []).length + encodedSize [0]) := by
        refine (separate_iff_clear held.tail (by omega) (by simp [encodedSize]; omega)).mpr ?_
        refine .inr (.inl ?_)
        simp [encodedSize]
        omega
      have short : Short [0] := by simp [Short]
      have pushed := held.push_accept short (by simp [encodedSize]; omega) separate
      refine ⟨(ring.push [0]).1.pop.1, runSteps_append ran rfl, ?_⟩
      exact pushed.pop_message.2

theorem push_head {ring : RingBuffer} {data : List UInt8} (accepted : (ring.push data).2 = true) :
    (ring.push data).1.head = ring.head + (4 + UInt32.ofNat data.length) := by
  simp only [push] at accepted ⊢
  split at accepted
  · cases accepted
  · rename_i fits
    rw [if_neg fits]

/-- Ten bytes of capacity, one less than 2^32 bytes behind them: the first message takes the indices
5, 0, 1, 2, 3 and the second 4 to 8. -/
theorem unread_overwritten :
    ∃ calls ring, runSteps call (new 10) calls = some ring ∧
      (ring.push [8]).1.used ≤ 10 ∧ ¬(ring.push [8]).1.Distinct ∧
      ¬ring.unread <+: (ring.push [8]).1.unread := by
  obtain ⟨empty, ran, held⟩ := @rounds_held 10 (by decide) (by decide) 858993459 (by decide)
  have field : ∀ {calls ring}, runSteps call (new 10) calls = some ring →
      ring.capacity.toNat = 10 := by
    intro calls ring ran
    rw [run_capacity ran]
    rfl
  have capacity := field ran
  have short : ∀ byte, Short [byte] := by simp [Short]
  have first := held.push_accept (short 7) (by rw [capacity]; decide)
    ((separate_iff_clear held.tail (by omega) (by rw [capacity]; decide)).mpr
      (.inr (.inr (by rw [capacity]; decide))))
  have ranFirst : runSteps call (new 10) (rounds 858993459 ++ [.push [7]]) =
      some (empty.push [7]).1 := runSteps_append ran rfl
  generalize (empty.push [7]).1 = ring at first ranFirst
  have capacityNow := field ranFirst
  have accepted := (first.push_result (short 8)).mpr (by rw [capacityNow]; decide)
  have written := push_holds first.backed first.head accepted
    (Wraparound.apart_of_below (by rw [capacityNow]; decide) (by decide))
    (by rw [capacityNow]; decide)
  have usedAfter : (ring.push [8]).1.used = 10 := by
    rw [used, push_head accepted, (push_shape ring [8]).1, first.head, first.tail]
    decide
  have lengthByte : (ring.push [8]).1.byteAt (ring.tail + UInt32.ofNat 0) = 0 := by
    have overwritten := written 1 (by decide)
    have sameSlot : (ring.push [8]).1.slot (ring.tail + UInt32.ofNat 0) =
        (ring.push [8]).1.slot (UInt32.ofNat
          (5 * 858993459 + (encodeAll ([] ++ [[7]])).length + 1)) := by
      rw [first.tail, ← UInt32.ofNat_add, slot_ofNat, slot_ofNat, (push_shape ring [8]).2.1,
        capacityNow]
      decide
    rw [byteAt, sameSlot]
    exact overwritten
  refine ⟨_, ring, ranFirst, by omega, ?_, ?_⟩
  · rw [distinct_iff_clear, Clear, (push_shape ring [8]).2.1, (push_shape ring [8]).1, capacityNow,
      usedAfter, first.tail]
    · decide
    · rw [(push_shape ring [8]).2.1]
      omega
    · rw [(push_shape ring [8]).2.1]
      omega
  · rw [first.unread_eq, unread, ← used, usedAfter, readFrom, (push_shape ring [8]).1, lengthByte]
    intro kept
    have heads := (List.cons_prefix_cons.mp kept).1
    revert heads
    decide

end RingBuffer

end LeanAntenna
