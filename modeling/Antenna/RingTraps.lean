import Antenna.RingOverlap

/-!
`push` and `pop` in the overflow-checked profile: `none` is the panic of a trapping operation. The
stores of `head` and `tail` use `wrapping_add` and `used` is a `wrapping_sub`, which never trap.
-/

namespace LeanAntenna

open Transition

def checkedAdd (left right : UInt32) : Option UInt32 :=
  if left.toNat + right.toNat < 2 ^ 32 then some (left + right) else none

def checkedSub (left right : UInt32) : Option UInt32 :=
  if right ≤ left then some (left - right) else none

def checkedRem (left right : UInt32) : Option UInt32 :=
  if right = 0 then none else some (left % right)

namespace RingBuffer

/-- One of the write loops of `push`; `position` is what is reduced to the index of byte `i`. -/
def writeChecked (position : Nat → Option UInt32) : Nat → List UInt8 → RingBuffer → Option RingBuffer
  | _, [], ring => some ring
  | i, byte :: rest, ring => do
      let index ← checkedRem (← position i) ring.capacity
      writeChecked position (i + 1) rest
        { ring with buf := ring.buf.setIfInBounds index.toNat byte }

/-- One of the read loops of `pop`. -/
def readChecked (ring : RingBuffer) (position : Nat → Option UInt32) : Nat → Nat → Option (List UInt8)
  | _, 0 => some []
  | i, count + 1 => do
      let index ← checkedRem (← position i) ring.capacity
      return ring.buf.getD index.toNat 0 :: (← readChecked ring position (i + 1) count)

/-- `start + i as u32` -/
def atIndex (start : UInt32) (i : Nat) : Option UInt32 := checkedAdd start (UInt32.ofNat i)

/-- `start + 4 + i as u32` -/
def behindPrefix (start : UInt32) (i : Nat) : Option UInt32 := do
  checkedAdd (← checkedAdd start 4) (UInt32.ofNat i)

def pushChecked (ring : RingBuffer) (data : List UInt8) : Option (RingBuffer × Bool) := do
  let len := UInt32.ofNat data.length
  let total ← checkedAdd 4 len
  let head := ring.head
  let tail := ring.tail
  let used := head - tail
  let free ← checkedSub ring.capacity used
  if total > free then
    return (ring, false)
  let written ← writeChecked (atIndex head) 0 (toLeBytes len) ring
  let written ← writeChecked (behindPrefix head) 0 data written
  return ({ written with head := head + total }, true)

def popChecked (ring : RingBuffer) : Option (RingBuffer × Option (List UInt8)) := do
  let tail := ring.tail
  let head := ring.head
  if tail = head then
    return (ring, none)
  let bytes ← readChecked ring (atIndex tail) 0 4
  let len := fromLeBytes bytes
  let data ← readChecked ring (behindPrefix tail) 0 len.toNat
  let total ← checkedAdd 4 len
  return ({ ring with tail := tail + total }, some data)

def callChecked (ring : RingBuffer) : RingCall → Option RingBuffer
  | .push data => (ring.pushChecked data).map (·.1)
  | .pop => ring.popChecked.map (·.1)

/-- There is room for the message, by the low 32 bits of its length. -/
def Room (ring : RingBuffer) (data : List UInt8) : Prop :=
  ring.used + (4 + data.length % 2 ^ 32) ≤ ring.capacity.toNat

/-- The prefix can be added to the length and, where there is room, the message ends at or before the
wrap of `head`. -/
def Straight (ring : RingBuffer) (data : List UInt8) : Prop :=
  4 + data.length % 2 ^ 32 < 2 ^ 32 ∧
    (ring.Room data → ring.head.toNat + (4 + data.length) ≤ 2 ^ 32)

/-- A push is straight and, where there is room, clear of the unread messages. -/
def Steady (ring : RingBuffer) : RingCall → Prop
  | .push data => ring.Straight data ∧ (ring.Room data → ring.Clear (ring.used + (4 + data.length)))
  | .pop => True

section Loops

variable {ring : RingBuffer} {position : Nat → Option UInt32} {start : UInt32}

theorem writeChecked_eq (positive : ring.capacity ≠ 0) (bytes : List UInt8) (offset : Nat)
    (reached : ∀ i, i < offset + bytes.length → position i = some (start + UInt32.ofNat i)) :
    writeChecked position offset bytes ring = some (writeFrom start offset bytes ring) := by
  induction bytes generalizing offset ring with
  | nil => rfl
  | cons byte rest ih =>
      rw [List.length_cons] at reached
      rw [writeChecked, reached offset (by omega)]
      simp only [Option.bind_eq_bind, Option.bind_some, checkedRem, if_neg positive]
      rw [writeFrom]
      refine ih ?_ (offset + 1) (fun i inside => reached i (by omega))
      exact positive

theorem writeChecked_none (bytes : List UInt8) (offset : Nat)
    (trapped : ∃ i, offset ≤ i ∧ i < offset + bytes.length ∧ position i = none) :
    writeChecked position offset bytes ring = none := by
  induction bytes generalizing offset ring with
  | nil =>
      obtain ⟨i, least, most, _⟩ := trapped
      rw [List.length_nil] at most
      omega
  | cons byte rest ih =>
      obtain ⟨i, least, most, stops⟩ := trapped
      rw [List.length_cons] at most
      rw [writeChecked]
      by_cases here : i = offset
      · rw [← here, stops]
        rfl
      · cases position offset with
        | none => rfl
        | some index =>
            simp only [Option.bind_eq_bind, Option.bind_some]
            cases checkedRem index ring.capacity with
            | none => rfl
            | some index => exact ih (offset + 1) ⟨i, by omega, by omega, stops⟩

theorem readChecked_eq (positive : ring.capacity ≠ 0) (count offset : Nat)
    (reached : ∀ i, i < offset + count → position i = some (start + UInt32.ofNat i)) :
    ring.readChecked position offset count = some (ring.readFrom start offset count) := by
  induction count generalizing offset with
  | zero => rfl
  | succ count ih =>
      rw [readChecked, reached offset (by omega), ih (offset + 1) (fun i inside => reached i (by omega))]
      simp only [Option.bind_eq_bind, Option.bind_some, checkedRem, if_neg positive]
      rfl

theorem atIndex_eq {i : Nat} (below : start.toNat + i < 2 ^ 32) :
    atIndex start i = some (start + UInt32.ofNat i) := by
  rw [atIndex, checkedAdd, if_pos]
  rw [UInt32.toNat_ofNat', Nat.mod_eq_of_lt (by omega)]
  exact below

theorem atIndex_none {i : Nat} (small : i < 2 ^ 32) (past : 2 ^ 32 ≤ start.toNat + i) :
    atIndex start i = none := by
  rw [atIndex, checkedAdd, if_neg]
  rw [UInt32.toNat_ofNat', Nat.mod_eq_of_lt small]
  omega

theorem add_four_toNat (below : start.toNat + 4 < 2 ^ 32) : (start + 4).toNat = start.toNat + 4 := by
  rw [UInt32.toNat_add]
  exact Nat.mod_eq_of_lt below

theorem behindPrefix_eq {i : Nat} (below : start.toNat + 4 + i < 2 ^ 32) :
    behindPrefix start i = some (start + 4 + UInt32.ofNat i) := by
  have four : checkedAdd start 4 = some (start + 4) := @atIndex_eq start 4 (by omega)
  have sum := @add_four_toNat start (by omega)
  rw [behindPrefix, four]
  exact atIndex_eq (by rw [sum]; exact below)

theorem behindPrefix_none {i : Nat} (small : i < 2 ^ 32) (past : 2 ^ 32 ≤ start.toNat + 4 + i) :
    behindPrefix start i = none := by
  rw [behindPrefix]
  by_cases wraps : 2 ^ 32 ≤ start.toNat + 4
  · have four : checkedAdd start 4 = none := @atIndex_none start 4 (by decide) wraps
    rw [four]
    rfl
  · have four : checkedAdd start 4 = some (start + 4) := @atIndex_eq start 4 (by omega)
    have sum := @add_four_toNat start (by omega)
    rw [four]
    exact atIndex_none small (by rw [sum]; exact past)

end Loops

section Calls

variable {ring : RingBuffer} {data : List UInt8}

/-- The admission test, where the length prefix can be added. -/
theorem full_iff (bound : ring.used ≤ ring.capacity.toNat)
    (small : 4 + data.length % 2 ^ 32 < 2 ^ 32) :
    4 + UInt32.ofNat data.length > ring.capacity - (ring.head - ring.tail) ↔ ¬ring.Room data := by
  have total : (4 + UInt32.ofNat data.length).toNat = 4 + data.length % 2 ^ 32 := by
    rw [UInt32.toNat_add, UInt32.toNat_ofNat']
    exact Nat.mod_eq_of_lt small
  have free : (ring.capacity - (ring.head - ring.tail)).toNat = ring.capacity.toNat - ring.used :=
    UInt32.toNat_sub_of_le _ _ (UInt32.le_iff_toNat_le.mpr bound)
  rw [gt_iff_lt, UInt32.lt_iff_toNat_lt, total, free, Room]
  omega

theorem checkedSub_used (bound : ring.used ≤ ring.capacity.toNat) :
    checkedSub ring.capacity (ring.head - ring.tail) =
      some (ring.capacity - (ring.head - ring.tail)) :=
  if_pos (UInt32.le_iff_toNat_le.mpr bound)

theorem total_checked (small : 4 + data.length % 2 ^ 32 < 2 ^ 32) :
    checkedAdd 4 (UInt32.ofNat data.length) = some (4 + UInt32.ofNat data.length) := by
  rw [checkedAdd, if_pos]
  rw [UInt32.toNat_ofNat']
  exact small

theorem push_refused (bound : ring.used ≤ ring.capacity.toNat)
    (small : 4 + data.length % 2 ^ 32 < 2 ^ 32) (full : ¬ring.Room data) :
    ring.push data = (ring, false) := by
  simp only [push]
  rw [if_pos ((full_iff bound small).mpr full)]

/-- A straight push does not trap, and does what it does in the release profile. -/
theorem pushChecked_eq (bound : ring.used ≤ ring.capacity.toNat) (straight : ring.Straight data) :
    ring.pushChecked data = some (ring.push data) := by
  obtain ⟨small, ends⟩ := straight
  rw [pushChecked, total_checked small]
  simp only [Option.bind_eq_bind, Option.bind_some, checkedSub_used bound]
  by_cases room : ring.Room data
  · have fits := mt (full_iff bound small).mp (not_not.mpr room)
    have below := ends room
    have positive : ring.capacity ≠ 0 := by
      intro zero
      rw [Room, zero, UInt32.toNat_zero] at room
      omega
    have prefixed : writeChecked (atIndex ring.head) 0 (toLeBytes (UInt32.ofNat data.length)) ring =
        some (writeFrom ring.head 0 (toLeBytes (UInt32.ofNat data.length)) ring) := by
      refine writeChecked_eq positive _ 0 fun i inside => atIndex_eq ?_
      rw [toLeBytes_length] at inside
      omega
    have positiveStill :
        (writeFrom ring.head 0 (toLeBytes (UInt32.ofNat data.length)) ring).capacity ≠ 0 := by
      rw [(writeFrom_fields _ _ _ _).2.2.1]
      exact positive
    rw [if_neg fits, prefixed, Option.bind_some,
      writeChecked_eq positiveStill data 0 fun i inside => behindPrefix_eq (by omega)]
    simp only [push]
    rw [if_neg fits]
    rfl
  · have full := (full_iff bound small).mpr room
    rw [if_pos full, push_refused bound small room]
    rfl

/-- Any other push traps. -/
theorem pushChecked_none (bound : ring.used ≤ ring.capacity.toNat)
    (crooked : ¬ring.Straight data) : ring.pushChecked data = none := by
  rw [pushChecked]
  by_cases small : 4 + data.length % 2 ^ 32 < 2 ^ 32
  · rw [Straight, not_and, Classical.not_imp] at crooked
    obtain ⟨room, past⟩ := crooked small
    have fits := mt (full_iff bound small).mp (not_not.mpr room)
    rw [total_checked small]
    simp only [Option.bind_eq_bind, Option.bind_some, checkedSub_used bound]
    rw [if_neg fits]
    by_cases early : 2 ^ 32 < ring.head.toNat + 4
    · rw [writeChecked_none]
      · rfl
      · have below := ring.head.toNat_lt
        refine ⟨2 ^ 32 - ring.head.toNat, by omega, by rw [toLeBytes_length]; omega, ?_⟩
        exact atIndex_none (by omega) (by omega)
    · cases writeChecked (atIndex ring.head) 0 (toLeBytes (UInt32.ofNat data.length)) ring with
      | none => rfl
      | some written =>
          rw [Option.bind_some, writeChecked_none]
          · rfl
          · refine ⟨2 ^ 32 - (ring.head.toNat + 4), by omega, by omega, ?_⟩
            exact behindPrefix_none (by omega) (by omega)
  · have trapped : checkedAdd 4 (UInt32.ofNat data.length) = none := by
      rw [checkedAdd, if_neg]
      rw [UInt32.toNat_ofNat']
      exact small
    rw [trapped]
    rfl

theorem pushChecked_none_iff (bound : ring.used ≤ ring.capacity.toNat) :
    ring.pushChecked data = none ↔ ¬ring.Straight data := by
  constructor
  · intro trapped straight
    rw [pushChecked_eq bound straight] at trapped
    cases trapped
  · exact pushChecked_none bound

/-- No message lies across a multiple of 2^32. -/
def Unbroken : Nat → List (List UInt8) → Prop
  | _, [] => True
  | base, data :: rest =>
      base % 2 ^ 32 + encodedSize data ≤ 2 ^ 32 ∧ Unbroken (base + encodedSize data) rest

theorem unbroken_snoc (base : Nat) (pending : List (List UInt8)) (data : List UInt8) :
    Unbroken base (pending ++ [data]) ↔
      Unbroken base pending ∧
        (base + (encodeAll pending).length) % 2 ^ 32 + encodedSize data ≤ 2 ^ 32 := by
  induction pending generalizing base with
  | nil => simp [Unbroken]
  | cons first rest ih =>
      simp only [List.cons_append, Unbroken, ih, encodeAll_cons, List.length_append, encode_length,
        and_assoc, Nat.add_assoc]

theorem popChecked_eq {base : Nat} {pending : List (List UInt8)} (held : ring.Held base pending)
    (unbroken : Unbroken base pending) : ring.popChecked = some ring.pop := by
  cases pending with
  | nil =>
      have same := held.empty_iff.mpr rfl
      rw [held.pop_empty, popChecked, if_pos same]
      rfl
  | cons message rest =>
      have notEmpty : ring.tail ≠ ring.head := by
        rw [Ne, held.empty_iff]
        simp
      have short := held.short message (by simp)
      have fits := held.fits
      have inside := unbroken.1
      have tail : ring.tail.toNat = base % 2 ^ 32 := by rw [held.tail, UInt32.toNat_ofNat']
      have positive : ring.capacity ≠ 0 := by
        intro zero
        rw [zero, UInt32.toNat_zero, encodeAll_cons, List.length_append, encode_length,
          encodedSize] at fits
        omega
      rw [encodedSize] at inside
      have prefixed : ring.readChecked (atIndex ring.tail) 0 4 = some (ring.readFrom ring.tail 0 4) :=
        readChecked_eq positive 4 0 fun i within => atIndex_eq (by omega)
      have payload : ring.readChecked (behindPrefix ring.tail) 0 message.length =
          some (ring.readFrom (ring.tail + 4) 0 message.length) :=
        readChecked_eq positive message.length 0 fun i within => behindPrefix_eq (by omega)
      have total : checkedAdd 4 (UInt32.ofNat message.length) =
          some (4 + UInt32.ofNat message.length) := by
        refine total_checked ?_
        have length := Nat.mod_le message.length (2 ^ 32)
        rw [Short] at short
        omega
      rw [popChecked, if_neg notEmpty, prefixed]
      simp only [Option.bind_eq_bind, Option.bind_some, held.read_length, short.length_toNat, payload,
        total, pop, if_neg notEmpty]
      rfl

end Calls

/-- As `Sound`, with no message across a multiple of 2^32. -/
def Whole (ring : RingBuffer) : Prop :=
  ∃ base pending, ring.Held base pending ∧ ring.Separate base (encodeAll pending).length ∧
    Unbroken base pending

variable {ring next : RingBuffer} {action : RingCall}

theorem new_whole (capacity : Nat) : (new capacity).Whole := by
  refine ⟨0, [], new_held capacity, ?_, trivial⟩
  intro low high before inside
  simp at inside

theorem Whole.sound (whole : ring.Whole) : ring.Sound := by
  obtain ⟨base, pending, held, separate, _⟩ := whole
  exact ⟨base, pending, held, separate⟩

theorem call_whole (whole : ring.Whole) (steady : ring.Steady action)
    (called : ring.call action = some next) : next.Whole := by
  have bound := whole.sound.used_le
  obtain ⟨base, pending, held, separate, unbroken⟩ := whole
  cases action with
  | push data =>
      cases called
      obtain ⟨⟨small, ends⟩, clear⟩ := steady
      by_cases room : ring.Room data
      · have below := ends room
        have length : data.length % 2 ^ 32 = data.length := Nat.mod_eq_of_lt (by omega)
        have roomy : ring.Roomy (.push data) := ⟨by omega, fun _ => clear room⟩
        rcases push_sound held roomy with refused | ⟨heldNext, separateNext⟩
        · rw [refused]
          exact ⟨base, pending, held, separate, unbroken⟩
        · refine ⟨base, pending ++ [data], heldNext, separateNext, ?_⟩
          rw [unbroken_snoc]
          refine ⟨unbroken, ?_⟩
          rw [held.head, UInt32.toNat_ofNat'] at below
          exact below
      · rw [push_refused bound small room]
        exact ⟨base, pending, held, separate, unbroken⟩
  | pop =>
      cases called
      cases pending with
      | nil =>
          rw [held.pop_empty]
          exact ⟨base, [], held, separate, unbroken⟩
      | cons data rest =>
          refine ⟨base + encodedSize data, rest, held.pop_message.2, ?_, unbroken.2⟩
          rw [encodeAll_cons, List.length_append, encode_length] at separate
          simpa only [Separate, pop_shape ring] using separate.drop

/-- A steady call does in the checked profile what it does in the wrapping one. -/
theorem callChecked_eq (whole : ring.Whole) (steady : ring.Steady action) :
    ring.callChecked action = ring.call action := by
  have bound := whole.sound.used_le
  obtain ⟨base, pending, held, separate, unbroken⟩ := whole
  cases action with
  | push data =>
      rw [callChecked, pushChecked_eq bound steady.1]
      rfl
  | pop =>
      rw [callChecked, popChecked_eq held unbroken]
      rfl

theorem run_checked {calls : List RingCall} (whole : ring.Whole)
    (meets : StepsMeet call Steady ring calls) :
    ∃ final, runSteps callChecked ring calls = some final ∧
      runSteps call ring calls = some final ∧ final.Whole := by
  induction calls generalizing ring with
  | nil => exact ⟨ring, rfl, rfl, whole⟩
  | cons action calls ih =>
      have checked := callChecked_eq whole meets.1
      obtain ⟨next, called⟩ : ∃ next, ring.call action = some next := by
        cases action with
        | push data => exact ⟨_, rfl⟩
        | pop => exact ⟨_, rfl⟩
      obtain ⟨final, ranChecked, ran, wholeFinal⟩ :=
        ih (call_whole whole meets.1 called) (meets.2 next called)
      rw [called] at checked
      exact ⟨final, runSteps_cons.mpr ⟨next, checked, ranChecked⟩,
        runSteps_cons.mpr ⟨next, called, ran⟩, wholeFinal⟩

/-- A run whose pushes are all steady never traps and does what it does in the release profile. In the
state it gets to no `pop` traps, and a `push` traps unless it is straight. -/
theorem ring_never_traps {capacity : Nat} {calls : List RingCall}
    (meets : StepsMeet call Steady (new capacity) calls) :
    ∃ ring, runSteps callChecked (new capacity) calls = some ring ∧
      runSteps call (new capacity) calls = some ring ∧ ring.popChecked = some ring.pop ∧
      ∀ data, (ring.pushChecked data = none ↔ ¬ring.Straight data) ∧
        (ring.Straight data → ring.pushChecked data = some (ring.push data)) := by
  obtain ⟨ring, ranChecked, ran, whole⟩ := run_checked (new_whole capacity) meets
  have bound := whole.sound.used_le
  obtain ⟨base, pending, held, _, unbroken⟩ := whole
  refine ⟨ring, ranChecked, ran, popChecked_eq held unbroken, fun data => ?_⟩
  exact ⟨pushChecked_none_iff bound, pushChecked_eq bound⟩

theorem ring_never_traps_ten :
    ∃ ring, runSteps callChecked (new 10) [.push [7], .push [8, 9], .pop] = some ring ∧
      runSteps call (new 10) [.push [7], .push [8, 9], .pop] = some ring ∧
      ring.popChecked = some ring.pop ∧
      ∀ data, (ring.pushChecked data = none ↔ ¬ring.Straight data) ∧
        (ring.Straight data → ring.pushChecked data = some (ring.push data)) := by
  have meets : StepsMeet call Steady (new 10) [.push [7], .push [8, 9], .pop] := by
    refine ⟨⟨⟨by decide, fun _ => by decide⟩, fun _ => .inr (.inl (by decide))⟩, fun next called => ?_⟩
    cases called
    refine ⟨⟨⟨by decide, fun _ => by decide⟩, fun _ => .inr (.inl (by decide))⟩, fun next called => ?_⟩
    cases called
    exact ⟨trivial, fun _ _ => trivial⟩
  exact ring_never_traps meets

theorem rounds_steady {capacity : Nat} (room : 5 ≤ capacity) (bounded : capacity < 2 ^ 32) (n : Nat)
    (below : 5 * n ≤ 2 ^ 32) : StepsMeet call Steady (new capacity) (rounds n) := by
  induction n with
  | zero => trivial
  | succ n ih =>
      refine stepsMeet_append (ih (by omega)) fun middle ran => ?_
      obtain ⟨ring, ranToo, held⟩ := rounds_held room bounded n (by omega)
      cases ran.symm.trans ranToo
      have empty : middle.used = 0 := held.used_toNat
      have tail : middle.tail.toNat = 5 * n := by
        rw [held.tail, UInt32.toNat_ofNat', Nat.mod_eq_of_lt (by omega)]
      have head : middle.head.toNat = 5 * n := by
        rw [held.head, encodeAll_nil, List.length_nil, Nat.add_zero, UInt32.toNat_ofNat',
          Nat.mod_eq_of_lt (by omega)]
      refine ⟨⟨⟨by simp, fun _ => ?_⟩, fun _ => .inr (.inl ?_)⟩, fun _ _ => ⟨trivial, fun _ _ => trivial⟩⟩
      · rw [head]
        simp
        omega
      · rw [tail, empty]
        simp
        omega

theorem rounds_trap {n : Nat} (full : 5 * n = 4294967295) :
    runSteps callChecked (new 16) (rounds n ++ [.push [0]]) = none := by
  obtain ⟨ring, ranChecked, ran, whole⟩ := run_checked (new_whole 16)
    (@rounds_steady 16 (by decide) (by decide) n (by omega))
  obtain ⟨same, ranToo, held⟩ := @rounds_held 16 (by decide) (by decide) n (by omega)
  cases ran.symm.trans ranToo
  have capacity : ring.capacity = 16 := by
    rw [run_capacity ran]
    rfl
  have empty : ring.used = 0 := held.used_toNat
  have head : ring.head.toNat = 4294967295 := by
    rw [held.head, full]
    decide
  have trapped : ring.pushChecked [0] = none := by
    refine pushChecked_none whole.sound.used_le fun straight => ?_
    have ends := straight.2 (by rw [Room, empty, capacity]; decide)
    rw [head] at ends
    revert ends
    decide
  rw [runSteps_behind ranChecked, runSteps, callChecked, trapped]
  rfl

/-- One byte behind 2^32 - 1 others traps at the second byte of its prefix, and a message of
2^32 - 1 bytes when the prefix is added. -/
theorem traps_at_wrap :
    runSteps callChecked (new 16) (rounds 858993459 ++ [.push [0]]) = none ∧
      runSteps callChecked (new 16) [.push (List.replicate 4294967295 0)] = none := by
  constructor
  · exact rounds_trap (by decide)
  · have trapped : (new 16).pushChecked (List.replicate 4294967295 0) = none := by
      refine pushChecked_none (new_whole 16).sound.used_le fun straight => ?_
      have small := straight.1
      rw [List.length_replicate] at small
      omega
    rw [runSteps, callChecked, trapped]
    rfl

end RingBuffer

end LeanAntenna
