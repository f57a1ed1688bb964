import Antenna.RingMemory
import Antenna.SendCore

/-!
When a batch of lines is enqueued as a whole. A call fails at the first line that finds no room, so
lines in front of it may be in the ring already.
-/

namespace LeanAntenna

open Text Replay RingBuffer

/-- Whatever the worker takes out of the ring, there is room for the first line only if there is
room for all. -/
def Whole (capacity : Nat) (initial batch : List (List UInt8)) : Prop :=
  ∀ line ∈ batch.head?, ∀ taken,
    encodedSize line ≤ capacity - (encodeAll (initial.drop taken)).length →
      (encodeAll batch).length ≤ capacity - (encodeAll (initial.drop taken)).length

namespace Sending

/-- How far the call is, while `queue` lies in the ring. -/
inductive Phase (sending : Sending) (queue : List (List UInt8)) : Prop where
  | before (fresh : sending.enqueued = []) (running : sending.result = none)
      (whole : sending.remaining = sending.batch)
  | refused (fresh : sending.enqueued = []) (failed : sending.result = some (-3))
  | amid (split : sending.enqueued ++ sending.remaining = sending.batch)
      (running : sending.result = none)
      (room : (encodeAll sending.remaining).length ≤
        sending.ring.capacity.toNat - (encodeAll queue).length)
  | done (all : sending.enqueued = sending.batch) (succeeded : sending.result = some 0)

/-- The ring holds what lay in it and what the call enqueued, less what the worker received. -/
structure Steady (initial batch : List (List UInt8)) (capacity : UInt32) (sending : Sending)
    (base : Nat) (queue : List (List UInt8)) : Prop where
  represents : sending.ring.Represents base queue
  sized : sending.ring.capacity = capacity
  same : sending.batch = batch
  balance : sending.received ++ queue = initial ++ sending.enqueued
  phase : sending.Phase queue

variable {sending : Sending} {base : Nat} {queue : List (List UInt8)} {line : List UInt8}
  {rest : List (List UInt8)}

theorem push_line (sending : Sending) (running : sending.result = none) (next : sending.remaining = line :: rest)
    (represents : sending.ring.Represents base queue) (short : Short line)
    (room : encodedSize line ≤ sending.ring.capacity.toNat - (encodeAll queue).length) :
    sending.push = { sending with
      ring := (sending.ring.push line).1
      remaining := rest
      attempt := 0
      enqueued := sending.enqueued ++ [line] } := by
  have pushed : sending.ring.push line = ((sending.ring.push line).1, true) :=
    Prod.ext rfl ((represents.push_result short).mpr room)
  rw [push, running, next]
  dsimp only
  rw [pushed]

theorem push_refused (sending : Sending) (running : sending.result = none) (next : sending.remaining = line :: rest)
    (represents : sending.ring.Represents base queue) (short : Short line)
    (full : sending.ring.capacity.toNat - (encodeAll queue).length < encodedSize line) :
    sending.push =
      if sending.attempt + 1 < sendAttempts then
        { sending with attempt := sending.attempt + 1 }
      else { sending with result := some (-3) } := by
  rw [push, running, next]
  dsimp only
  rw [represents.push_full short full]

theorem drain_empty (represents : sending.ring.Represents base []) : sending.drain = sending := by
  rw [drain, represents.pop_empty]

theorem drain_message (represents : sending.ring.Represents base (line :: queue)) :
    sending.drain = { sending with
        ring := sending.ring.pop.1
        received := sending.received ++ [line] } ∧
      sending.ring.pop.1.Represents (base + encodedSize line) queue := by
  obtain ⟨popped, shrunk⟩ := represents.pop_message
  have outcome : sending.ring.pop = (sending.ring.pop.1, some line) := Prod.ext rfl popped
  refine ⟨?_, shrunk⟩
  rw [drain, outcome]

theorem push_steady {initial batch : List (List UInt8)} {capacity : UInt32}
    (short : ∀ line ∈ batch, Short line) (whole : Whole capacity.toNat initial batch)
    (steady : sending.Steady initial batch capacity base queue) :
    ∃ queue, sending.push.Steady initial batch capacity base queue := by
  obtain ⟨represents, rfl, rfl, balance, phase⟩ := steady
  have pushed {line : List UInt8} {rest : List (List UInt8)} (running : sending.result = none)
      (next : sending.remaining = line :: rest) (listed : line ∈ sending.batch)
      (split : sending.enqueued ++ line :: rest = sending.batch)
      (room : (encodeAll (line :: rest)).length ≤
        sending.ring.capacity.toNat - (encodeAll queue).length) :
      sending.push.Steady initial sending.batch sending.ring.capacity base (queue ++ [line]) := by
    simp only [encodeAll_cons, List.length_append, encode_length] at room
    rw [push_line sending running next represents (short line listed) (by omega)]
    refine ⟨represents.push_accept (short line listed) (by omega), (RingBuffer.push_shape _ _).2.1, rfl, ?_, ?_⟩
    · rw [← List.append_assoc, balance, List.append_assoc]
    · refine .amid (by simpa using split) running ?_
      simp [RingBuffer.push_shape]
      omega
  cases phase with
  | before fresh running all =>
      cases next : sending.batch with
      | nil =>
          have done : sending.push = { sending with result := some 0 } := by
            rw [push, running, all, next]
          rw [done]
          exact ⟨queue, represents, rfl, next, balance, .done (fresh.trans next.symm) rfl⟩
      | cons line rest =>
          have listed : line ∈ sending.batch := by simp [next]
          have suffix : queue = initial.drop sending.received.length := by
            rw [fresh, List.append_nil] at balance
            rw [← balance, List.drop_left]
          by_cases room : encodedSize line ≤
              sending.ring.capacity.toNat - (encodeAll queue).length
          · have fits := whole line (by simp [next]) sending.received.length
              (by rw [← suffix]; exact room)
            rw [← suffix, next] at fits
            exact ⟨_, next ▸ pushed running (all.trans next) listed (by rw [fresh, next]; rfl) fits⟩
          · refine ⟨queue, ?_⟩
            rw [push_refused sending running (all.trans next) represents (short line listed) (by omega)]
            split
            · exact ⟨represents, rfl, next, balance, .before fresh running all⟩
            · exact ⟨represents, rfl, next, balance, .refused fresh rfl⟩
  | refused fresh failed =>
      refine ⟨queue, ?_⟩
      have stays : sending.push = sending := by rw [push, failed]
      rw [stays]
      exact ⟨represents, rfl, rfl, balance, .refused fresh failed⟩
  | amid split running room =>
      cases next : sending.remaining with
      | nil =>
          have done : sending.push = { sending with result := some 0 } := by
            rw [push, running, next]
          rw [done]
          rw [next, List.append_nil] at split
          exact ⟨queue, represents, rfl, rfl, balance, .done split rfl⟩
      | cons line rest =>
          rw [next] at split room
          exact ⟨_, pushed running next (by simp [← split]) split room⟩
  | done all succeeded =>
      refine ⟨queue, ?_⟩
      have stays : sending.push = sending := by rw [push, succeeded]
      rw [stays]
      exact ⟨represents, rfl, rfl, balance, .done all succeeded⟩

theorem drain_steady {initial batch : List (List UInt8)} {capacity : UInt32}
    (steady : sending.Steady initial batch capacity base queue) :
    ∃ base queue, sending.drain.Steady initial batch capacity base queue := by
  obtain ⟨represents, rfl, rfl, balance, phase⟩ := steady
  cases queue with
  | nil =>
      rw [drain_empty represents]
      exact ⟨base, [], represents, rfl, rfl, balance, phase⟩
  | cons data queue =>
      obtain ⟨drained, shrunk⟩ := drain_message represents
      rw [drained]
      refine ⟨_, queue, shrunk, (RingBuffer.pop_shape _).2.1, rfl, by simpa using balance, ?_⟩
      cases phase with
      | before fresh running all => exact .before fresh running all
      | refused fresh failed => exact .refused fresh failed
      | amid split running room =>
          refine .amid split running ?_
          simp only [encodeAll_cons, List.length_append, RingBuffer.pop_shape] at room ⊢
          omega
      | done all succeeded => exact .done all succeeded

theorem retry_steady {initial batch : List (List UInt8)} {capacity : UInt32}
    (steady : sending.Steady initial batch capacity base queue) :
    sending.retry.Steady initial batch capacity base queue := by
  unfold retry
  split
  · rename_i failed
    obtain ⟨represents, rfl, rfl, balance, phase⟩ := steady
    refine ⟨represents, rfl, rfl, balance, .before ?_ rfl rfl⟩
    cases phase with
    | before fresh running all => exact fresh
    | refused fresh failed => exact fresh
    | amid split running room => simp [running] at failed
    | done all succeeded => simp [succeeded] at failed
  · exact steady

theorem run_steady {initial batch : List (List UInt8)} {capacity : UInt32}
    (short : ∀ line ∈ batch, Short line) (whole : Whole capacity.toNat initial batch)
    (steady : sending.Steady initial batch capacity base queue) (actions : List SendAction) :
    ∃ base queue, (replay step sending actions).Steady initial batch capacity base queue := by
  induction actions generalizing sending base queue with
  | nil => exact ⟨base, queue, steady⟩
  | cons action actions ih =>
      cases action with
      | attempt =>
          obtain ⟨_, next⟩ := push_steady short whole steady
          exact ih next
      | drain =>
          obtain ⟨_, _, next⟩ := drain_steady steady
          exact ih next
      | retry => exact ih (retry_steady steady)

theorem Steady.atomic {initial batch : List (List UInt8)} {capacity : UInt32}
    (steady : sending.Steady initial batch capacity base queue) : sending.Atomic initial := by
  obtain ⟨represents, -, -, balance, phase⟩ := steady
  have accepted : sending.result = some 0 → sending.enqueued = sending.batch := by
    intro succeeded
    cases phase with
    | before fresh running all => simp [running] at succeeded
    | refused fresh failed => simp [failed] at succeeded
    | amid split running room => simp [running] at succeeded
    | done all succeeded => exact all
  refine ⟨?_, accepted, ?_⟩
  · intro failed
    cases phase with
    | before fresh running all => exact fresh
    | refused fresh failed => exact fresh
    | amid split running room => simp [running] at failed
    | done all succeeded => simp [succeeded] at failed
  · intro succeeded empty
    have drained : queue = [] := by
      cases queue with
      | nil => rfl
      | cons data queue => simp [represents.pop_message.1] at empty
    rw [drained, List.append_nil, accepted succeeded] at balance
    exact balance

theorem gives_up (sending : Sending) (left : Nat) (few : sendAttempts - sending.attempt ≤ left)
    (running : sending.result = none) (next : sending.remaining = line :: rest)
    (represents : sending.ring.Represents base queue) (short : Short line)
    (full : sending.ring.capacity.toNat - (encodeAll queue).length < encodedSize line) :
    ∃ attempts, (replay step sending (List.replicate attempts .attempt)).result = some (-3) ∧
      (replay step sending (List.replicate attempts .attempt)).enqueued = sending.enqueued := by
  induction left generalizing sending with
  | zero =>
      refine ⟨1, ?_⟩
      have last : ¬ sending.attempt + 1 < sendAttempts := by omega
      change (sending.push).result = _ ∧ (sending.push).enqueued = _
      rw [push_refused sending running next represents short full, if_neg last]
      exact ⟨rfl, rfl⟩
  | succ left ih =>
      by_cases again : sending.attempt + 1 < sendAttempts
      · obtain ⟨attempts, failed, kept⟩ := ih
          { sending with attempt := sending.attempt + 1 }
          (by simp only; omega) running next represents full
        refine ⟨attempts + 1, ?_⟩
        rw [List.replicate_succ]
        change (replay step sending.push _).result = _ ∧ (replay step sending.push _).enqueued = _
        rw [push_refused sending running next represents short full, if_pos again]
        exact ⟨failed, kept⟩
      · refine ⟨1, ?_⟩
        change (sending.push).result = _ ∧ (sending.push).enqueued = _
        rw [push_refused sending running next represents short full, if_neg again]
        exact ⟨rfl, rfl⟩

/-- A call that finds no room for all its lines enqueues those in front and fails. -/
theorem overflows (sending : Sending) (running : sending.result = none)
    (represents : sending.ring.Represents base queue)
    (short : ∀ line ∈ sending.remaining, Short line)
    (beyond : sending.ring.capacity.toNat - (encodeAll queue).length <
      (encodeAll sending.remaining).length) :
    ∃ attempts, (replay step sending (List.replicate attempts .attempt)).result = some (-3) ∧
      sending.enqueued <+: (replay step sending (List.replicate attempts .attempt)).enqueued := by
  generalize lines : sending.remaining = remaining at short beyond
  induction remaining generalizing sending queue with
  | nil => simp at beyond
  | cons line rest ih =>
      have shortLine := short line (by simp)
      by_cases room : encodedSize line ≤ sending.ring.capacity.toNat - (encodeAll queue).length
      · have accepted := represents.push_accept shortLine room
        have pushed := push_line sending running lines represents shortLine room
        obtain ⟨attempts, failed, kept⟩ := @ih (queue ++ [line]) sending.push
          (by rw [pushed]; exact running) (by rw [pushed]; exact accepted)
          (by rw [pushed]) (fun other member => short other (by simp [member]))
          (by
            simp only [encodeAll_cons, List.length_append, encode_length] at beyond
            simp [pushed, RingBuffer.push_shape]
            omega)
        refine ⟨attempts + 1, ?_⟩
        rw [List.replicate_succ]
        refine ⟨failed, List.IsPrefix.trans ?_ kept⟩
        rw [pushed]
        exact List.prefix_append _ _
      · obtain ⟨attempts, failed, kept⟩ := gives_up sending (sendAttempts - sending.attempt)
          (Nat.le_refl _)
          running lines represents shortLine (by omega)
        exact ⟨attempts, failed, kept ▸ List.prefix_rfl⟩

theorem drains (sending : Sending) (count : Nat) (represents : sending.ring.Represents base queue) :
    ∃ base ring received, replay step sending (List.replicate count .drain) =
        { sending with ring, received } ∧
      ring.Represents base (queue.drop count) ∧ ring.capacity = sending.ring.capacity := by
  induction count generalizing sending base queue with
  | zero => exact ⟨base, sending.ring, sending.received, rfl, represents, rfl⟩
  | succ count ih =>
      rw [List.replicate_succ]
      change ∃ base ring received, replay step sending.drain _ = _ ∧ _
      cases queue with
      | nil =>
          rw [drain_empty represents]
          simpa using ih sending represents
      | cons data queue =>
          obtain ⟨drained, shrunk⟩ := drain_message represents
          obtain ⟨later, ring, received, ran, holds, sized⟩ := ih sending.drain
            (by rw [drained]; exact shrunk)
          rw [ran, drained]
          rw [drained] at sized
          exact ⟨later, ring, received, rfl, holds, sized.trans (RingBuffer.pop_shape _).2.1⟩

/-- If room for the first line need not be room for all, a call can fail halfway. -/
theorem whole_of_atomic {ring : RingBuffer} {initial batch : List (List UInt8)}
    (represents : ring.Represents base initial) (short : ∀ line ∈ batch, Short line)
    (atomic : ∀ actions, (replay step (start ring batch) actions).Atomic initial) :
    Whole ring.capacity.toNat initial batch := by
  intro line first taken room
  by_contra beyond
  cases batch with
  | nil => simp at first
  | cons head rest =>
      obtain rfl : head = line := by simpa using first
      have shortHead := short head (by simp)
      obtain ⟨base, drained, received, ran, holds, sized⟩ := drains (start ring (head :: rest)) taken
        represents
      rw [← show drained.capacity = ring.capacity from sized] at room beyond
      have pushed := push_line { start ring (head :: rest) with ring := drained, received }
        rfl rfl holds shortHead room
      have more : drained.capacity.toNat - (encodeAll (initial.drop taken ++ [head])).length <
          (encodeAll rest).length := by
        simp only [encodeAll_cons, List.length_append, encode_length] at beyond
        simp only [encodeAll_append, encodeAll_cons, encodeAll_nil, List.append_nil,
          List.length_append, encode_length]
        omega
      obtain ⟨attempts, failed, kept⟩ := overflows
        (push { start ring (head :: rest) with ring := drained, received })
        (by rw [pushed]; rfl) (by rw [pushed]; exact holds.push_accept shortHead room)
        (by rw [pushed]; exact fun other member => short other (List.mem_cons_of_mem _ member))
        (by rw [pushed, (RingBuffer.push_shape _ _).2.1]; exact more)
      have refused := (atomic (List.replicate taken .drain ++ .attempt ::
        List.replicate attempts .attempt)).refused
      rw [replay_append, ran] at refused
      have nothing : _ <+: [] := Eq.subst (motive := fun later => _ <+: later) (refused failed) kept
      have first := congrArg Sending.enqueued pushed
      rw [List.prefix_nil.mp nothing] at first
      simp [start] at first

/-- A call fails with nothing enqueued, or has all its lines received once, exactly if room for its
first line is room for all of them. -/
theorem send_atomic_iff {ring : RingBuffer} {initial : List (List UInt8)}
    (represents : ring.Represents base initial) (text : Text)
    (short : ∀ line ∈ turtleLines text, Short (Utf8.encode line)) :
    (∀ actions, (replay step
        (antennaSend ring ⟨false, false, Utf8.encode text⟩ false) actions).Atomic initial) ↔
      Whole ring.capacity.toNat initial ((turtleLines text).map Utf8.encode) := by
  have started : antennaSend ring ⟨false, false, Utf8.encode text⟩ false =
      start ring ((turtleLines text).map Utf8.encode) := by
    simp [antennaSend, SendArgs.batch, Utf8.decode_encode]
  have shorts : ∀ line ∈ (turtleLines text).map Utf8.encode, Short line := by
    simpa using short
  rw [started]
  constructor
  · exact whole_of_atomic represents shorts
  · intro whole actions
    have begun : (start ring ((turtleLines text).map Utf8.encode)).Steady initial
        ((turtleLines text).map Utf8.encode) ring.capacity base initial :=
      ⟨represents, rfl, rfl, by simp [start], .before rfl rfl rfl⟩
    obtain ⟨_, _, steady⟩ := run_steady shorts whole begun actions
    exact steady.atomic

theorem sent_halfway {ring : RingBuffer} {initial : List (List UInt8)} {first second : List UInt8}
    (represents : ring.Represents base initial) (shortFirst : Short first)
    (shortSecond : Short second)
    (room : encodedSize first ≤ ring.capacity.toNat - (encodeAll initial).length)
    (full : ring.capacity.toNat - (encodeAll (initial ++ [first])).length < encodedSize second) :
    ∃ actions, (replay step (start ring [first, second]) actions).result = some (-3) ∧
      (replay step (start ring [first, second]) actions).enqueued = [first] := by
  have pushed := push_line (start ring [first, second]) rfl rfl represents shortFirst room
  obtain ⟨attempts, failed, kept⟩ := gives_up (start ring [first, second]).push sendAttempts
    (Nat.sub_le _ _) (by rw [pushed]; rfl) (by rw [pushed])
    (by rw [pushed]; exact represents.push_accept shortFirst room) shortSecond
    (by rw [pushed, (RingBuffer.push_shape _ _).2.1]; exact full)
  exact ⟨.attempt :: List.replicate attempts .attempt, failed,
    kept.trans (congrArg Sending.enqueued pushed)⟩

def bulk (size : Nat) : List UInt8 := List.replicate size 97

theorem bulk_length (size : Nat) : (bulk size).length = size := List.length_replicate

theorem bulk_encoded (size : Nat) : (encodeAll [bulk size]).length = 4 + size := by
  simp only [encodeAll_cons, encodeAll_nil, List.append_nil, encode_length, encodedSize, bulk_length]

theorem ffiRing_capacity : (RingBuffer.new ffiRingBytes).capacity.toNat = 2 ^ 20 := by
  simp only [RingBuffer.new, UInt32.toNat_ofNat', ffiRingBytes]
  decide

theorem ffiRing_divides : ffiRingBytes ∣ 2 ^ 32 := ⟨2 ^ 12, by decide⟩

/-- The IN ring with one message of the given size. -/
def loaded (size : Nat) : RingBuffer := ((RingBuffer.new ffiRingBytes).push (bulk size)).1

theorem loaded_represents {size : Nat} (below : 4 + size ≤ 2 ^ 20) :
    (loaded size).Represents 0 [bulk size] ∧ (loaded size).capacity.toNat = 2 ^ 20 := by
  refine ⟨?_, by rw [loaded, (RingBuffer.push_shape _ _).2.1, ffiRing_capacity]⟩
  refine (new_represents ffiRing_divides).push_accept ?_ ?_
  · rw [Short, bulk_length]
    omega
  · rw [ffiRing_capacity, encodedSize, bulk_length]
    simpa using below

def twoLines : Text := "a\nb".toList

theorem twoLines_batch : (turtleLines twoLines).map Utf8.encode = [[97], [98]] := by decide

theorem twoLines_short : ∀ line ∈ turtleLines twoLines, Short (Utf8.encode line) := by
  intro line member
  have encoded : Utf8.encode line ∈ (turtleLines twoLines).map Utf8.encode :=
    List.mem_map_of_mem member
  rw [twoLines_batch] at encoded
  simp only [List.mem_cons, List.not_mem_nil, or_false] at encoded
  rcases encoded with same | same <;> simp [Short, same]

theorem half_sent_of {size : Nat} (tight : size + 9 = 2 ^ 20) :
    ∃ actions, (replay step (antennaSend (loaded size) ⟨false, false, Utf8.encode twoLines⟩ false)
        actions).result = some (-3) ∧
      (replay step (antennaSend (loaded size) ⟨false, false, Utf8.encode twoLines⟩ false)
        actions).enqueued = [Utf8.encode "a".toList] := by
  obtain ⟨represents, sized⟩ := loaded_represents (show 4 + size ≤ 2 ^ 20 by omega)
  have started : antennaSend (loaded size) ⟨false, false, Utf8.encode twoLines⟩ false =
      start (loaded size) [[97], [98]] := by
    simp [antennaSend, SendArgs.batch, Utf8.decode_encode, ← twoLines_batch]
  have letter : Utf8.encode "a".toList = [97] := by decide
  rw [started, letter]
  refine sent_halfway represents (by simp [Short]) (by simp [Short]) ?_ ?_
  · rw [sized, bulk_encoded, encodedSize, List.length_singleton]
    omega
  · rw [sized, encodeAll_append, List.length_append, bulk_encoded]
    simp [encodedSize]
    omega

/-- Into a ring with room for one of its two lines, a call enqueues the first and fails. -/
theorem half_sent :
    ∃ actions, (replay step (antennaSend (loaded 1048567) ⟨false, false, Utf8.encode twoLines⟩
        false) actions).result = some (-3) ∧
      (replay step (antennaSend (loaded 1048567) ⟨false, false, Utf8.encode twoLines⟩
        false) actions).enqueued = [Utf8.encode "a".toList] :=
  half_sent_of (by norm_num)

/-- Into an empty ring the two lines go as a whole. -/
theorem send_atomic_iff_empty :
    (turtleLines twoLines).map Utf8.encode = [[97], [98]] ∧ ∀ actions,
      (replay step (antennaSend (RingBuffer.new ffiRingBytes) ⟨false, false, Utf8.encode twoLines⟩
        false) actions).Atomic [] := by
  refine ⟨twoLines_batch, ?_⟩
  apply (send_atomic_iff (new_represents ffiRing_divides) twoLines twoLines_short).mpr
  rw [twoLines_batch]
  intro line first taken room
  rw [ffiRing_capacity]
  simp [encodedSize]

end Sending

end LeanAntenna
