import Antenna.EmbeddedCore
import Antenna.RingMemory

/-! One direction of a handle never loses, doubles or reorders what its ring accepted. -/

namespace LeanAntenna

open RingBuffer

namespace Lane

/-- The ring holds what was accepted and not yet received, and what was accepted was offered, in
order. -/
structure Carries (lane : Lane) (base : Nat) (waiting : List (List UInt8)) : Prop where
  represents : lane.ring.Represents base waiting
  balance : lane.received ++ waiting = lane.accepted
  order : ∃ sent, lane.offered = sent ++ lane.remaining ∧ lane.accepted.Sublist sent ∧
    (lane.dropped = 0 → lane.accepted = sent)

variable {lane : Lane} {base : Nat} {waiting rest : List (List UInt8)} {message : List UInt8}

theorem new_carries {capacity : Nat} (divides : capacity ∣ 2 ^ 32) :
    (new capacity).Carries 0 [] :=
  ⟨new_represents divides, rfl, [], rfl, List.Sublist.refl _, fun _ => rfl⟩

theorem Carries.offer (carries : lane.Carries base waiting) (idle : lane.remaining = [])
    (messages : List (List UInt8)) : (lane.offer messages).Carries base waiting := by
  obtain ⟨represents, balance, sent, split, order, kept⟩ := carries
  rw [idle, List.append_nil] at split
  refine ⟨represents, balance, sent, ?_, order, kept⟩
  simp only [Lane.offer, split]

theorem Carries.abandon (carries : lane.Carries base waiting) :
    lane.abandon.Carries base waiting := by
  obtain ⟨represents, balance, sent, split, order, kept⟩ := carries
  refine ⟨represents, balance, lane.offered, (List.append_nil _).symm, ?_, ?_⟩
  · rw [split]
    exact order.trans (List.sublist_append_left _ _)
  · intro none
    have whole : lane.dropped + lane.remaining.length = 0 := none
    have idle : lane.remaining = [] := List.length_eq_zero_iff.mp (by omega)
    rw [split, idle, List.append_nil]
    exact kept (by omega)

theorem push_idle (batch : Bool) (idle : lane.remaining = []) : lane.push batch = lane := by
  rw [push, idle]

theorem push_accepted (batch : Bool) (next : lane.remaining = message :: rest)
    (represents : lane.ring.Represents base waiting) (short : Short message)
    (room : encodedSize message ≤ lane.ring.capacity.toNat - (encodeAll waiting).length) :
    lane.push batch = { lane with
      ring := (lane.ring.push message).1
      remaining := rest
      attempt := 0
      accepted := lane.accepted ++ [message] } := by
  have pushed : lane.ring.push message = ((lane.ring.push message).1, true) :=
    Prod.ext rfl ((represents.push_result short).mpr room)
  rw [push, next]
  dsimp only
  rw [pushed]

theorem push_refused (batch : Bool) (next : lane.remaining = message :: rest)
    (represents : lane.ring.Represents base waiting) (short : Short message)
    (full : lane.ring.capacity.toNat - (encodeAll waiting).length < encodedSize message) :
    lane.push batch =
      if lane.attempt + 1 < sendAttempts then { lane with attempt := lane.attempt + 1 }
      else if batch then lane.abandon
      else { lane with remaining := rest, attempt := 0, dropped := lane.dropped + 1 } := by
  rw [push, next]
  dsimp only
  rw [represents.push_full short full]
  simp only [abandon, next]

/-- One attempt either places the next message, or leaves the ring as it is. -/
theorem Carries.push (carries : lane.Carries base waiting) (batch : Bool)
    (short : ∀ message ∈ lane.remaining.head?, Short message) :
    ∃ waiting, (lane.push batch).Carries base waiting := by
  cases next : lane.remaining with
  | nil =>
      rw [push_idle batch next]
      exact ⟨waiting, carries⟩
  | cons message rest =>
      have fits : Short message := short message (by simp [next])
      have kept := carries
      obtain ⟨represents, balance, sent, split, order, whole⟩ := carries
      have moved : lane.offered = (sent ++ [message]) ++ rest := by
        rw [split, next, List.append_assoc, List.singleton_append]
      by_cases room : encodedSize message ≤ lane.ring.capacity.toNat - (encodeAll waiting).length
      · rw [push_accepted batch next represents fits room]
        refine ⟨waiting ++ [message], represents.push_accept fits room, ?_, sent ++ [message],
          moved, order.append (List.Sublist.refl _), ?_⟩
        · simp only [← List.append_assoc, balance]
        · intro none
          simp only [whole none]
      · rw [push_refused batch next represents fits (by omega)]
        refine ⟨waiting, ?_⟩
        split
        · exact ⟨represents, balance, sent, split, order, whole⟩
        · split
          · exact kept.abandon
          · refine ⟨represents, balance, sent ++ [message], moved, ?_, ?_⟩
            · exact order.trans (List.sublist_append_left _ _)
            · intro none
              have impossible : lane.dropped + 1 = 0 := none
              omega

theorem Carries.pop_none (carries : lane.Carries base []) : lane.pop = (lane, none) := by
  unfold pop
  rw [carries.represents.pop_empty]

theorem Carries.pop_some (carries : lane.Carries base (message :: rest)) :
    lane.pop =
        ({ lane with ring := lane.ring.pop.1, received := lane.received ++ [message] },
          some message) ∧
      lane.pop.1.Carries (base + encodedSize message) rest := by
  obtain ⟨represents, balance, order⟩ := carries
  obtain ⟨popped, shrunk⟩ := represents.pop_message
  have outcome : lane.ring.pop = (lane.ring.pop.1, some message) := Prod.ext rfl popped
  have done : lane.pop =
      ({ lane with ring := lane.ring.pop.1, received := lane.received ++ [message] },
        some message) := by
    unfold pop
    rw [outcome]
  refine ⟨done, ?_⟩
  rw [done]
  exact ⟨shrunk, by simp [balance], order⟩

theorem push_offered (lane : Lane) (batch : Bool) : (lane.push batch).offered = lane.offered := by
  unfold push
  split
  · rfl
  · split
    · rfl
    · split
      · rfl
      · split
        · rfl
        · rfl

theorem push_batch_dropped (lost : lane.dropped < (lane.push true).dropped) :
    (lane.push true).remaining = [] := by
  unfold push at lost ⊢
  split
  · rename_i idle
    exact idle
  · rename_i message rest next
    rw [next] at lost
    dsimp only at lost
    split
    · rename_i ring pushed
      rw [pushed] at lost
      exact absurd lost (Nat.lt_irrefl _)
    · rename_i ring refused
      rw [refused] at lost
      dsimp only at lost
      split
      · rename_i again
        rw [if_pos again] at lost
        exact absurd lost (Nat.lt_irrefl _)
      · rfl

theorem push_received (lane : Lane) (batch : Bool) :
    (lane.push batch).received = lane.received := by
  unfold push
  split
  · rfl
  · split
    · rfl
    · split
      · rfl
      · split
        · rfl
        · rfl

theorem pop_rest (lane : Lane) :
    lane.pop.1.offered = lane.offered ∧ lane.pop.1.accepted = lane.accepted ∧
      lane.pop.1.remaining = lane.remaining ∧ lane.pop.1.dropped = lane.dropped := by
  unfold pop
  split
  · exact ⟨rfl, rfl, rfl, rfl⟩
  · exact ⟨rfl, rfl, rfl, rfl⟩

end Lane

end LeanAntenna
