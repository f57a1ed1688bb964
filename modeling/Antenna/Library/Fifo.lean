import Mathlib.Algebra.GroupWithZero.Nat

/-! A first-in first-out queue of sized messages that holds at most `capacity` units at a time. -/

/-- What has left the queue and what is still in it: the returned messages are a prefix of the
accepted ones by construction. -/
structure Fifo (Message : Type) where
  returned : List Message
  pending : List Message
deriving Repr, DecidableEq

namespace Fifo

variable {Message : Type}

def empty : Fifo Message := { returned := [], pending := [] }

/-- Every message the queue ever took, in order. -/
def accepted (queue : Fifo Message) : List Message := queue.returned ++ queue.pending

def load (size : Message → Nat) (queue : Fifo Message) : Nat := (queue.pending.map size).sum

inductive Move (Message : Type) where
  | accept (message : Message)
  | deliver

def step (size : Message → Nat) (capacity : Nat) (queue : Fifo Message) :
    Move Message → Option (Fifo Message)
  | .accept message =>
      if size message ≤ capacity - queue.load size then
        some { queue with pending := queue.pending ++ [message] }
      else none
  | .deliver =>
      match queue.pending with
      | [] => none
      | message :: rest => some { returned := queue.returned ++ [message], pending := rest }

theorem returned_prefix (queue : Fifo Message) : queue.returned <+: queue.accepted :=
  List.prefix_append _ _

theorem accepted_drop (queue : Fifo Message) :
    queue.accepted.drop queue.returned.length = queue.pending := by
  simp [accepted]

end Fifo
