import Antenna.Library.Transition
import Mathlib.Logic.Function.Basic

/-!
`antenna_create` and `antenna_destroy` over the process-global `LIVE_HANDLE`. One step is a critical
section of its mutex, the building of a context with its worker, or the joining of a worker.
-/

namespace LeanAntenna

/-- Where a thread stands inside a call. A create that found the slot empty has let go of the lock
when it builds, and a destroy when it joins. -/
inductive HandleCall where
  | idle
  | building
  | built (handle : Nat)
  | joining (handle : Nat)
deriving DecidableEq, Repr

/-- A process that embeds Antenna. Handles are numbered as they are built; `returned`, `destroyed`
and `stale` record what the calls have handed out, taken back, and handed out after that. -/
structure Embedding where
  liveHandle : Option Nat
  calls : Nat → HandleCall
  contexts : List Nat
  next : Nat
  returned : List Nat
  destroyed : List Nat
  stale : List Nat

inductive HandleAction where
  | create (thread : Nat)
  | build (thread : Nat)
  | fail (thread : Nat)
  | publish (thread : Nat)
  | destroy (thread handle : Nat)
  | join (thread : Nat)
  | panic (handle : Nat)
deriving DecidableEq, Repr

namespace Embedding

def start : Embedding := ⟨none, fun _ => .idle, [], 0, [], [], []⟩

def setCall (embedding : Embedding) (thread : Nat) (call : HandleCall) : Embedding :=
  { embedding with calls := Function.update embedding.calls thread call }

@[simp] theorem setCall_self (embedding : Embedding) (thread : Nat) (call : HandleCall) :
    (embedding.setCall thread call).calls thread = call := Function.update_self ..

theorem setCall_ne (embedding : Embedding) {thread other : Nat} (call : HandleCall)
    (apart : other ≠ thread) :
    (embedding.setCall thread call).calls other = embedding.calls other :=
  Function.update_of_ne apart ..

/-- A create call returns the handle. -/
def give (embedding : Embedding) (handle : Nat) : Embedding :=
  { embedding with
    returned := embedding.returned ++ [handle]
    stale := if handle ∈ embedding.destroyed then embedding.stale ++ [handle]
      else embedding.stale }

/-- The first critical section of `antenna_create`: a live handle is returned again. -/
def create (embedding : Embedding) (thread : Nat) : Option Embedding :=
  match embedding.calls thread with
  | .idle =>
      match embedding.liveHandle with
      | some handle => some (embedding.give handle)
      | none => some (embedding.setCall thread .building)
  | _ => none

/-- The context and its worker come up, unless `carrier_new` refuses a second instance. -/
def build (refuses : Bool) (embedding : Embedding) (thread : Nat) : Option Embedding :=
  match embedding.calls thread with
  | .building =>
      if refuses = true ∧ embedding.contexts ≠ [] then some (embedding.setCall thread .idle)
      else some { embedding.setCall thread (.built embedding.next) with
        contexts := embedding.next :: embedding.contexts
        next := embedding.next + 1 }
  | _ => none

/-- Anything else that fails while the context is built makes the call return null. -/
def fail (embedding : Embedding) (thread : Nat) : Option Embedding :=
  match embedding.calls thread with
  | .building => some (embedding.setCall thread .idle)
  | _ => none

def publish (embedding : Embedding) (thread : Nat) : Option Embedding :=
  match embedding.calls thread with
  | .built handle =>
      some ({ embedding.setCall thread .idle with liveHandle := some handle }.give handle)
  | _ => none

/-- `antenna_destroy` of a handle that a create returned and that was not destroyed before. -/
def destroy (embedding : Embedding) (thread handle : Nat) : Option Embedding :=
  match embedding.calls thread with
  | .idle =>
      if handle ∈ embedding.returned ∧ handle ∉ embedding.destroyed then
        some { embedding.setCall thread (.joining handle) with
          liveHandle := if embedding.liveHandle = some handle then none else embedding.liveHandle
          destroyed := embedding.destroyed ++ [handle] }
      else none
  | _ => none

/-- The worker has stopped and its context is dropped. -/
def join (embedding : Embedding) (thread : Nat) : Option Embedding :=
  match embedding.calls thread with
  | .joining handle => some { embedding.setCall thread .idle with
      contexts := embedding.contexts.erase handle }
  | _ => none

/-- A worker that panics leaves its loop, and its context is dropped. -/
def panic (embedding : Embedding) (handle : Nat) : Option Embedding :=
  if handle ∈ embedding.contexts then
    some { embedding with contexts := embedding.contexts.erase handle }
  else none

/-- `refuses` says whether `carrier_new` gives no instance while another is live. -/
def step (refuses : Bool) (embedding : Embedding) : HandleAction → Option Embedding
  | .create thread => embedding.create thread
  | .build thread => embedding.build refuses thread
  | .fail thread => embedding.fail thread
  | .publish thread => embedding.publish thread
  | .destroy thread handle => embedding.destroy thread handle
  | .join thread => embedding.join thread
  | .panic handle => embedding.panic handle

/-- One context at most, the slot holds every handle that is out and not destroyed, and no destroyed
handle was returned. -/
structure Safe (embedding : Embedding) : Prop where
  single : embedding.contexts.length ≤ 1
  registered : ∀ handle ∈ embedding.returned, handle ∉ embedding.destroyed →
    embedding.liveHandle = some handle
  fresh : embedding.stale = []

end Embedding

end LeanAntenna
