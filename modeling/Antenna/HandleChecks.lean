import Antenna.HandleCore

/-!
When at most one Antenna is alive in a process. A create checks the slot, lets go of the lock and
builds; a destroy clears the slot before the worker has stopped.
-/

namespace LeanAntenna

open Transition

namespace Embedding

section Cases

variable {embedding next : Embedding} {thread : Nat}

theorem create_cases (done : embedding.create thread = some next) :
    (∃ handle, embedding.liveHandle = some handle ∧ next = embedding.give handle) ∨
      (embedding.liveHandle = none ∧ next = embedding.setCall thread .building) := by
  unfold create at done
  split at done
  · split at done
    · rename_i handle live
      cases done
      exact Or.inl ⟨handle, live, rfl⟩
    · rename_i empty
      cases done
      exact Or.inr ⟨empty, rfl⟩
  · cases done

theorem build_cases {refuses : Bool} (done : embedding.build refuses thread = some next) :
    embedding.calls thread = .building ∧
      ((refuses = true ∧ embedding.contexts ≠ [] ∧ next = embedding.setCall thread .idle) ∨
        (¬ (refuses = true ∧ embedding.contexts ≠ []) ∧
          next = { embedding.setCall thread (.built embedding.next) with
            contexts := embedding.next :: embedding.contexts
            next := embedding.next + 1 })) := by
  unfold build at done
  split at done
  · rename_i building
    split at done
    · rename_i refused
      cases done
      exact ⟨building, Or.inl ⟨refused.1, refused.2, rfl⟩⟩
    · rename_i admitted
      cases done
      exact ⟨building, Or.inr ⟨admitted, rfl⟩⟩
  · cases done

theorem fail_cases (done : embedding.fail thread = some next) :
    next = embedding.setCall thread .idle := by
  unfold fail at done
  split at done
  · cases done
    rfl
  · cases done

theorem publish_cases (done : embedding.publish thread = some next) :
    ∃ handle, embedding.calls thread = .built handle ∧
      next = { embedding.setCall thread .idle with liveHandle := some handle }.give handle := by
  unfold publish at done
  split at done
  · rename_i handle built
    cases done
    exact ⟨handle, built, rfl⟩
  · cases done

theorem destroy_cases {handle : Nat} (done : embedding.destroy thread handle = some next) :
    handle ∈ embedding.returned ∧ handle ∉ embedding.destroyed ∧
      next = { embedding.setCall thread (.joining handle) with
        liveHandle := if embedding.liveHandle = some handle then none else embedding.liveHandle
        destroyed := embedding.destroyed ++ [handle] } := by
  unfold destroy at done
  split at done
  · split at done
    · rename_i allowed
      cases done
      exact ⟨allowed.1, allowed.2, rfl⟩
    · cases done
  · cases done

theorem join_cases (done : embedding.join thread = some next) :
    ∃ handle, next = { embedding.setCall thread .idle with
      contexts := embedding.contexts.erase handle } := by
  unfold join at done
  split at done
  · rename_i handle _
    cases done
    exact ⟨handle, rfl⟩
  · cases done

theorem panic_cases {handle : Nat} (done : embedding.panic handle = some next) :
    next = { embedding with contexts := embedding.contexts.erase handle } := by
  unfold panic at done
  split at done
  · cases done
    rfl
  · cases done

end Cases

/-- What holds whichever way the calls overlap: a slot holds a handle that is out, handles that are
built but not published are new, and no destroyed handle is returned. -/
structure Consistent (embedding : Embedding) : Prop where
  live : ∀ handle, embedding.liveHandle = some handle →
    handle ∈ embedding.returned ∧ handle ∉ embedding.destroyed
  taken : ∀ handle ∈ embedding.destroyed, handle ∈ embedding.returned
  numbered : ∀ handle ∈ embedding.returned, handle < embedding.next
  unpublished : ∀ thread handle, embedding.calls thread = .built handle →
    handle < embedding.next ∧ handle ∉ embedding.returned
  apart : ∀ thread other handle, embedding.calls thread = .built handle →
    embedding.calls other = .built handle → thread = other
  fresh : embedding.stale = []

theorem start_consistent : start.Consistent := by
  refine ⟨?_, ?_, ?_, ?_, ?_, rfl⟩ <;> simp [start]

theorem built_of_setCall {embedding : Embedding} {thread other handle : Nat} {call : HandleCall}
    (quiet : ∀ handle, call ≠ .built handle)
    (built : (embedding.setCall thread call).calls other = .built handle) :
    other ≠ thread ∧ embedding.calls other = .built handle := by
  by_cases same : other = thread
  · subst same
    rw [setCall_self] at built
    exact absurd built (quiet handle)
  · rw [setCall_ne _ _ same] at built
    exact ⟨same, built⟩

theorem Consistent.setCall {embedding : Embedding} (consistent : embedding.Consistent) (thread : Nat)
    {call : HandleCall} (quiet : ∀ handle, call ≠ .built handle) :
    (embedding.setCall thread call).Consistent where
  live := consistent.live
  taken := consistent.taken
  numbered := consistent.numbered
  unpublished := by
    intro other handle built
    exact consistent.unpublished other handle (built_of_setCall quiet built).2
  apart := by
    intro first second handle builtFirst builtSecond
    exact consistent.apart first second handle (built_of_setCall quiet builtFirst).2
      (built_of_setCall quiet builtSecond).2
  fresh := consistent.fresh

theorem Consistent.contexts {embedding : Embedding} (consistent : embedding.Consistent)
    (contexts : List Nat) : { embedding with contexts }.Consistent :=
  ⟨consistent.live, consistent.taken, consistent.numbered, consistent.unpublished,
    consistent.apart, consistent.fresh⟩

theorem Consistent.giveLive {embedding : Embedding} (consistent : embedding.Consistent)
    {handle : Nat} (live : embedding.liveHandle = some handle) :
    (embedding.give handle).Consistent := by
  obtain ⟨known, kept⟩ := consistent.live handle live
  have same : ∀ other, other ∈ embedding.returned ++ [handle] ↔ other ∈ embedding.returned := by
    intro other
    constructor
    · intro member
      rcases List.mem_append.mp member with old | new
      · exact old
      · exact List.mem_singleton.mp new ▸ known
    · exact fun member => List.mem_append_left _ member
  refine ⟨?_, ?_, ?_, ?_, consistent.apart, ?_⟩
  · intro other held
    exact ⟨(same other).mpr (consistent.live other held).1, (consistent.live other held).2⟩
  · intro other member
    exact (same other).mpr (consistent.taken other member)
  · intro other member
    exact consistent.numbered other ((same other).mp member)
  · intro thread other built
    have facts := consistent.unpublished thread other built
    exact ⟨facts.1, fun member => facts.2 ((same other).mp member)⟩
  · rw [give, if_neg kept]
    exact consistent.fresh

theorem Consistent.build {embedding : Embedding} (consistent : embedding.Consistent) (thread : Nat) :
    { embedding.setCall thread (.built embedding.next) with
      contexts := embedding.next :: embedding.contexts
      next := embedding.next + 1 }.Consistent := by
  have calls : ∀ other handle,
      (embedding.setCall thread (.built embedding.next)).calls other = .built handle →
        (other = thread ∧ handle = embedding.next) ∨
          (other ≠ thread ∧ embedding.calls other = .built handle) := by
    intro other handle built
    by_cases same : other = thread
    · subst same
      rw [setCall_self] at built
      exact Or.inl ⟨rfl, (HandleCall.built.inj built).symm⟩
    · rw [setCall_ne _ _ same] at built
      exact Or.inr ⟨same, built⟩
  refine ⟨consistent.live, consistent.taken, ?_, ?_, ?_, consistent.fresh⟩
  · intro handle member
    exact Nat.lt_succ_of_lt (consistent.numbered handle member)
  · intro other handle built
    rcases calls other handle built with ⟨-, rfl⟩ | ⟨-, old⟩
    · exact ⟨Nat.lt_succ_self _, fun member =>
        Nat.lt_irrefl _ (consistent.numbered _ member)⟩
    · have facts := consistent.unpublished other handle old
      exact ⟨Nat.lt_succ_of_lt facts.1, facts.2⟩
  · intro first second handle builtFirst builtSecond
    rcases calls first handle builtFirst with ⟨rfl, rfl⟩ | ⟨-, oldFirst⟩
    · rcases calls second _ builtSecond with ⟨rfl, -⟩ | ⟨-, old⟩
      · rfl
      · exact absurd (consistent.unpublished second _ old).1 (Nat.lt_irrefl _)
    · rcases calls second handle builtSecond with ⟨-, rfl⟩ | ⟨-, oldSecond⟩
      · exact absurd (consistent.unpublished first _ oldFirst).1 (Nat.lt_irrefl _)
      · exact consistent.apart first second handle oldFirst oldSecond

theorem Consistent.publish {embedding : Embedding} (consistent : embedding.Consistent)
    {thread handle : Nat} (built : embedding.calls thread = .built handle) :
    ({ embedding.setCall thread .idle with liveHandle := some handle }.give handle).Consistent := by
  obtain ⟨below, new⟩ := consistent.unpublished thread handle built
  have kept : handle ∉ embedding.destroyed := fun member => new (consistent.taken handle member)
  have quiet : ∀ other, HandleCall.idle ≠ .built other := fun _ same => by cases same
  refine ⟨?_, ?_, ?_, ?_, ?_, ?_⟩
  · intro other live
    cases live
    exact ⟨List.mem_append_right _ (List.mem_singleton.mpr rfl), kept⟩
  · intro other member
    exact List.mem_append_left _ (consistent.taken other member)
  · intro other member
    rcases List.mem_append.mp member with old | same
    · exact consistent.numbered other old
    · exact List.mem_singleton.mp same ▸ below
  · intro other number held
    obtain ⟨apart, old⟩ := built_of_setCall quiet held
    have facts := consistent.unpublished other number old
    refine ⟨facts.1, ?_⟩
    intro member
    rcases List.mem_append.mp member with known | same
    · exact facts.2 known
    · rw [List.mem_singleton.mp same] at old
      exact apart (consistent.apart other thread handle old built)
  · intro first second number builtFirst builtSecond
    exact consistent.apart first second number (built_of_setCall quiet builtFirst).2
      (built_of_setCall quiet builtSecond).2
  · have none : handle ∉ { embedding.setCall thread .idle with
        liveHandle := some handle }.destroyed := kept
    rw [give, if_neg none]
    exact consistent.fresh

theorem Consistent.destroy {embedding : Embedding} (consistent : embedding.Consistent)
    {thread handle : Nat} (known : handle ∈ embedding.returned) :
    { embedding.setCall thread (.joining handle) with
      liveHandle := if embedding.liveHandle = some handle then none else embedding.liveHandle
      destroyed := embedding.destroyed ++ [handle] }.Consistent := by
  have quiet : ∀ other, HandleCall.joining handle ≠ .built other := fun _ same => by cases same
  obtain ⟨live, taken, numbered, unpublished, apart, fresh⟩ := consistent.setCall thread quiet
  refine ⟨?_, ?_, numbered, unpublished, apart, fresh⟩
  · intro other held
    by_cases own : embedding.liveHandle = some handle
    · simp [own] at held
    · rw [if_neg own] at held
      have facts := live other held
      refine ⟨facts.1, ?_⟩
      intro member
      rcases List.mem_append.mp member with old | same
      · exact facts.2 old
      · rw [List.mem_singleton.mp same] at held
        exact own held
  · intro other member
    rcases List.mem_append.mp member with old | same
    · exact taken other old
    · exact List.mem_singleton.mp same ▸ known

theorem step_consistent {refuses : Bool} {embedding next : Embedding} {action : HandleAction}
    (consistent : embedding.Consistent) (stepped : step refuses embedding action = some next) :
    next.Consistent := by
  have idle : ∀ handle, HandleCall.idle ≠ .built handle := fun _ same => by cases same
  cases action with
  | create thread =>
      rcases create_cases stepped with ⟨handle, live, rfl⟩ | ⟨-, rfl⟩
      · exact consistent.giveLive live
      · exact consistent.setCall thread fun _ same => by cases same
  | build thread =>
      obtain ⟨-, ⟨-, -, rfl⟩ | ⟨-, rfl⟩⟩ := build_cases stepped
      · exact consistent.setCall thread idle
      · exact consistent.build thread
  | fail thread =>
      rw [fail_cases stepped]
      exact consistent.setCall thread idle
  | publish thread =>
      obtain ⟨handle, built, rfl⟩ := publish_cases stepped
      exact consistent.publish built
  | destroy thread handle =>
      obtain ⟨known, -, rfl⟩ := destroy_cases stepped
      exact consistent.destroy known
  | join thread =>
      obtain ⟨handle, rfl⟩ := join_cases stepped
      exact (consistent.setCall thread idle).contexts _
  | panic handle =>
      rw [panic_cases stepped]
      exact consistent.contexts _

/-- Where no step must be taken: a context is built while another exists, or a handle is published
over one that is live. -/
def Exclusive (refuses : Bool) (embedding : Embedding) : HandleAction → Prop
  | .build thread => embedding.calls thread = .building →
      refuses = true ∨ embedding.contexts = []
  | .publish thread => (∃ handle, embedding.calls thread = .built handle) →
      embedding.liveHandle = none
  | _ => True

theorem start_safe : start.Safe := by
  refine ⟨?_, ?_, rfl⟩ <;> simp [start]

theorem Safe.setCall {embedding : Embedding} (safe : embedding.Safe) (thread : Nat)
    (call : HandleCall) : (embedding.setCall thread call).Safe :=
  ⟨safe.single, safe.registered, safe.fresh⟩

theorem Safe.erase {embedding : Embedding} (safe : embedding.Safe) (handle : Nat) :
    { embedding with contexts := embedding.contexts.erase handle }.Safe :=
  ⟨Nat.le_trans (List.erase_sublist).length_le safe.single, safe.registered, safe.fresh⟩

theorem Safe.giveLive {embedding : Embedding} (safe : embedding.Safe)
    (consistent : embedding.Consistent) {handle : Nat}
    (live : embedding.liveHandle = some handle) : (embedding.give handle).Safe := by
  refine ⟨safe.single, ?_, (consistent.giveLive live).fresh⟩
  intro other member kept
  rcases List.mem_append.mp member with old | new
  · exact safe.registered other old kept
  · exact List.mem_singleton.mp new ▸ live

theorem Safe.destroy {embedding : Embedding} (safe : embedding.Safe) (thread handle : Nat) :
    { embedding.setCall thread (.joining handle) with
      liveHandle := if embedding.liveHandle = some handle then none else embedding.liveHandle
      destroyed := embedding.destroyed ++ [handle] }.Safe := by
  refine ⟨safe.single, ?_, safe.fresh⟩
  intro other member kept
  have live := safe.registered other member fun old => kept (List.mem_append_left _ old)
  have apart : other ≠ handle := by
    rintro rfl
    exact kept (List.mem_append_right _ (List.mem_singleton.mpr rfl))
  have different : embedding.liveHandle ≠ some handle := by
    rw [live]
    simpa using apart
  rw [if_neg different]
  exact live

theorem build_safe_iff {refuses : Bool} {embedding next : Embedding} {thread : Nat}
    (safe : embedding.Safe) (stepped : embedding.build refuses thread = some next) :
    next.Safe ↔ Exclusive refuses embedding (.build thread) := by
  obtain ⟨building, ⟨refused, -, rfl⟩ | ⟨admitted, rfl⟩⟩ := build_cases stepped
  · exact iff_of_true (safe.setCall thread _) fun _ => Or.inl refused
  · constructor
    · intro both _
      have single := both.single
      simp only [List.length_cons] at single
      exact Or.inr (List.length_eq_zero_iff.mp (by omega))
    · intro alone
      have none : embedding.contexts = [] := by
        rcases alone building with refused | none
        · by_contra other
          exact admitted ⟨refused, other⟩
        · exact none
      exact ⟨by simp [none], safe.registered, safe.fresh⟩

theorem publish_safe_iff {refuses : Bool} {embedding next : Embedding} {thread : Nat}
    (consistent : embedding.Consistent) (safe : embedding.Safe)
    (stepped : embedding.publish thread = some next) :
    next.Safe ↔ Exclusive refuses embedding (.publish thread) := by
  obtain ⟨handle, built, rfl⟩ := publish_cases stepped
  have new := (consistent.unpublished thread handle built).2
  constructor
  · rintro ⟨-, registered, -⟩ -
    cases live : embedding.liveHandle with
    | none => rfl
    | some other =>
        obtain ⟨known, kept⟩ := consistent.live other live
        have same := registered other (List.mem_append_left _ known) kept
        cases same
        exact absurd known new
  · intro alone
    have empty := alone ⟨handle, built⟩
    refine ⟨safe.single, ?_, (consistent.publish built).fresh⟩
    intro other member kept
    rcases List.mem_append.mp member with old | same
    · have live := safe.registered other old kept
      rw [empty] at live
      cases live
    · rw [List.mem_singleton.mp same]
      rfl

/-- A step keeps the embedding safe exactly if it is exclusive. -/
theorem step_safe_iff {refuses : Bool} {embedding next : Embedding} {action : HandleAction}
    (consistent : embedding.Consistent) (safe : embedding.Safe)
    (stepped : step refuses embedding action = some next) :
    next.Safe ↔ Exclusive refuses embedding action := by
  cases action with
  | create thread =>
      apply iff_of_true _ trivial
      rcases create_cases stepped with ⟨handle, live, rfl⟩ | ⟨-, rfl⟩
      · exact safe.giveLive consistent live
      · exact safe.setCall thread _
  | build thread => exact build_safe_iff safe stepped
  | fail thread =>
      rw [fail_cases stepped]
      exact iff_of_true (safe.setCall thread _) trivial
  | publish thread => exact publish_safe_iff consistent safe stepped
  | destroy thread handle =>
      obtain ⟨-, -, rfl⟩ := destroy_cases stepped
      exact iff_of_true (safe.destroy thread handle) trivial
  | join thread =>
      obtain ⟨handle, rfl⟩ := join_cases stepped
      exact iff_of_true ((safe.setCall thread _).erase handle) trivial
  | panic handle =>
      rw [panic_cases stepped]
      exact iff_of_true (safe.erase handle) trivial

theorem exclusive_of_idle {refuses : Bool} {embedding : Embedding} {action : HandleAction}
    (idle : step refuses embedding action = none) : Exclusive refuses embedding action := by
  cases action with
  | build thread =>
      intro building
      simp only [step, build, building] at idle
      split at idle <;> cases idle
  | publish thread =>
      rintro ⟨handle, built⟩
      simp [step, publish, built] at idle
  | _ => trivial

/-- At every moment one context at most exists, the slot holds every handle that is out, and no
destroyed handle is returned, exactly if no context is built beside another and no handle is
published over a live one. -/
theorem live_handle_safe_iff (refuses : Bool) (actions : List HandleAction) :
    (∀ taken, taken <+: actions → ∀ embedding,
      runSteps (step refuses) start taken = some embedding → embedding.Safe) ↔
        StepsMeet (step refuses) (Exclusive refuses) start actions :=
  forall_prefix_iff_stepsMeet Consistent (fun _ _ _ => step_consistent) (fun _ _ _ => step_safe_iff)
    (fun _ _ => exclusive_of_idle) start_consistent start_safe

/-- Two creates find the slot empty and both build. If the second `carrier_new` is refused, it is
enough that the first worker panics in between: its live handle is overwritten. -/
theorem overlapping_creates_unsafe :
    (∃ embedding, runSteps (step false) start [.create 0, .create 1, .build 0, .build 1] =
      some embedding ∧ embedding.contexts = [1, 0]) ∧
    ∃ embedding, runSteps (step true) start [.create 0, .create 1, .build 0, .publish 0, .panic 0,
        .build 1, .publish 1] = some embedding ∧
      0 ∈ embedding.returned ∧ 0 ∉ embedding.destroyed ∧ embedding.liveHandle = some 1 := by
  refine ⟨⟨_, rfl, rfl⟩, ⟨_, rfl, ?_⟩⟩
  decide

end Embedding

end LeanAntenna
