import Antenna.PlatformCore

/-!
When the responses of the platform reach the requests they answer. A call takes whatever stands at
the front of the shared channel, and looks for its id anywhere in the text.
-/

namespace LeanAntenna

open Text Transition

namespace PlatformChannels

/-- A call that receives finds its own response in front, or one that neither mentions its id nor
answers a request that waits. -/
def Orderly (state : PlatformChannels) : PlatformAction → Prop
  | .receive backend => ∀ own, state.awaited backend = some own →
      ∀ response rest, state.responses = response :: rest →
        response.requestId = own ∨
          (¬ own <:+: response.turtle ∧ ¬ state.Awaits response.requestId)
  | _ => True

theorem complete_records {state next : PlatformChannels} {backend millis : Nat}
    {request : LlmRequest} (done : state.complete backend millis request = some next) :
    next.completed = state.completed ∧ next.lost = state.lost := by
  unfold complete at done
  split at done
  · cases done
  · cases done
    exact ⟨rfl, rfl⟩

theorem respond_records {state next : PlatformChannels} {response : LlmResponse}
    (done : state.respond response = some next) :
    next.completed = state.completed ∧ next.lost = state.lost := by
  unfold respond at done
  split at done
  · cases done
    exact ⟨rfl, rfl⟩
  · cases done

theorem timeout_records {state next : PlatformChannels} {backend : Nat}
    (done : state.timeout backend = some next) :
    next.completed = state.completed ∧ next.lost = state.lost := by
  unfold timeout at done
  split at done
  · cases done
    exact ⟨rfl, rfl⟩
  · cases done

/-- A receive returns with the response in front, or discards it. -/
theorem receive_cases {state next : PlatformChannels} {backend : Nat}
    (done : state.receive backend = some next) :
    ∃ own response rest, state.awaited backend = some own ∧ state.responses = response :: rest ∧
      ((own <:+: response.turtle ∧ next.lost = state.lost ∧ next.completed = state.completed ++
          [⟨own, response, extractTurtleCompletion response.turtle⟩]) ∨
        (¬ own <:+: response.turtle ∧ next.completed = state.completed ∧
          next.lost = if state.Awaits response.requestId then state.lost ++ [response]
            else state.lost)) := by
  unfold receive at done
  split at done
  · rename_i own response rest awaited front
    refine ⟨own, response, rest, awaited, front, ?_⟩
    split at done
    · rename_i found
      cases done
      exact Or.inl ⟨contains_iff.mp found, rfl, rfl⟩
    · rename_i missing
      cases done
      exact Or.inr ⟨mt contains_iff.mpr missing, rfl, rfl⟩
  · cases done

theorem start_faithful : start.Faithful := ⟨by simp [start], rfl⟩

theorem Faithful.of_records {state next : PlatformChannels} (faithful : state.Faithful)
    (records : next.completed = state.completed ∧ next.lost = state.lost) : next.Faithful := by
  obtain ⟨completed, lost⟩ := records
  exact ⟨by rw [completed]; exact faithful.own, by rw [lost]; exact faithful.kept⟩

theorem receive_faithful_iff {state next : PlatformChannels} {backend : Nat}
    (faithful : state.Faithful) (done : state.receive backend = some next) :
    next.Faithful ↔ state.Orderly (.receive backend) := by
  obtain ⟨own, response, rest, awaited, front, outcome⟩ := receive_cases done
  have orderly : state.Orderly (.receive backend) ↔ response.requestId = own ∨
      (¬ own <:+: response.turtle ∧ ¬ state.Awaits response.requestId) := by
    constructor
    · intro holds
      exact holds own awaited response rest front
    · intro holds other waits first later present
      rw [awaited] at waits
      rw [front] at present
      cases waits
      cases present
      exact holds
  rw [orderly]
  rcases outcome with ⟨found, lost, completed⟩ | ⟨missing, completed, lost⟩
  · constructor
    · intro after
      exact Or.inl (after.own _ (by rw [completed]; exact List.mem_append_right _ List.mem_cons_self))
    · rintro (same | ⟨absent, -⟩)
      · refine ⟨?_, by rw [lost]; exact faithful.kept⟩
        intro call member
        rw [completed] at member
        rcases List.mem_append.mp member with old | new
        · exact faithful.own call old
        · rw [List.mem_singleton.mp new]
          exact same
      · exact absurd found absent
  · -- The response names its own request, so it does not answer the call that missed its id.
    have other : response.requestId ≠ own := by
      rintro rfl
      exact missing response.names
    rw [or_iff_right other, and_iff_right missing]
    constructor
    · intro after waits
      have kept := after.kept
      rw [lost, if_pos waits] at kept
      simp at kept
    · intro gone
      exact faithful.of_records ⟨completed, by rw [lost, if_neg gone]⟩

theorem step_faithful_iff {state next : PlatformChannels} {action : PlatformAction}
    (faithful : state.Faithful) (stepped : step state action = some next) :
    next.Faithful ↔ state.Orderly action := by
  cases action with
  | complete backend millis request =>
      exact iff_of_true (faithful.of_records (complete_records stepped)) trivial
  | respond response => exact iff_of_true (faithful.of_records (respond_records stepped)) trivial
  | receive backend => exact receive_faithful_iff faithful stepped
  | timeout backend => exact iff_of_true (faithful.of_records (timeout_records stepped)) trivial

theorem orderly_of_idle {state : PlatformChannels} {action : PlatformAction}
    (idle : step state action = none) : state.Orderly action := by
  cases action with
  | receive backend =>
      intro own awaited response rest front
      simp only [step, receive, awaited, front] at idle
      split at idle <;> cases idle
  | _ => trivial

/-- In any number of calls over the shared channel each returns the answer to its own request, and no
awaited response is discarded, exactly if every receive is orderly. -/
theorem responses_faithful_iff (actions : List PlatformAction) :
    (∀ taken, taken <+: actions → ∀ state, runSteps step start taken = some state →
      state.Faithful) ↔ StepsMeet step Orderly start actions :=
  forall_prefix_iff_stepsMeet (fun _ => True) (fun _ _ _ _ _ => trivial)
    (fun _ _ _ _ => step_faithful_iff) (fun _ _ => orderly_of_idle) trivial start_faithful

def anyRequest : LlmRequest := ⟨"m".toList, "s".toList, "u".toList, 512⟩

/-- An answer to the first request whose completion quotes the id of the second. -/
def quotingResponse : LlmResponse :=
  ⟨"5-1".toList, "antenna:requestId \"5-1\" ; antenna:completion \"not 5-2\"".toList, by decide⟩

def plainResponse : LlmResponse :=
  ⟨"5-1".toList, "antenna:requestId \"5-1\" ; antenna:completion \"yes\"".toList, by decide⟩

/-- The second of two calls that wait receives first: it discards the answer to the first, or returns
it as its own. -/
theorem responses_mixed_up :
    (∃ state, runSteps step start [.complete 0 5 anyRequest, .complete 1 5 anyRequest,
        .respond plainResponse, .receive 1] = some state ∧ state.lost = [plainResponse] ∧
      state.Awaits plainResponse.requestId) ∧
    ∃ state, runSteps step start [.complete 0 5 anyRequest, .complete 1 5 anyRequest,
        .respond quotingResponse, .receive 1] = some state ∧
      state.completed.map (fun call => (call.requestId, call.response)) =
        [("5-2".toList, quotingResponse)] := by
  refine ⟨⟨_, rfl, ?_, ?_⟩, ⟨_, rfl, ?_⟩⟩
  · decide
  · decide
  · decide

end PlatformChannels

end LeanAntenna
