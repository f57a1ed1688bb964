import Antenna.AutoExport
import Antenna.EmbeddedRuns
import Antenna.EscapeFraming
import Antenna.ReplyChecks

/-!
What an embedder can rely on after a panic of the worker, and what it reads as the account id while the
worker runs.
-/

namespace LeanAntenna

open Text Replay Transition Turtle

section Document

end Document

namespace AntennaHandle

variable {Store Carrier : Type} {host : Host Store Carrier} {debugPanic : Bool}
  {start : Context Store Carrier} {handle mid next final : AntennaHandle Store Carrier}

section Panic

theorem stopped_cases {action : HandleStep Carrier} (stopped : handle.stage = .stopped)
    (out : handle.output.remaining = [])
    (stepped : handle.step host debugPanic action = some next) :
    (handle.sending = false ∧ ∃ args, next = handle.send args) ∨
      (handle.sending = true ∧ next = handle.attempt) ∨
      (∃ handleNull cbNull, next = handle.drain handleNull cbNull) ∨
      (∃ count, next = handle.deliver count) ∨ next = { handle with done := true } := by
  cases action with
  | send args =>
      simp only [step] at stepped
      split at stepped
      · cases stepped
      · rename_i free
        cases stepped
        exact Or.inl ⟨by simpa using free, args, rfl⟩
  | attempt =>
      simp only [step] at stepped
      split at stepped
      · rename_i busy
        cases stepped
        exact Or.inr (Or.inl ⟨busy, rfl⟩)
      · cases stepped
  | drain handleNull cbNull =>
      simp only [step] at stepped
      split at stepped
      · cases stepped
        exact Or.inr (Or.inr (Or.inl ⟨handleNull, cbNull, rfl⟩))
      · cases stepped
  | deliver =>
      obtain ⟨count, _, rfl⟩ := Option.map_eq_some_iff.mp stepped
      exact Or.inr (Or.inr (Or.inr (Or.inl ⟨count, rfl⟩)))
  | destroy =>
      cases stepped
      exact Or.inr (Or.inr (Or.inr (Or.inr rfl)))
  | write =>
      simp [step, out] at stepped
  | _ =>
      simp [step, Ready, tickStages, stopped] at stepped

variable (host) in
/-- What a step does to the worker: at most one activity, and the flag is raised only by the worker
that stops with nothing left to send. -/
structure Worked (handle next : AntennaHandle Store Carrier) : Prop where
  worker : (next.context = handle.context ∧ next.performed = handle.performed) ∨
    ∃ activity, next.context = handle.context.perform host activity ∧
      next.performed = handle.performed ++ [activity]
  flag : next.poisoned = handle.poisoned ∨ (next.stage = .stopped ∧ next.output.remaining = [])

theorem worked_perform (handle : AntennaHandle Store Carrier) (activity : Activity Carrier)
    (stage : WorkerStage) : Worked host handle (handle.perform host activity stage) :=
  ⟨Or.inr ⟨activity, rfl, rfl⟩, Or.inl rfl⟩

theorem step_worked {action : HandleStep Carrier}
    (stepped : handle.step host debugPanic action = some next) : Worked host handle next := by
  cases action with
  | send args =>
      simp only [step] at stepped
      split at stepped
      · cases stepped
      · cases stepped
        unfold AntennaHandle.send
        split
        · exact ⟨Or.inl ⟨rfl, rfl⟩, Or.inl rfl⟩
        · exact ⟨Or.inl ⟨rfl, rfl⟩, Or.inl rfl⟩
  | attempt =>
      simp only [step] at stepped
      split at stepped
      · cases stepped
        unfold AntennaHandle.attempt
        dsimp only
        split
        · exact ⟨Or.inl ⟨rfl, rfl⟩, Or.inl rfl⟩
        · split
          · exact ⟨Or.inl ⟨rfl, rfl⟩, Or.inl rfl⟩
          · exact ⟨Or.inl ⟨rfl, rfl⟩, Or.inl rfl⟩
      · cases stepped
  | drain handleNull cbNull =>
      simp only [step] at stepped
      split at stepped
      · cases stepped
        unfold AntennaHandle.drain
        split
        · exact ⟨Or.inl ⟨rfl, rfl⟩, Or.inl rfl⟩
        · split
          · exact ⟨Or.inl ⟨rfl, rfl⟩, Or.inl rfl⟩
          · exact ⟨Or.inl ⟨rfl, rfl⟩, Or.inl rfl⟩
      · cases stepped
  | deliver =>
      obtain ⟨count, _, rfl⟩ := Option.map_eq_some_iff.mp stepped
      unfold AntennaHandle.deliver
      split
      · exact ⟨Or.inl ⟨rfl, rfl⟩, Or.inl rfl⟩
      · exact ⟨Or.inl ⟨rfl, rfl⟩, Or.inl rfl⟩
  | destroy =>
      cases stepped
      exact ⟨Or.inl ⟨rfl, rfl⟩, Or.inl rfl⟩
  | receive =>
      simp only [step] at stepped
      split at stepped
      · cases stepped
        unfold AntennaHandle.receive
        split
        · exact ⟨Or.inl ⟨rfl, rfl⟩, Or.inl rfl⟩
        · dsimp only
          split
          · exact ⟨Or.inl ⟨rfl, rfl⟩, Or.inl rfl⟩
          · rename_i input data _ _
            exact ⟨Or.inr ⟨.line (Utf8.lossy data), rfl, rfl⟩, Or.inl rfl⟩
      · cases stepped
  | write =>
      simp only [step] at stepped
      split at stepped
      · cases stepped
      · cases stepped
        exact ⟨Or.inl ⟨rfl, rfl⟩, Or.inl rfl⟩
  | stop =>
      simp only [step] at stepped
      split at stepped
      · rename_i ready
        cases stepped
        exact ⟨Or.inl ⟨rfl, rfl⟩, Or.inr ⟨rfl, ready.2⟩⟩
      · cases stepped
  | poll | finish | panic =>
      simp only [step] at stepped
      split at stepped
      · cases stepped
        exact ⟨Or.inl ⟨rfl, rfl⟩, Or.inl rfl⟩
      · cases stepped
  | startup | bootstrap | iterate | event | query | emit =>
      simp only [step] at stepped
      split at stepped
      · cases stepped
        exact worked_perform handle _ _
      · cases stepped

theorem batch_poisoned (args : SendArgs) :
    args.batch true = .error (-1) ∨ args.batch true = .error (-4) := by
  unfold SendArgs.batch
  split
  · exact Or.inl rfl
  · exact Or.inr rfl

/-- What a panic leaves for good: the worker does and sends nothing more, what it placed can still be
drained, and apart from a call that was under way every send is refused and leaves the input as it
is. -/
structure PastPanic (mid handle : AntennaHandle Store Carrier) : Prop where
  poisoned : handle.poisoned = true
  halted : handle.stage = .stopped ∧ handle.output.remaining = []
  worker : handle.context = mid.context ∧ handle.performed = mid.performed
  placed : handle.output.accepted = mid.output.accepted
  calls : ∃ finished refused, handle.sends = mid.sends ++ (finished ++ refused) ∧
    (∀ code ∈ refused, code = -1 ∨ code = -4) ∧ finished.length ≤ 1 ∧
    (handle.sending = true → mid.sending = true ∧ finished = [] ∧ refused = []) ∧
    (mid.sending = false → finished = [] ∧ handle.input = mid.input)

theorem send_refused (poisoned : handle.poisoned = true) (args : SendArgs) :
    ∃ code, (code = -1 ∨ code = -4) ∧
      handle.send args = { handle with sends := handle.sends ++ [code] } := by
  unfold AntennaHandle.send
  rw [poisoned]
  rcases batch_poisoned args with refused | refused
  · rw [refused]
    exact ⟨-1, Or.inl rfl, rfl⟩
  · rw [refused]
    exact ⟨-4, Or.inr rfl, rfl⟩

theorem PastPanic.send (past : PastPanic mid handle) (free : handle.sending = false)
    (args : SendArgs) : PastPanic mid (handle.send args) := by
  obtain ⟨code, refusal, refused⟩ := send_refused past.poisoned args
  obtain ⟨finished, codes, sends, all, single, busy, idle⟩ := past.calls
  rw [refused]
  refine { past with calls := ⟨finished, codes ++ [code], ?_, ?_, single, ?_, idle⟩ }
  · simp only [sends, List.append_assoc]
  · intro other member
    rcases List.mem_append.mp member with earlier | last
    · exact all other earlier
    · rw [List.mem_singleton.mp last]
      exact refusal
  · intro sending
    exact absurd (free.symm.trans sending) (by decide)

/-- The call that was under way may still place lines, and returns once. -/
theorem PastPanic.attempt (past : PastPanic mid handle) (busy : handle.sending = true) :
    PastPanic mid handle.attempt := by
  obtain ⟨finished, codes, sends, all, single, under, idle⟩ := past.calls
  obtain ⟨began, rfl, rfl⟩ := under busy
  rw [List.append_nil, List.append_nil] at sends
  have never : mid.sending ≠ false := by
    rw [began]
    decide
  have returned : ∀ code : Int, ∃ finished refused, handle.sends ++ [code] =
      mid.sends ++ (finished ++ refused) ∧ (∀ code ∈ refused, code = -1 ∨ code = -4) ∧
      finished.length ≤ 1 ∧ (false = true → mid.sending = true ∧ finished = [] ∧ refused = []) ∧
      (mid.sending = false → finished = [] ∧ (handle.input.push true) = mid.input) := by
    intro code
    refine ⟨[code], [], ?_, by simp, by simp, nofun, fun free => absurd free never⟩
    rw [sends, List.append_nil]
  unfold AntennaHandle.attempt
  dsimp only
  split
  · obtain ⟨finished, refused, split, rest⟩ := returned 0
    exact { past with calls := ⟨finished, refused, split, rest.1, rest.2.1, rest.2.2.1,
      fun free => absurd free never⟩ }
  · split
    · exact { past with calls := returned (-3) }
    · exact { past with calls := ⟨[], [], by simp [sends], by simp, by simp,
        fun _ => ⟨began, rfl, rfl⟩, fun free => absurd free never⟩ }

theorem PastPanic.deliver (past : PastPanic mid handle) (count : Nat) :
    PastPanic mid (handle.deliver count) := by
  obtain ⟨-, accepted, remaining, -⟩ := Lane.pop_rest handle.output
  unfold AntennaHandle.deliver
  split
  · rename_i output data popped
    rw [popped] at accepted remaining
    exact { past with
      halted := ⟨past.halted.1, remaining.trans past.halted.2⟩
      placed := accepted.trans past.placed }
  · rename_i output popped
    rw [popped] at accepted remaining
    exact { past with
      halted := ⟨past.halted.1, remaining.trans past.halted.2⟩
      placed := accepted.trans past.placed }

theorem PastPanic.step {action : HandleStep Carrier} (past : PastPanic mid handle)
    (stepped : handle.step host debugPanic action = some next) : PastPanic mid next := by
  rcases stopped_cases past.halted.1 past.halted.2 stepped with
    ⟨free, args, rfl⟩ | ⟨busy, rfl⟩ | ⟨handleNull, cbNull, rfl⟩ | ⟨count, rfl⟩ | rfl
  · exact past.send free args
  · exact past.attempt busy
  · unfold AntennaHandle.drain
    split
    · exact { past with }
    · split
      · exact { past with }
      · exact { past with }
  · exact past.deliver count
  · exact { past with }

end Panic

section Account

/-- The account that the line of an event makes known. -/
def announced (line : Text) : Option Text :=
  if contains line accountReadyName then
    (extractProperty line "carrier:account".toList).filter (· ≠ [])
  else none

def announcement : Activity Carrier → Option Text
  | .event event => announced (eventToTurtle event)
  | _ => none

theorem announced_nonempty {line id : Text} (known : announced line = some id) : id ≠ [] := by
  unfold announced at known
  split at known
  · simpa using (Option.filter_eq_some_iff.mp known).2
  · cases known

theorem startup_accountId (context : Context Store Carrier) :
    (context.startup host).accountId = context.accountId := by
  unfold Context.startup
  dsimp only
  split
  · rfl
  · split
    · rfl
    · rfl

theorem bootstrap_accountId (context : Context Store Carrier) :
    (context.bootstrap host).accountId = context.accountId := by
  unfold Context.bootstrap
  split
  · rfl
  · rfl

theorem handleEvent_accountId (context : Context Store Carrier) (event : CarrierEvent) :
    (context.handleEvent host event).accountId =
      if context.accountId = [] then (announced (eventToTurtle event)).getD []
      else context.accountId := by
  unfold Context.handleEvent announced
  dsimp only
  by_cases ready : contains (eventToTurtle event) accountReadyName = true
  · rw [if_pos ready, if_pos ready]
    unfold Context.accountReady Context.accountInForce
    by_cases empty : context.accountId = []
    · simp only [empty, if_true]
    · simp only [empty, if_false]
  · rw [if_neg ready, if_neg ready]
    by_cases empty : context.accountId = []
    · rw [if_pos empty, empty]
      rfl
    · rw [if_neg empty]

/-- Only an event sets the account id, and only one that is not set yet. -/
theorem perform_accountId (context : Context Store Carrier) (activity : Activity Carrier) :
    (context.perform host activity).accountId =
      if context.accountId = [] then (announcement activity).getD [] else context.accountId := by
  have unset : context.accountId =
      if context.accountId = [] then (none : Option Text).getD [] else context.accountId := by
    by_cases empty : context.accountId = []
    · rw [if_pos empty, empty]
      rfl
    · rw [if_neg empty]
  cases activity with
  | startup => exact (startup_accountId context).trans unset
  | bootstrap => exact (bootstrap_accountId context).trans unset
  | clock carrier => exact unset
  | event event => exact handleEvent_accountId context event
  | line line =>
      simp only [Context.perform]
      split
      · exact unset
      · exact unset
  | query sparql => exact unset
  | emit line => exact unset

variable (host) in
/-- A run ends with the account it began with or, if it began without one, with the first that an
event made known. -/
theorem replay_accountId (context : Context Store Carrier) (activities : List (Activity Carrier)) :
    (replay (Context.perform host) context activities).accountId =
      if context.accountId = [] then ((activities.filterMap announcement).head?).getD []
      else context.accountId := by
  induction activities generalizing context with
  | nil =>
      by_cases empty : context.accountId = []
      · rw [if_pos empty]
        exact empty
      · rw [if_neg empty]
        rfl
  | cons activity activities ih =>
      change (replay (Context.perform host) (context.perform host activity) activities).accountId = _
      rw [ih, perform_accountId]
      by_cases empty : context.accountId = []
      · rw [if_pos empty, if_pos empty]
        cases known : announcement activity with
        | none => simp [known]
        | some id =>
            have set : id ≠ [] := by
              cases activity with
              | event event => exact announced_nonempty known
              | _ => cases known
            simp [known, set]
      · rw [if_neg empty, if_neg empty, if_neg empty]

theorem step_accountId {action : HandleStep Carrier}
    (stepped : handle.step host debugPanic action = some next)
    (set : handle.context.accountId ≠ []) : next.context.accountId = handle.context.accountId := by
  rcases (step_worked stepped).worker with ⟨same, -⟩ | ⟨activity, performed, -⟩
  · rw [same]
  · rw [performed, perform_accountId, if_neg set]

/-- A read copies what fits of the id and a NUL into the buffer, and nothing behind it. -/
structure CopiesId (id : List UInt8) (buffer : List UInt8) (result : Nat × Option (List UInt8)) :
    Prop where
  count : result.1 = min id.length (buffer.length - 1)
  copied : ∃ after, result.2 = some after ∧ after.length = buffer.length ∧
    after.take result.1 = id.take result.1 ∧ after[result.1]? = some 0 ∧
    after.drop (result.1 + 1) = buffer.drop (result.1 + 1)

theorem accountId_copies (handle : AntennaHandle Store Carrier)
    (unlocked : handle.accountPoisoned = false) {buffer : List UInt8} (room : buffer ≠ []) :
    CopiesId (Utf8.encode handle.context.accountId) buffer
      (handle.accountId false (some buffer)) := by
  have positive : 0 < buffer.length := List.length_pos_iff.mpr room
  have read : handle.accountId false (some buffer) =
      (min (Utf8.encode handle.context.accountId).length (buffer.length - 1),
        some ((Utf8.encode handle.context.accountId).take
            (min (Utf8.encode handle.context.accountId).length (buffer.length - 1)) ++
          0 :: buffer.drop
            (min (Utf8.encode handle.context.accountId).length (buffer.length - 1) + 1))) := by
    simp [AntennaHandle.accountId, room, unlocked]
  rw [read]
  generalize Utf8.encode handle.context.accountId = id
  have within : (id.take (min id.length (buffer.length - 1))).length =
      min id.length (buffer.length - 1) := by
    rw [List.length_take]
    omega
  refine ⟨rfl, _, rfl, ?_, ?_, ?_, ?_⟩
  · rw [List.length_append, within, List.length_cons, List.length_drop]
    omega
  · exact List.take_left' within
  · rw [List.getElem?_append_right (Nat.le_of_eq within), within, Nat.sub_self]
    rfl
  · rw [← List.singleton_append, ← List.append_assoc]
    apply List.drop_left'
    rw [List.length_append, within]
    rfl

/-- The account id an embedder polls is empty until an event makes an account known, and that account
from then on; each poll copies it into the buffer within its bounds. -/
theorem account_settles_once {ringBytes : Nat} (divides : ringBytes ∣ 2 ^ 32)
    {front back : List (HandleStep Carrier)}
    (fits : StepsMeet (AntennaHandle.step host debugPanic) Fits (create ringBytes start)
      (front ++ back))
    (first : runSteps (AntennaHandle.step host debugPanic) (create ringBytes start) front = some mid)
    (second : runSteps (AntennaHandle.step host debugPanic) mid back = some final) :
    (mid.context.accountId ≠ [] → final.context.accountId = mid.context.accountId) ∧
      final.context.accountId =
        (if start.accountId = [] then ((final.performed.filterMap announcement).head?).getD []
        else start.accountId) ∧
      ∀ buffer, buffer ≠ [] → final.accountPoisoned = false →
        CopiesId (Utf8.encode final.context.accountId) buffer
          (final.accountId false (some buffer)) := by
  have whole := run_sequential debugPanic divides fits (runSteps_append first second)
  refine ⟨?_, ?_, ?_⟩
  · intro set
    have kept := runSteps_preserves (fun _ _ => True)
      (fun state : AntennaHandle Store Carrier =>
        state.context.accountId = mid.context.accountId)
      (fun _ _ _ same _ stepped =>
        (step_accountId stepped (fun empty => set (same.symm.trans empty))).trans same)
      rfl (stepsMeet_of_forall (fun _ _ => trivial) _) second
    exact kept
  · conv_lhs => rw [whole.ticking.worker]
    exact replay_accountId host start final.performed
  · intro buffer room unlocked
    exact accountId_copies final unlocked room

def namedEvent : CarrierEvent :=
  { readyEvent with accountId := (Vector.replicate 64 0).set 0 97 }

/-- A tick up to its first event. -/
def readyRun : List (HandleStep Unit) := [.poll, .startup, .bootstrap, .iterate () true]

theorem account_settles_once_ready :
    ∃ mid final, runSteps (AntennaHandle.step idleHost true) (create 256 (settled [])) readyRun =
        some mid ∧ runSteps (AntennaHandle.step idleHost true) mid [.event namedEvent] = some final ∧
      final.context.accountId = ['a'] ∧
      (mid.context.accountId ≠ [] → final.context.accountId = mid.context.accountId) ∧
      final.context.accountId =
        (if (settled []).accountId = [] then
          ((final.performed.filterMap announcement).head?).getD [] else (settled []).accountId) ∧
      ∀ buffer, buffer ≠ [] → final.accountPoisoned = false →
        CopiesId (Utf8.encode final.context.accountId) buffer
          (final.accountId false (some buffer)) := by
  have facts : StepsMeet (AntennaHandle.step idleHost true) Fits (create 256 (settled []))
        (readyRun ++ [.event namedEvent]) ∧
      ((runSteps (AntennaHandle.step idleHost true) (create 256 (settled [])) readyRun).bind
        fun mid => (runSteps (AntennaHandle.step idleHost true) mid [.event namedEvent]).map
          fun final => final.context.accountId) = some ['a'] := by decide
  obtain ⟨fits, outcome⟩ := facts
  obtain ⟨mid, first, rest⟩ := Option.bind_eq_some_iff.mp outcome
  obtain ⟨final, second, known⟩ := Option.map_eq_some_iff.mp rest
  exact ⟨mid, final, first, second, known, account_settles_once (by decide) fits first second⟩

end Account

end AntennaHandle

end LeanAntenna
