import Antenna.DagCore
import Antenna.ValidatedOutput
import Antenna.Library.Replay

/-!
The thread of a semantic router: it latches the last message of each input, asks the backend once
both are there, and sends on what the validator lets through.
-/

namespace LeanAntenna

open Text Replay

structure LlmCall where
  system : Text
  user : Text
  maxTokens : Nat
deriving DecidableEq, Repr

/-- One round of the loop: whether `poll` failed, the batches of the inputs that were readable, and
what the backend answers to the calls of this round. -/
structure PollRound where
  failed : Bool
  batchA : Option (List Text)
  batchB : Option (List Text)
  first : Except Text Text
  second : Except Text Text

/-- What a router does in a round in which it fires. -/
structure Firing where
  a : Text
  b : Text
  calls : List LlmCall
  emitted : List Text
deriving DecidableEq, Repr

def buildPrompt (turtleA turtleB prefixes : Text) : Text :=
  trim prefixes ++ "\n\nGraph A:\n".toList ++ trim turtleA ++ "\n\nGraph B:\n".toList ++ trim turtleB

def routerSystem (systemPrompt : Text) : Text :=
  ("You are an RDF synthesis engine. Given two Turtle RDF graphs, " ++
    "produce a third that captures the semantic relationship between them. " ++
    "Output ONLY valid Turtle triples using the provided prefixes. " ++
    "No explanation.\n").toList ++ systemPrompt

def retryPrompt (userPrompt err : Text) : Text :=
  userPrompt ++ "\n\nYour previous output had a parse error: ".toList ++ err ++
    "\nPlease fix and output valid Turtle only.".toList

/-- The statement that reports an error, around its message. -/
def errorStatement (message : Text) : Text :=
  "@prefix antenna: <http://resonator.network/v2/antenna#> .\n".toList ++
    "[] a antenna:Error ; antenna:message \"".toList ++ message ++ "\" .\n".toList

def quotesToApostrophes (text : Text) : Text := text.map fun c => if c = '"' then '\'' else c

/-- The slot after a batch: an empty message leaves it as it is. -/
def latch (slot : Option Text) (batch : List Text) : Option Text :=
  batch.foldl (fun slot turtle => if turtle = [] then slot else some turtle) slot

section Firing

variable (parse : Text → Except Text Rdf.Graph) (router : RouterThread)

def fire (round : PollRound) (a b : Text) : Firing :=
  let userPrompt := buildPrompt a b routerHeader
  let complete (prompt : Text) : LlmCall := ⟨routerSystem router.systemPrompt, prompt, router.maxTokens⟩
  match round.first with
  | .error _ => ⟨a, b, [complete userPrompt], []⟩
  | .ok raw =>
      match validateTurtle parse raw with
      | .ok valid => ⟨a, b, [complete userPrompt], [valid]⟩
      | .error err1 =>
          let calls := [complete userPrompt, complete (retryPrompt userPrompt err1)]
          match round.second with
          | .error _ => ⟨a, b, calls, []⟩
          | .ok raw2 =>
              match validateTurtle parse raw2 with
              | .ok valid => ⟨a, b, calls, [valid]⟩
              | .error err2 => ⟨a, b, calls, [errorStatement (quotesToApostrophes err2)]⟩

/-- The thread's slots and what it has done. What has come in since it last fired is noted beside
them. -/
structure RouterRun where
  slotA : Option Text
  slotB : Option Text
  firings : List Firing
  heardA : List Text
  heardB : List Text

namespace PollRound

/-- The messages that the thread receives in the round. -/
def receivedA (round : PollRound) : List Text := if round.failed then [] else round.batchA.getD []

def receivedB (round : PollRound) : List Text := if round.failed then [] else round.batchB.getD []

end PollRound

namespace RouterRun

def start : RouterRun := ⟨none, none, [], [], []⟩

def step (run : RouterRun) (round : PollRound) : RouterRun :=
  if round.failed then run
  else
    let slotA := match round.batchA with
      | some batch => latch run.slotA batch
      | none => run.slotA
    let slotB := match round.batchB with
      | some batch => latch run.slotB batch
      | none => run.slotB
    match slotA, slotB with
    | some a, some b => ⟨none, none, run.firings ++ [fire parse router round a b], [], []⟩
    | _, _ =>
        ⟨slotA, slotB, run.firings, run.heardA ++ round.receivedA, run.heardB ++ round.receivedB⟩

end RouterRun

end Firing

/-- The last message that is not empty. -/
def lastFilled (messages : List Text) : Option Text := (messages.filter (· ≠ [])).getLast?

theorem latch_concat (slot : Option Text) (batch : List Text) (turtle : Text) :
    latch slot (batch ++ [turtle]) = if turtle = [] then latch slot batch else some turtle := by
  rw [latch, List.foldl_append]
  rfl

theorem lastFilled_append (heard received : List Text) :
    lastFilled (heard ++ received) = (lastFilled received).or (lastFilled heard) := by
  rw [lastFilled, List.filter_append, List.getLast?_append]
  rfl

theorem latch_eq (slot : Option Text) (batch : List Text) :
    latch slot batch = (lastFilled batch).or slot := by
  induction batch using List.reverseRecOn with
  | nil => rfl
  | append_singleton batch turtle ih =>
      rw [latch_concat, lastFilled_append, ih]
      by_cases empty : turtle = []
      · simp [lastFilled, empty]
      · simp [lastFilled, empty]

/-- The messages received so far fall into one stretch for each firing, which fired on the last one of
its stretch, and a rest that none has used. -/
def Stretches (used : Firing → Text) (firings : List Firing) (rest received : List Text) : Prop :=
  ∃ stretches : List (List Text),
    List.Forall₂ (fun firing stretch => lastFilled stretch = some (used firing)) firings stretches ∧
      stretches.flatten ++ rest = received

theorem Stretches.wait {used : Firing → Text} {firings : List Firing} {rest received : List Text}
    (stretches : Stretches used firings rest received) (more : List Text) :
    Stretches used firings (rest ++ more) (received ++ more) := by
  obtain ⟨parts, each, whole⟩ := stretches
  exact ⟨parts, each, by rw [← List.append_assoc, whole]⟩

theorem Stretches.fire {used : Firing → Text} {firings : List Firing} {rest received : List Text}
    (stretches : Stretches used firings rest received) {firing : Firing} {more : List Text}
    (last : lastFilled (rest ++ more) = some (used firing)) :
    Stretches used (firings ++ [firing]) [] (received ++ more) := by
  obtain ⟨parts, each, whole⟩ := stretches.wait more
  refine ⟨parts ++ [rest ++ more], List.rel_append each (.cons last .nil), ?_⟩
  rw [List.flatten_concat, List.append_nil, whole]

/-- What a firing does, whatever the backend answers. -/
structure Firing.Proper (parse : Text → Except Text Rdf.Graph) (round : PollRound) (firing : Firing) :
    Prop where
  asks : firing.calls.length = 1 ∨ firing.calls.length = 2
  retries : firing.calls.length = 2 ↔
    ∃ raw reason, round.first = .ok raw ∧ validateTurtle parse raw = .error reason
  single : firing.emitted.length ≤ 1
  emits : ∀ turtle ∈ firing.emitted,
    (∃ raw, (round.first = .ok raw ∨ round.second = .ok raw) ∧
      validateTurtle parse raw = .ok turtle) ∨
    ∃ message, '"' ∉ message ∧ turtle = errorStatement message

section Run

variable (parse : Text → Except Text Rdf.Graph) (router : RouterThread)

theorem not_mem_quotesToApostrophes (text : Text) : '"' ∉ quotesToApostrophes text := by
  intro member
  obtain ⟨c, -, same⟩ := List.mem_map.mp member
  split at same
  · cases same
  · contradiction

theorem fire_pair (round : PollRound) (a b : Text) :
    (fire parse router round a b).a = a ∧ (fire parse router round a b).b = b := by
  unfold fire
  dsimp only
  repeat' split
  all_goals exact ⟨rfl, rfl⟩

theorem fire_proper (round : PollRound) (a b : Text) : (fire parse router round a b).Proper parse round := by
  unfold fire
  dsimp only
  cases asked : round.first with
  | error reason => exact ⟨.inl rfl, by simp [asked], by simp, by simp⟩
  | ok raw =>
      dsimp only
      cases valid : validateTurtle parse raw with
      | ok turtle => exact ⟨.inl rfl, by simp [asked, valid], by simp, by simp [asked, valid]⟩
      | error err1 =>
          have retried : ∃ raw reason, round.first = .ok raw ∧
              validateTurtle parse raw = .error reason := ⟨raw, err1, asked, valid⟩
          dsimp only
          cases again : round.second with
          | error reason => exact ⟨.inr rfl, iff_of_true rfl retried, by simp, by simp⟩
          | ok raw2 =>
              dsimp only
              cases alsoValid : validateTurtle parse raw2 with
              | ok turtle =>
                  refine ⟨.inr rfl, iff_of_true rfl retried, by simp, ?_⟩
                  intro sent member
                  rw [List.mem_singleton.mp member]
                  exact .inl ⟨raw2, .inr again, alsoValid⟩
              | error err2 =>
                  refine ⟨.inr rfl, iff_of_true rfl retried, by simp, ?_⟩
                  intro sent member
                  rw [List.mem_singleton.mp member]
                  exact .inr ⟨_, not_mem_quotesToApostrophes err2, rfl⟩

namespace RouterRun

/-- In a round the router fires exactly if both inputs have been heard since it last fired, on the
last messages that they brought, and starts afresh. -/
def FiresFresh (run : RouterRun) (round : PollRound) : Prop :=
  let next := run.step parse router round
  match lastFilled (run.heardA ++ round.receivedA), lastFilled (run.heardB ++ round.receivedB) with
  | some a, some b =>
      (∃ firing, next.firings = run.firings ++ [firing] ∧ firing.a = a ∧ firing.b = b ∧
        firing.Proper parse round) ∧ next.heardA = [] ∧ next.heardB = []
  | _, _ =>
      next.firings = run.firings ∧ next.heardA = run.heardA ++ round.receivedA ∧
        next.heardB = run.heardB ++ round.receivedB

/-- The slots hold the last messages heard since the last firing, and not both are filled. -/
structure Latched (run : RouterRun) : Prop where
  left : run.slotA = lastFilled run.heardA
  right : run.slotB = lastFilled run.heardB
  waiting : run.slotA = none ∨ run.slotB = none

theorem latched_start : start.Latched := ⟨rfl, rfl, .inl rfl⟩

/-- The round's slots before the router looks whether to fire. -/
theorem Latched.slots {run : RouterRun} (latched : run.Latched) {round : PollRound}
    (fine : round.failed = false) :
    (match round.batchA with
      | some batch => latch run.slotA batch
      | none => run.slotA) = lastFilled (run.heardA ++ round.receivedA) ∧
    (match round.batchB with
      | some batch => latch run.slotB batch
      | none => run.slotB) = lastFilled (run.heardB ++ round.receivedB) := by
  unfold PollRound.receivedA PollRound.receivedB
  rw [lastFilled_append, lastFilled_append, fine, latched.left, latched.right]
  constructor
  · cases round.batchA with
    | none => rfl
    | some batch => exact latch_eq _ batch
  · cases round.batchB with
    | none => rfl
    | some batch => exact latch_eq _ batch

theorem Latched.step {run : RouterRun} (latched : run.Latched) (round : PollRound) :
    (run.step parse router round).Latched ∧ run.FiresFresh parse router round := by
  cases poll : round.failed with
  | true =>
      have idle : run.step parse router round = run := by
        rw [RouterRun.step, poll]
        rfl
      have nothing : round.receivedA = [] ∧ round.receivedB = [] := by
        simp [PollRound.receivedA, PollRound.receivedB, poll]
      refine ⟨idle.symm ▸ latched, ?_⟩
      rw [FiresFresh, idle, nothing.1, nothing.2, List.append_nil, List.append_nil, ← latched.left,
        ← latched.right]
      rcases latched.waiting with empty | empty
      · rw [empty]
        exact ⟨rfl, rfl, rfl⟩
      · rw [empty]
        cases run.slotA <;> exact ⟨rfl, rfl, rfl⟩
  | false =>
      obtain ⟨left, right⟩ := latched.slots poll
      have stepped : run.step parse router round =
          match lastFilled (run.heardA ++ round.receivedA), lastFilled (run.heardB ++ round.receivedB) with
          | some a, some b => ⟨none, none, run.firings ++ [fire parse router round a b], [], []⟩
          | _, _ =>
              ⟨lastFilled (run.heardA ++ round.receivedA), lastFilled (run.heardB ++ round.receivedB),
                run.firings, run.heardA ++ round.receivedA, run.heardB ++ round.receivedB⟩ := by
        rw [RouterRun.step, poll, left, right]
        rfl
      rw [FiresFresh, stepped]
      cases heardA : lastFilled (run.heardA ++ round.receivedA) with
      | none =>
          exact ⟨⟨heardA.symm, rfl, .inl rfl⟩, rfl, rfl, rfl⟩
      | some a =>
          cases heardB : lastFilled (run.heardB ++ round.receivedB) with
          | none => exact ⟨⟨heardA.symm, heardB.symm, .inr rfl⟩, rfl, rfl, rfl⟩
          | some b =>
              obtain ⟨sameA, sameB⟩ := fire_pair parse router round a b
              exact ⟨⟨rfl, rfl, .inl rfl⟩, ⟨_, rfl, sameA, sameB, fire_proper parse router round a b⟩,
                rfl, rfl⟩

/-- Each message belongs to the stretch of one firing at most. -/
theorem stretches (rounds : List PollRound) :
    let run := replay (step parse router) start rounds
    Stretches Firing.a run.firings run.heardA (rounds.flatMap PollRound.receivedA) ∧
      Stretches Firing.b run.firings run.heardB (rounds.flatMap PollRound.receivedB) ∧ run.Latched := by
  induction rounds using List.reverseRecOn with
  | nil => exact ⟨⟨[], .nil, rfl⟩, ⟨[], .nil, rfl⟩, latched_start⟩
  | append_singleton rounds round ih =>
      rw [replay_append, List.flatMap_append, List.flatMap_append, List.flatMap_singleton,
        List.flatMap_singleton]
      generalize replay (step parse router) start rounds = run at ih
      obtain ⟨partsA, partsB, latched⟩ := ih
      obtain ⟨kept, fresh⟩ := latched.step parse router round
      have last : replay (step parse router) run [round] = run.step parse router round := rfl
      rw [last]
      dsimp only
      unfold FiresFresh at fresh
      split at fresh
      · rename_i a b lastA lastB
        obtain ⟨⟨firing, fired, rfl, rfl, -⟩, emptyA, emptyB⟩ := fresh
        rw [fired, emptyA, emptyB]
        exact ⟨partsA.fire lastA, partsB.fire lastB, kept⟩
      · obtain ⟨same, heardA, heardB⟩ := fresh
        rw [same, heardA, heardB]
        exact ⟨partsA.wait _, partsB.wait _, kept⟩

end RouterRun

end Run

end LeanAntenna
