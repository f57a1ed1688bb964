import Antenna.Library.Oneshot
import Antenna.Library.Rdf
import Antenna.Library.Utf8
import Antenna.ScriptVm

/-!
`store.query` of the scripts: the threads of the nodes send their queries to the worker, whose tick
answers what has come in, and wait five seconds for the rows.
-/

namespace LeanAntenna

open Text Rdf Transition Oneshot

/-- What `store.query` finds: solutions that can fail one by one, or results of another form. -/
inductive ScriptResults where
  | solutions (rows : List (Except Text (List (Text × Term))))
  | other

/-- The text a script gets for a term: of a literal only its value. -/
def scriptValue : Term → Text
  | .literal value _ _ => value
  | .resource (.iri iri) => iri
  | .resource (.blank label) => "_:".toList ++ label

/-- What `pump_queries` sends back for one request. -/
def queryRows (results : Except Text ScriptResults) : List (List (Text × Text)) :=
  match results with
  | .ok (.solutions rows) =>
      (rows.filterMap Except.toOption).map fun row =>
        row.map fun (name, term) => (name, scriptValue term)
  | _ => []

/-- The properties that `js_store_query` sets on the object of a row. -/
def rowProperties (row : List (Text × Text)) : List (Text × Text) :=
  row.filter fun (name, value) => decide (nul ∉ name ∧ nul ∉ value)

/-- The text of a JavaScript value: what `JS_ToCString` gives up to its first NUL byte. -/
def scriptText (bytes : List UInt8) : Text := Utf8.lossy (bytes.takeWhile (· ≠ 0))

/-- One return of `js_store_query`, with the call it came from where it made one. -/
structure QueryReturn where
  node : Nat
  call : Option (Call Nat Text)
  rows : List (List (Text × Text))
deriving DecidableEq, Repr

structure ScriptQueries (Store : Type) where
  board : Board Store Nat Text (List (List (Text × Text)))
  results : List QueryReturn

/-- The worker's and the nodes' steps; `work` is whatever else the worker does to the store. -/
inductive QueryAction (Store : Type) where
  | work (store : Store)
  | query (node : Nat) (argument : Option (List UInt8))
  | pump
  | receive (node : Nat)
  | timeout (node : Nat)
  | drop

namespace ScriptQueries

variable {Store : Type} (query : Store → Text → Except Text ScriptResults)

def start (store : Store) : ScriptQueries Store := ⟨Board.start store, []⟩

def reply (store : Store) (sparql : Text) : List (List (Text × Text)) :=
  queryRows (query store sparql)

def giveBack (queries : ScriptQueries Store) (node : Nat) (call : Option (Call Nat Text))
    (rows : List (List (Text × Text))) : ScriptQueries Store :=
  { queries with results := queries.results ++ [⟨node, call, rows⟩] }

/-- `js_store_query` up to its wait. Without a text, and after the DAG is gone, it gives an empty
array at once. -/
def ask (queries : ScriptQueries Store) (node : Nat) (argument : Option (List UInt8)) :
    Option (ScriptQueries Store) :=
  if (queries.board.waiting node).isSome then none
  else
    match argument with
    | none => some (queries.giveBack node none [])
    | some bytes =>
        if queries.board.alive then
          (queries.board.call node (scriptText bytes)).map fun board => { queries with board }
        else some (queries.giveBack node none [])

/-- The rows have come, and each becomes an object. -/
def receive (queries : ScriptQueries Store) (node : Nat) : Option (ScriptQueries Store) :=
  (queries.board.waiting node).bind fun call =>
    (queries.board.replies call.number).bind fun rows =>
      (queries.board.receive node).map fun board =>
        { queries with board }.giveBack node (some call) (rows.map rowProperties)

def timeout (queries : ScriptQueries Store) (node : Nat) : Option (ScriptQueries Store) :=
  (queries.board.waiting node).bind fun call =>
    (queries.board.giveUp node).map fun board =>
      { queries with board }.giveBack node (some call) []

def step (queries : ScriptQueries Store) : QueryAction Store → Option (ScriptQueries Store)
  | .work store => (queries.board.step (reply query) (.work store)).map fun board =>
      { queries with board }
  | .query node argument => queries.ask node argument
  | .pump => (queries.board.answer (reply query)).map fun board => { queries with board }
  | .receive node => queries.receive node
  | .timeout node => queries.timeout node
  | .drop => (queries.board.step (reply query) .close).map fun board => { queries with board }

/-- What a script got is nothing, or the rows of its own query in the store of the pump that answered
it. -/
structure Genuine (queries : ScriptQueries Store) : Prop where
  ledger : Board.Ledger (reply query) queries.board
  results : ∀ result ∈ queries.results, result.rows = [] ∨
    ∃ call store, (call, store) ∈ queries.board.answered ∧ result.call = some call ∧
      result.node = call.client ∧
      result.rows = (queryRows (query store call.request)).map rowProperties
  returned : queries.results.filterMap QueryReturn.call = queries.board.returned.map Prod.fst

variable {query} {queries next : ScriptQueries Store}

theorem start_genuine (store : Store) : Genuine query (start store) where
  ledger := Board.start_ledger store
  results _ member := absurd member List.not_mem_nil
  returned := rfl

theorem Genuine.board (genuine : Genuine query queries)
    {board : Board Store Nat Text (List (List (Text × Text)))}
    (ledger : Board.Ledger (reply query) board)
    (more : queries.board.answered ⊆ board.answered)
    (same : board.returned = queries.board.returned) : Genuine query { queries with board } where
  ledger := ledger
  results result member := by
    rcases genuine.results result member with nothing | ⟨call, store, answered, rest⟩
    · exact Or.inl nothing
    · exact Or.inr ⟨call, store, more answered, rest⟩
  returned := genuine.returned.trans (by rw [same])

theorem Genuine.giveBack_nothing (genuine : Genuine query queries) (node : Nat) :
    Genuine query (queries.giveBack node none []) where
  ledger := genuine.ledger
  results result member := by
    rcases List.mem_append.mp member with old | new
    · exact genuine.results result old
    · rw [List.mem_singleton.mp new]
      exact Or.inl rfl
  returned := by
    rw [giveBack, List.filterMap_append, genuine.returned]
    simp

/-- A call that was settled with an outcome is given back with its rows. -/
theorem Genuine.settled (genuine : Genuine query queries) {node : Nat} {call : Call Nat Text}
    (waiting : queries.board.waiting node = some call)
    {outcome : Option (List (List (Text × Text)))}
    (ledger : Board.Ledger (reply query) (queries.board.settle call outcome)) :
    Genuine query ({ queries with board := queries.board.settle call outcome }.giveBack node
      (some call) ((outcome.getD []).map rowProperties)) where
  ledger := ledger
  results result member := by
    rcases List.mem_append.mp member with old | new
    · exact genuine.results result old
    · rw [List.mem_singleton.mp new]
      cases outcome with
      | none => exact Or.inl rfl
      | some rows =>
          obtain ⟨store, answered, own⟩ := ledger.own call rows (by simp [Board.settle])
          refine Or.inr ⟨call, store, answered, rfl, ?_, ?_⟩
          · exact (genuine.ledger.asking node call waiting).symm
          · rw [own]
            rfl
  returned := by
    rw [giveBack, List.filterMap_append, genuine.returned, Board.settle, List.map_append]
    rfl

theorem step_genuine {action : QueryAction Store} (genuine : Genuine query queries)
    (stepped : step query queries action = some next) : Genuine query next := by
  cases action with
  | work store =>
      simp only [step, Option.map_eq_some_iff] at stepped
      obtain ⟨board, moved, rfl⟩ := stepped
      have ledger := Board.step_ledger genuine.ledger moved
      cases moved
      exact genuine.board ledger (List.Subset.refl _) rfl
  | query node argument =>
      simp only [step, ask] at stepped
      split at stepped
      · cases stepped
      · split at stepped
        · cases stepped
          exact genuine.giveBack_nothing node
        · rename_i bytes
          split at stepped
          · obtain ⟨board, called, rfl⟩ := Option.map_eq_some_iff.mp stepped
            have moved : queries.board.step (reply query) (.call node (scriptText bytes)) =
                some board := called
            have frame := Board.call_frame called
            exact genuine.board (Board.step_ledger genuine.ledger moved)
              (frame.1 ▸ List.Subset.refl _) frame.2
          · cases stepped
            exact genuine.giveBack_nothing node
  | pump =>
      obtain ⟨board, answered, rfl⟩ := Option.map_eq_some_iff.mp stepped
      obtain ⟨more, same⟩ := Board.answer_frame answered
      exact genuine.board (genuine.ledger.answer answered) more same
  | receive node =>
      obtain ⟨call, waiting, rest⟩ := Option.bind_eq_some_iff.mp stepped
      obtain ⟨rows, replied, rest⟩ := Option.bind_eq_some_iff.mp rest
      obtain ⟨board, received, rfl⟩ := Option.map_eq_some_iff.mp rest
      have ledger := genuine.ledger.receive received
      have done : board = queries.board.settle call (some rows) := by
        simpa [Board.receive, waiting, replied] using received.symm
      subst done
      exact genuine.settled waiting ledger
  | timeout node =>
      obtain ⟨call, waiting, rest⟩ := Option.bind_eq_some_iff.mp stepped
      obtain ⟨board, gave, rfl⟩ := Option.map_eq_some_iff.mp rest
      have ledger := genuine.ledger.giveUp gave
      have done : board = queries.board.settle call none := by
        simp only [Board.giveUp, waiting, Option.bind_some] at gave
        split at gave
        · exact (Option.some.inj gave).symm
        · cases gave
      subst done
      exact genuine.settled waiting ledger
  | drop =>
      simp only [step, Option.map_eq_some_iff] at stepped
      obtain ⟨board, moved, rfl⟩ := stepped
      have ledger := Board.step_ledger genuine.ledger moved
      cases moved
      exact genuine.board ledger (List.Subset.refl _) rfl

theorem run_genuine {store : Store} {actions : List (QueryAction Store)}
    (ran : runSteps (step query) (start store) actions = some queries) : Genuine query queries :=
  runSteps_preserves (fun _ _ => True) (Genuine query)
    (fun _ _ _ genuine _ stepped => step_genuine genuine stepped) (start_genuine store)
    (stepsMeet_of_forall (fun _ _ => trivial) _) ran

theorem step_asked {actions : List (QueryAction Store)} {action : QueryAction Store}
    (asked : ∀ call ∈ queries.board.issued, ∃ bytes,
      QueryAction.query call.client (some bytes) ∈ actions ∧ call.request = scriptText bytes)
    (among : action ∈ actions) (stepped : step query queries action = some next) :
    ∀ call ∈ next.board.issued, ∃ bytes,
      QueryAction.query call.client (some bytes) ∈ actions ∧ call.request = scriptText bytes := by
  cases action with
  | work store =>
      cases stepped
      exact asked
  | query node argument =>
      simp only [step, ask] at stepped
      split at stepped
      · cases stepped
      · split at stepped
        · cases stepped
          exact asked
        · rename_i bytes
          split at stepped
          · simp only [Board.call] at stepped
            split at stepped
            · cases stepped
              intro call member
              rcases List.mem_append.mp member with old | new
              · exact asked call old
              · rw [List.mem_singleton.mp new]
                exact ⟨bytes, among, rfl⟩
            · cases stepped
          · cases stepped
            exact asked
  | pump =>
      simp only [step, Board.answer] at stepped
      split at stepped
      · cases stepped
      · cases stepped
        exact asked
  | receive node =>
      obtain ⟨call, waiting, rest⟩ := Option.bind_eq_some_iff.mp stepped
      obtain ⟨rows, replied, rest⟩ := Option.bind_eq_some_iff.mp rest
      obtain ⟨board, received, rfl⟩ := Option.map_eq_some_iff.mp rest
      simp only [Board.receive, waiting, replied, Option.bind_some, Option.map_some] at received
      cases received
      exact asked
  | timeout node =>
      obtain ⟨call, waiting, rest⟩ := Option.bind_eq_some_iff.mp stepped
      obtain ⟨board, gave, rfl⟩ := Option.map_eq_some_iff.mp rest
      simp only [Board.giveUp, waiting, Option.bind_some] at gave
      split at gave
      · cases gave
        exact asked
      · cases gave
  | drop =>
      cases stepped
      exact asked

/-- A pump to the end of the queue lets every node that waits go on. -/
theorem Genuine.pumped (genuine : Genuine query queries) (alive : queries.board.alive = true) :
    ∃ pumped, runSteps (step query) queries (List.replicate queries.board.queue.length .pump) =
        some pumped ∧ pumped.results = queries.results ∧
      ∀ node, (queries.board.waiting node).isSome → (step query pumped (.receive node)).isSome := by
  generalize same : queries.board.queue = queue
  induction queue generalizing queries with
  | nil =>
      refine ⟨queries, rfl, rfl, ?_⟩
      intro node waits
      obtain ⟨call, waiting⟩ := Option.isSome_iff_exists.mp waits
      obtain ⟨rows, replied⟩ := Option.isSome_iff_exists.mp
        (genuine.ledger.prompt alive same waiting)
      simp [step, receive, Board.receive, waiting, replied]
  | cons call rest ih =>
      have stepped : ∃ board, step query queries .pump = some { queries with board } ∧
          board.queue = rest ∧ board.alive = true ∧ board.waiting = queries.board.waiting := by
        simp only [step, Board.answer, same]
        exact ⟨_, rfl, rfl, alive, rfl⟩
      obtain ⟨board, pump, queued, lives, waits⟩ := stepped
      obtain ⟨pumped, ran, kept, ready⟩ := ih (step_genuine genuine pump) lives queued
      exact ⟨pumped, runSteps_cons.mpr ⟨_, pump, ran⟩, kept, fun node => waits ▸ ready node⟩

/-- Whatever the worker and the nodes do meanwhile, a script gets the rows of its own query or
nothing. The queries are answered in the order in which they came, none twice. -/
theorem script_gets_own_rows {Store : Type} (query : Store → Text → Except Text ScriptResults)
    (store : Store) (actions : List (QueryAction Store)) (queries : ScriptQueries Store)
    (ran : runSteps (step query) (start store) actions = some queries) :
    (∀ result ∈ queries.results, result.rows = [] ∨
      ∃ call answering, (call, answering) ∈ queries.board.answered ∧ result.call = some call ∧
        result.node = call.client ∧
        result.rows = (queryRows (query answering call.request)).map rowProperties) ∧
      queries.board.answered.map Prod.fst <+: queries.board.issued ∧
      queries.board.issued.map Call.number = List.range queries.board.issued.length ∧
      (∀ call ∈ queries.board.issued, ∃ bytes,
        QueryAction.query call.client (some bytes) ∈ actions ∧ call.request = scriptText bytes) ∧
      (queries.results.filterMap QueryReturn.call).Nodup ∧
      (∀ node, (((queries.results.filterMap QueryReturn.call).filter fun call =>
        call.client = node).map Call.number).Pairwise (· < ·)) ∧
      (queries.board.alive = true →
        ∃ pumped, runSteps (step query) queries
            (List.replicate queries.board.queue.length .pump) = some pumped ∧
          pumped.results = queries.results ∧
          ∀ node, (queries.board.waiting node).isSome →
            (step query pumped (.receive node)).isSome) := by
  have genuine := run_genuine ran
  refine ⟨genuine.results, ?_, ?_, ?_, ?_, ?_, genuine.pumped⟩
  · exact (List.prefix_append _ _).trans genuine.ledger.front
  · apply List.ext_getElem?
    intro index
    rw [List.getElem?_map]
    cases found : queries.board.issued[index]? with
    | none =>
        have beyond := List.getElem?_eq_none_iff.mp found
        exact (List.getElem?_eq_none (by simpa using beyond)).symm
    | some call =>
        have bound := (List.getElem?_eq_some_iff.mp found).1
        simp [genuine.ledger.numbered index call found, bound]
  · refine runSteps_preserves (fun _ action => action ∈ actions)
      (fun queries => ∀ call ∈ queries.board.issued, ∃ bytes,
        QueryAction.query call.client (some bytes) ∈ actions ∧ call.request = scriptText bytes)
      (fun _ _ _ asked among stepped => step_asked asked among stepped) ?_
      (stepsMeet_of_forall (fun _ member => member) _) ran
    exact fun _ member => absurd member List.not_mem_nil
  · rw [genuine.returned]
    exact genuine.ledger.returned_nodup
  · intro node
    have ordered := genuine.ledger.order node
    rw [Board.history, List.map_append, List.pairwise_append] at ordered
    rw [genuine.returned]
    exact ordered.1

/-- A store of one number, which is what every query finds in it. -/
def countQuery (count : Nat) (_ : Text) : Except Text ScriptResults :=
  .ok (.solutions [.ok [("n".toList, Term.literal (List.replicate count 'i') [] none)]])

theorem script_gets_own_rows_late :
    ∃ queries, runSteps (step countQuery) (start 1)
        [.query 0 (some [65]), .query 1 (some [66]), .work 2, .pump, .work 3, .timeout 1, .pump,
          .receive 0, .query 1 none] = some queries ∧
      queries.results.map QueryReturn.rows = [[], [[(['n'], ['i', 'i'])]], []] ∧
      (queries.results.filterMap QueryReturn.call).Nodup := by
  have ran : ∃ queries, runSteps (step countQuery) (start 1)
      [.query 0 (some [65]), .query 1 (some [66]), .work 2, .pump, .work 3, .timeout 1, .pump,
        .receive 0, .query 1 none] = some queries ∧
      queries.results.map QueryReturn.rows = [[], [[(['n'], ['i', 'i'])]], []] :=
    ⟨_, rfl, by decide⟩
  obtain ⟨queries, ran, rows⟩ := ran
  exact ⟨queries, ran, rows, (script_gets_own_rows countQuery 1 _ queries ran).2.2.2.2.1⟩

end ScriptQueries

end LeanAntenna
