import Antenna.Library.Transition
import Mathlib.Data.List.Nodup
import Mathlib.Logic.Function.Basic

/-!
Calls answered through one queue: each call has a reply channel of its own, a client waits for one
call at a time and may give it up, and the server answers the queue in order.
-/

namespace Oneshot

open Transition

structure Call (Client Request : Type) where
  number : Nat
  client : Client
  request : Request
deriving DecidableEq, Repr

/-- `answered` notes the server each call was answered by, and `returned` what it came back with, or
that it was given up. -/
structure Board (Server Client Request Reply : Type) where
  server : Server
  alive : Bool
  queue : List (Call Client Request)
  waiting : Client → Option (Call Client Request)
  replies : Nat → Option Reply
  issued : List (Call Client Request)
  answered : List (Call Client Request × Server)
  returned : List (Call Client Request × Option Reply)

inductive Move (Server Client Request : Type) where
  | work (server : Server)
  | call (client : Client) (request : Request)
  | answer
  | receive (client : Client)
  | giveUp (client : Client)
  | close

namespace Board

variable {Server Client Request Reply : Type} [DecidableEq Client]
  (reply : Server → Request → Reply)

def start (server : Server) : Board Server Client Request Reply :=
  ⟨server, true, [], fun _ => none, fun _ => none, [], [], []⟩

def place (board : Board Server Client Request Reply) (call : Call Client Request) :
    Board Server Client Request Reply :=
  { board with
    queue := board.queue ++ [call]
    issued := board.issued ++ [call]
    waiting := Function.update board.waiting call.client (some call) }

def call (board : Board Server Client Request Reply) (client : Client) (request : Request) :
    Option (Board Server Client Request Reply) :=
  if board.alive = true ∧ (board.waiting client).isNone then
    some (board.place ⟨board.issued.length, client, request⟩)
  else none

/-- The reply to a call that was given up is lost. -/
def answer (board : Board Server Client Request Reply) :
    Option (Board Server Client Request Reply) :=
  match board.queue with
  | [] => none
  | call :: rest =>
      some { board with
        queue := rest
        answered := board.answered ++ [(call, board.server)]
        replies := if (board.waiting call.client).map Call.number = some call.number then
            Function.update board.replies call.number (some (reply board.server call.request))
          else board.replies }

def settle (board : Board Server Client Request Reply) (call : Call Client Request)
    (outcome : Option Reply) : Board Server Client Request Reply :=
  { board with
    waiting := Function.update board.waiting call.client none
    returned := board.returned ++ [(call, outcome)] }

def receive (board : Board Server Client Request Reply) (client : Client) :
    Option (Board Server Client Request Reply) :=
  (board.waiting client).bind fun call =>
    (board.replies call.number).map fun reply => board.settle call (some reply)

def giveUp (board : Board Server Client Request Reply) (client : Client) :
    Option (Board Server Client Request Reply) :=
  (board.waiting client).bind fun call =>
    if (board.replies call.number).isNone then some (board.settle call none) else none

def step (board : Board Server Client Request Reply) :
    Move Server Client Request → Option (Board Server Client Request Reply)
  | .work server => some { board with server }
  | .call client request => board.call client request
  | .answer => board.answer reply
  | .receive client => board.receive client
  | .giveUp client => board.giveUp client
  | .close => some { board with alive := false, queue := [] }

/-- The calls of a client that returned, and the one it waits for. -/
def history (board : Board Server Client Request Reply) (client : Client) :
    List (Call Client Request) :=
  (board.returned.map Prod.fst).filter (fun call => call.client = client) ++
    (board.waiting client).toList

/-- The queue is answered in order, every reply is the server's to that very call, and the calls of a
client return in the order in which it made them. -/
structure Ledger (board : Board Server Client Request Reply) : Prop where
  numbered : ∀ (index : Nat) (call : Call Client Request), board.issued[index]? = some call →
    call.number = index
  front : board.answered.map Prod.fst ++ board.queue <+: board.issued
  whole : board.alive = true → board.answered.map Prod.fst ++ board.queue = board.issued
  asking : ∀ client call, board.waiting client = some call → call.client = client
  known : ∀ client, ∀ call ∈ board.history client, call ∈ board.issued
  replied : ∀ number value, board.replies number = some value →
    ∃ call server, (call, server) ∈ board.answered ∧ call.number = number ∧
      value = reply server call.request
  pending : board.alive = true → ∀ client call, board.waiting client = some call →
    call ∈ board.queue ∨ (board.replies call.number).isSome
  own : ∀ call value, (call, some value) ∈ board.returned →
    ∃ server, (call, server) ∈ board.answered ∧ value = reply server call.request
  order : ∀ client, ((board.history client).map Call.number).Pairwise (· < ·)

variable {reply} {board next : Board Server Client Request Reply}

theorem call_frame {client : Client} {request : Request}
    (called : board.call client request = some next) :
    next.answered = board.answered ∧ next.returned = board.returned := by
  unfold Board.call at called
  split at called
  · cases called
    exact ⟨rfl, rfl⟩
  · cases called

theorem answer_frame (answered : board.answer reply = some next) :
    board.answered ⊆ next.answered ∧ next.returned = board.returned := by
  unfold Board.answer at answered
  split at answered
  · cases answered
  · cases answered
    exact ⟨List.subset_append_left _ _, rfl⟩

theorem start_ledger (server : Server) :
    Ledger reply (start server : Board Server Client Request Reply) := by
  refine ⟨?_, ?_, ?_, ?_, ?_, ?_, ?_, ?_, ?_⟩
  all_goals simp [start, history]

/-- A call is known by its number. -/
theorem Ledger.same_call (ledger : Ledger reply board) {left right : Call Client Request}
    (leftIssued : left ∈ board.issued) (rightIssued : right ∈ board.issued)
    (same : left.number = right.number) : left = right := by
  obtain ⟨i, atLeft⟩ := List.mem_iff_getElem?.mp leftIssued
  obtain ⟨j, atRight⟩ := List.mem_iff_getElem?.mp rightIssued
  have indices : i = j := by
    rw [← ledger.numbered i left atLeft, ← ledger.numbered j right atRight, same]
  rw [indices] at atLeft
  exact Option.some.inj (atLeft.symm.trans atRight)

theorem Ledger.number_lt (ledger : Ledger reply board) {call : Call Client Request}
    (issued : call ∈ board.issued) : call.number < board.issued.length := by
  obtain ⟨index, found⟩ := List.mem_iff_getElem?.mp issued
  rw [ledger.numbered index call found]
  exact (List.getElem?_eq_some_iff.mp found).1

theorem Ledger.answered_issued (ledger : Ledger reply board) {call : Call Client Request}
    {server : Server} (answered : (call, server) ∈ board.answered) : call ∈ board.issued := by
  apply ledger.front.subset
  exact List.mem_append_left _ (List.mem_map_of_mem answered)

theorem history_place {call : Call Client Request} (idle : board.waiting call.client = none)
    (client : Client) :
    (board.place call).history client =
      board.history client ++ (if call.client = client then [call] else []) := by
  by_cases same : call.client = client
  · rw [if_pos same]
    subst same
    simp [history, place, idle]
  · rw [if_neg same, List.append_nil]
    simp only [history, place, Function.update_of_ne (Ne.symm same)]

/-- The call that returns keeps its place in the history. -/
theorem history_settle {call : Call Client Request}
    (asked : board.waiting call.client = some call) (outcome : Option Reply) (client : Client) :
    (board.settle call outcome).history client = board.history client := by
  by_cases same : call.client = client
  · subst same
    simp [history, settle, asked]
  · simp [history, settle, Function.update_of_ne (Ne.symm same), same]

theorem Ledger.place (ledger : Ledger reply board) (alive : board.alive = true) {client : Client}
    (idle : board.waiting client = none) (request : Request) :
    Ledger reply (board.place ⟨board.issued.length, client, request⟩) := by
  generalize made : (⟨board.issued.length, client, request⟩ : Call Client Request) = call
  have number : call.number = board.issued.length := by rw [← made]
  have asker : call.client = client := by rw [← made]
  have free : board.waiting call.client = none := by rw [asker, idle]
  have split := ledger.whole alive
  have later : board.answered.map Prod.fst ++ (board.queue ++ [call]) = board.issued ++ [call] := by
    rw [← List.append_assoc, split]
  refine {
    numbered := ?_
    front := ⟨[], by rw [List.append_nil]; exact later⟩
    whole := fun _ => later
    asking := ?_
    known := ?_
    replied := ledger.replied
    pending := ?_
    own := ledger.own
    order := ?_ }
  · intro index other found
    rcases Nat.lt_or_ge index board.issued.length with old | new
    · apply ledger.numbered index other
      rw [← found]
      exact (List.getElem?_append_left old).symm
    · have last : index = board.issued.length := by
        have bound := (List.getElem?_eq_some_iff.mp found).1
        simp only [Board.place, List.length_append, List.length_singleton] at bound
        omega
      subst last
      have same : call = other := by simpa [Board.place] using found
      rw [← same, number]
  · intro other asked waiting
    by_cases same : other = call.client
    · subst same
      have itself : call = asked := by simpa [Board.place] using waiting
      rw [← itself]
    · apply ledger.asking other asked
      simpa [Board.place, Function.update_of_ne same] using waiting
  · intro other asked member
    rw [history_place free] at member
    rcases List.mem_append.mp member with old | new
    · exact List.mem_append_left _ (ledger.known other asked old)
    · split at new
      · rw [List.mem_singleton.mp new]
        exact List.mem_append_right _ (List.mem_singleton_self call)
      · cases new
  · intro _ other asked waiting
    by_cases same : other = call.client
    · subst same
      have itself : call = asked := by simpa [Board.place] using waiting
      exact Or.inl (List.mem_append_right _ (by simp [itself]))
    · have before : board.waiting other = some asked := by
        simpa [Board.place, Function.update_of_ne same] using waiting
      rcases ledger.pending alive other asked before with queued | replied
      · exact Or.inl (List.mem_append_left _ queued)
      · exact Or.inr replied
  · intro other
    rw [history_place free, List.map_append, List.pairwise_append]
    refine ⟨ledger.order other, ?_, ?_⟩
    · split
      · exact List.pairwise_singleton _ _
      · exact List.Pairwise.nil
    · intro old member new last
      obtain ⟨earlier, listed, rfl⟩ := List.mem_map.mp member
      split at last
      · rw [List.map_singleton, List.mem_singleton] at last
        rw [last, number]
        exact ledger.number_lt (ledger.known other earlier listed)
      · cases last

theorem Ledger.answer (ledger : Ledger reply board) (answered : board.answer reply = some next) :
    Ledger reply next := by
  unfold Board.answer at answered
  split at answered
  · cases answered
  · rename_i call rest queued
    cases answered
    have moved : (board.answered ++ [(call, board.server)]).map Prod.fst ++ rest =
        board.answered.map Prod.fst ++ board.queue := by
      rw [queued]
      simp
    have issued : call ∈ board.issued := by
      apply ledger.front.subset
      rw [queued]
      simp
    have waits : ∀ client asked, board.waiting client = some asked → asked.number = call.number →
        (board.waiting call.client).map Call.number = some call.number := by
      intro client asked waiting same
      have own : asked ∈ board.issued := ledger.known client asked (by simp [history, waiting])
      have equal := ledger.same_call own issued same
      rw [← equal, ledger.asking client asked waiting, waiting]
      rfl
    refine {
      numbered := ledger.numbered
      front := moved ▸ ledger.front
      whole := fun alive => moved.trans (ledger.whole alive)
      asking := ledger.asking
      known := ledger.known
      replied := ?_
      pending := ?_
      own := ?_
      order := ledger.order }
    · intro number value replied
      dsimp only at replied
      have before : board.replies number = some value → ∃ call' server,
          (call', server) ∈ board.answered ++ [(call, board.server)] ∧ call'.number = number ∧
            value = reply server call'.request := by
        intro old
        obtain ⟨other, server, member, rest⟩ := ledger.replied number value old
        exact ⟨other, server, List.mem_append_left _ member, rest⟩
      split at replied
      · by_cases same : number = call.number
        · subst same
          rw [Function.update_self] at replied
          cases replied
          exact ⟨call, board.server, by simp, rfl, rfl⟩
        · rw [Function.update_of_ne same] at replied
          exact before replied
      · exact before replied
    · intro alive client asked waiting
      dsimp only at waiting ⊢
      by_cases same : asked.number = call.number
      · refine Or.inr ?_
        rw [if_pos (waits client asked waiting same), same, Function.update_self]
        rfl
      · rcases ledger.pending alive client asked waiting with inQueue | replied
        · rw [queued] at inQueue
          rcases List.mem_cons.mp inQueue with rfl | later
          · exact absurd rfl same
          · exact Or.inl later
        · refine Or.inr ?_
          split
          · rw [Function.update_of_ne same]
            exact replied
          · exact replied
    · intro other value returned
      obtain ⟨server, member, own⟩ := ledger.own other value returned
      exact ⟨server, List.mem_append_left _ member, own⟩

/-- A call that returns leaves everything else as it is. -/
theorem Ledger.settle (ledger : Ledger reply board) {call : Call Client Request}
    (asked : board.waiting call.client = some call) {outcome : Option Reply}
    (genuine : ∀ value, outcome = some value →
      ∃ server, (call, server) ∈ board.answered ∧ value = reply server call.request) :
    Ledger reply (board.settle call outcome) := by
  have smaller : ∀ client other, (board.settle call outcome).waiting client = some other →
      board.waiting client = some other := by
    intro client other waiting
    by_cases same : client = call.client
    · subst same
      simp [Board.settle] at waiting
    · simpa [Board.settle, Function.update_of_ne same] using waiting
  refine {
    numbered := ledger.numbered
    front := ledger.front
    whole := ledger.whole
    asking := fun client other waiting => ledger.asking client other (smaller client other waiting)
    known := ?_
    replied := ledger.replied
    pending := fun alive client other waiting =>
      ledger.pending alive client other (smaller client other waiting)
    own := ?_
    order := ?_ }
  · intro client other member
    rw [history_settle asked] at member
    exact ledger.known client other member
  · intro other value returned
    rcases List.mem_append.mp returned with old | new
    · exact ledger.own other value old
    · obtain ⟨rfl, same⟩ := Prod.mk.inj (List.mem_singleton.mp new)
      exact genuine value same.symm
  · intro client
    rw [history_settle asked]
    exact ledger.order client

theorem Ledger.receive (ledger : Ledger reply board) {client : Client}
    (received : board.receive client = some next) : Ledger reply next := by
  obtain ⟨call, waiting, rest⟩ := Option.bind_eq_some_iff.mp received
  obtain ⟨value, replied, rfl⟩ := Option.map_eq_some_iff.mp rest
  have asker := ledger.asking client call waiting
  have issued : call ∈ board.issued := ledger.known client call (by simp [history, waiting])
  refine ledger.settle (asker ▸ waiting) fun given same => ?_
  cases same
  obtain ⟨other, server, member, number, own⟩ := ledger.replied call.number value replied
  have equal := ledger.same_call (ledger.answered_issued member) issued number
  exact ⟨server, equal ▸ member, equal ▸ own⟩

theorem Ledger.giveUp (ledger : Ledger reply board) {client : Client}
    (gave : board.giveUp client = some next) : Ledger reply next := by
  obtain ⟨call, waiting, rest⟩ := Option.bind_eq_some_iff.mp gave
  split at rest
  · cases rest
    exact ledger.settle (ledger.asking client call waiting ▸ waiting) nofun
  · cases rest

theorem step_ledger {move : Move Server Client Request} (ledger : Ledger reply board)
    (stepped : board.step reply move = some next) : Ledger reply next := by
  cases move with
  | work server =>
      cases stepped
      exact { ledger with }
  | call client request =>
      simp only [step, Board.call] at stepped
      split at stepped
      · rename_i ready
        cases stepped
        exact ledger.place ready.1 (Option.isNone_iff_eq_none.mp ready.2) request
      · cases stepped
  | answer => exact ledger.answer stepped
  | receive client => exact ledger.receive stepped
  | giveUp client => exact ledger.giveUp stepped
  | close =>
      cases stepped
      refine { ledger with
        front := ?_
        whole := nofun
        pending := nofun }
      rw [List.append_nil]
      exact (List.prefix_append _ _).trans ledger.front

theorem run_ledger {server : Server} {moves : List (Move Server Client Request)}
    (ran : runSteps (step reply) (start server) moves = some board) : Ledger reply board :=
  runSteps_preserves (fun _ _ => True) (Ledger reply)
    (fun _ _ _ ledger _ stepped => step_ledger ledger stepped) (start_ledger server)
    (stepsMeet_of_forall (fun _ _ => trivial) _) ran

/-- No call returns twice. -/
theorem Ledger.returned_nodup (ledger : Ledger reply board) :
    (board.returned.map Prod.fst).Nodup := by
  rw [List.nodup_iff_sublist]
  intro call twice
  have own : ([call, call].filter fun other => other.client = call.client) = [call, call] := by simp
  have inHistory : [call, call].Sublist (board.history call.client) := by
    refine List.Sublist.trans ?_ (List.sublist_append_left _ _)
    rw [← own]
    exact twice.filter _
  have ordered := (ledger.order call.client).sublist (inHistory.map Call.number)
  simp at ordered

/-- Once the queue is empty, every call under way has its reply. -/
theorem Ledger.prompt (ledger : Ledger reply board) (alive : board.alive = true)
    (empty : board.queue = []) {client : Client} {call : Call Client Request}
    (waiting : board.waiting client = some call) : (board.replies call.number).isSome := by
  rcases ledger.pending alive client call waiting with queued | replied
  · rw [empty] at queued
    cases queued
  · exact replied

/-- The server can always answer the queue to its end, and nobody stops waiting meanwhile. -/
theorem answer_all (board : Board Server Client Request Reply) :
    ∃ next, runSteps (step reply) board (List.replicate board.queue.length .answer) = some next ∧
      next.queue = [] ∧ next.alive = board.alive ∧ next.waiting = board.waiting ∧
      next.returned = board.returned := by
  generalize same : board.queue = queue
  induction queue generalizing board with
  | nil => exact ⟨board, rfl, same, rfl, rfl, rfl⟩
  | cons call rest ih =>
      have stepped : ∃ later, board.step reply .answer = some later ∧ later.queue = rest ∧
          later.alive = board.alive ∧ later.waiting = board.waiting ∧
          later.returned = board.returned := by
        simp only [step, Board.answer, same]
        exact ⟨_, rfl, rfl, rfl, rfl, rfl⟩
      obtain ⟨later, stepped, queued, alive, waiting, returned⟩ := stepped
      obtain ⟨next, ran, facts⟩ := ih later queued
      rw [alive, waiting, returned] at facts
      exact ⟨next, runSteps_cons.mpr ⟨later, stepped, ran⟩, facts⟩

end Board

end Oneshot
