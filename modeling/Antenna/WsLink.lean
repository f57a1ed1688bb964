import Antenna.SendCore
import Antenna.WsForwarder
import Mathlib.Data.List.Infix

/-!
The WebSocket server at work: the accept loop with its client sessions beside the forwarder. What a
socket does (the messages it yields, where it would block, where it fails) is left to each step.
-/

namespace LeanAntenna

open Text Transition

/-- What a read of the socket gives: a text, a close, an error that would block or is final, or a
message of another kind. -/
inductive WsRead where
  | text (content : Text)
  | close
  | wouldBlock
  | failed
  | other
deriving DecidableEq, Repr

/-- A write or flush that would block has been buffered by the socket. -/
inductive WsWrite where
  | done
  | wouldBlock
  | failed
deriving DecidableEq, Repr

/-- Where the accept loop stands; from `polling` on, inside the loop of a client. -/
inductive WsStage where
  | accepting
  | handshaking
  | greeting
  | registering (greeted : Bool)
  | polling
  | reading
  | closing
  | draining
  | flushing
deriving DecidableEq, Repr

/-- `taken` counts the messages taken from a client's channel, and `frames` are those its socket was
given, the greeting first. `texts` notes what was read and `sent` what the application sent. -/
structure WsLink where
  server : WsServer
  stage : WsStage
  taken : Nat → Nat
  frames : Nat → List Text
  texts : List Text
  inbound : List Text
  received : List Text
  sent : List Text

inductive WsLinkAction where
  | accept
  | handshake (complete : Bool)
  | greet (written : Bool)
  | register
  | poll
  | read (event : WsRead)
  | write (outcome : WsWrite)
  | flush (outcome : WsWrite)
  | panic
  | send (message : Text)
  | receive
  | check
  | take
  | timeout
  | recheck
  | forward
deriving DecidableEq, Repr

namespace WsLink

def start : WsLink := ⟨WsServer.start, .accepting, fun _ => 0, fun _ => [], [], [], [], []⟩

/-- The session ends and its channel with it. -/
def leave (link : WsLink) : WsLink :=
  { link with server := { link.server with connected := none }, stage := .accepting }

def register (greeting : Option Text) (link : WsLink) : Option WsLink :=
  match link.stage with
  | .registering greeted =>
      link.server.register.map fun server =>
        { link with
          server
          stage := .polling
          frames := Function.update link.frames link.server.count
            (if greeted then greeting.toList else []) }
  | _ => none

/-- A text is taken apart into its lines; while a close is under way whatever comes is skipped. -/
def read (link : WsLink) (event : WsRead) : Option WsLink :=
  match link.stage, event with
  | .reading, .text content =>
      some { link with
        texts := link.texts ++ [content]
        inbound := link.inbound ++ turtleLines content }
  | .reading, .close => some { link with stage := .closing }
  | .reading, .wouldBlock => some { link with stage := .draining }
  | .reading, .failed => some link.leave
  | .reading, .other => some link
  | .closing, .text _ => some link
  | .closing, .other => some link
  | .closing, _ => some link.leave
  | _, _ => none

/-- `try_recv` on the client's channel and `ws.send` of what it gives. -/
def write (link : WsLink) (outcome : WsWrite) : Option WsLink :=
  match link.stage, link.server.connected with
  | .draining, some client =>
      match (link.server.queues client)[link.taken client]? with
      | none => some { link with stage := .flushing }
      | some message =>
          let popped := { link with
            taken := Function.update link.taken client (link.taken client + 1) }
          let given := { popped with
            frames := Function.update link.frames client (link.frames client ++ [message]) }
          match outcome with
          | .done => some given
          | .wouldBlock => some { given with stage := .flushing }
          | .failed => some popped.leave
  | _, _ => none

def flush (link : WsLink) (outcome : WsWrite) : Option WsLink :=
  match link.stage, outcome with
  | .flushing, .failed => some link.leave
  | .flushing, _ => some { link with stage := .polling }
  | _, _ => none

def panic (link : WsLink) : Option WsLink :=
  match link.stage with
  | .accepting => none
  | _ => some link.leave

/-- `WsIn::recv` where there is a line. -/
def receive (link : WsLink) : Option WsLink :=
  match link.inbound with
  | [] => none
  | line :: rest => some { link with inbound := rest, received := link.received ++ [line] }

def onServer (link : WsLink) (action : WsAction) : Option WsLink :=
  (WsServer.step link.server action).map fun server => { link with server }

def step (greeting : Option Text) (link : WsLink) : WsLinkAction → Option WsLink
  | .accept => if link.stage = .accepting then some { link with stage := .handshaking } else none
  | .handshake complete =>
      if link.stage = .handshaking then
        some { link with stage := if complete then .greeting else .accepting }
      else none
  | .greet written =>
      if link.stage = .greeting then some { link with stage := .registering written } else none
  | .register => link.register greeting
  | .poll => if link.stage = .polling then some { link with stage := .reading } else none
  | .read event => link.read event
  | .write outcome => link.write outcome
  | .flush outcome => link.flush outcome
  | .panic => link.panic
  | .send message =>
      (link.onServer (.send message)).map fun next => { next with sent := next.sent ++ [message] }
  | .receive => link.receive
  | .check => link.onServer .check
  | .take => link.onServer .receive
  | .timeout => link.onServer .timeout
  | .recheck => link.onServer .recheck
  | .forward => link.onServer .forward

end WsLink

namespace ForwarderPc

/-- The message that the forwarder holds. -/
def inHand : ForwarderPc → List Text
  | .checking => []
  | .receiving => []
  | .rechecking message _ => [message]
  | .forwarding message _ => [message]

end ForwarderPc

namespace WsServer

/-- Of the messages the forwarder is through with, each went to one client at most; the clients'
queues in the order of the clients have them in the order in which they were sent. -/
structure Dispersed (server : WsServer) (sent : List Text) : Prop where
  passed : ∃ passed, sent = passed ++ server.pc.inHand ++ server.outgoing ∧
    ((List.range server.count).flatMap server.queues).Sublist passed
  later : ∀ client, server.queues client ≠ [] → client < server.count ∧
    ∀ known ∈ server.current.toList ++ server.registrations, client ≤ known

variable {server next : WsServer} {sent : List Text}

theorem start_dispersed : start.Dispersed [] where
  passed := ⟨[], rfl, List.Sublist.refl _⟩
  later _ placed := absurd rfl placed

theorem flatMap_place {queues : Nat → List Text} {client count : Nat} (inside : client < count)
    (unused : ∀ other, client < other → queues other = []) (message : Text) :
    (List.range count).flatMap
        (Function.update queues client (queues client ++ [message])) =
      (List.range count).flatMap queues ++ [message] := by
  induction count with
  | zero => omega
  | succ count ih =>
      rw [List.range_succ, List.flatMap_append, List.flatMap_append, List.flatMap_singleton,
        List.flatMap_singleton]
      by_cases last : client = count
      · subst last
        have before : (List.range client).flatMap
            (Function.update queues client (queues client ++ [message])) =
              (List.range client).flatMap queues := by
          apply List.flatMap_congr
          intro other below
          exact Function.update_of_ne (Nat.ne_of_lt (List.mem_range.mp below)) _ _
        rw [before, Function.update_self, List.append_assoc]
      · rw [ih (by omega), Function.update_of_ne (Ne.symm last), unused count (by omega)]
        simp

/-- A step that neither takes nor passes on a message and puts no older client forward. -/
theorem Dispersed.of_same (dispersed : server.Dispersed sent)
    (held : next.pc.inHand ++ next.outgoing = server.pc.inHand ++ server.outgoing)
    (count : next.count = server.count) (queues : next.queues = server.queues)
    (clients : next.current.toList ++ next.registrations ⊆
      server.current.toList ++ server.registrations) : next.Dispersed sent := by
  obtain ⟨⟨passed, split, inside⟩, later⟩ := dispersed
  refine ⟨⟨passed, ?_, ?_⟩, ?_⟩
  · rw [split, List.append_assoc, List.append_assoc, held]
  · rw [count, queues]
    exact inside
  · intro client placed
    rw [queues] at placed
    rw [count]
    exact ⟨(later client placed).1, fun known member =>
      (later client placed).2 known (clients member)⟩

theorem takeRegistration_clients (server : WsServer) :
    server.takeRegistration.current.toList ++ server.takeRegistration.registrations ⊆
      server.current.toList ++ server.registrations := by
  unfold takeRegistration
  split
  · rename_i client rest waiting
    rw [waiting]
    exact List.subset_append_right _ _
  · exact List.Subset.refl _

theorem Dispersed.takeRegistration (dispersed : server.Dispersed sent) :
    server.takeRegistration.Dispersed sent := by
  refine dispersed.of_same ?_ ?_ ?_ (takeRegistration_clients server)
  all_goals
    unfold WsServer.takeRegistration
    split <;> rfl

theorem Dispersed.register (dispersed : server.Dispersed sent)
    (done : server.register = some next) : next.Dispersed sent := by
  unfold WsServer.register at done
  split at done
  · cases done
  · cases done
    obtain ⟨⟨passed, split, inside⟩, later⟩ := dispersed
    have unused : server.queues server.count = [] := by
      by_contra placed
      exact absurd (later server.count placed).1 (Nat.lt_irrefl _)
    refine ⟨⟨passed, split, ?_⟩, ?_⟩
    · rw [List.range_succ, List.flatMap_append, List.flatMap_singleton, unused, List.append_nil]
      exact inside
    · intro client placed
      obtain ⟨below, older⟩ := later client placed
      refine ⟨Nat.lt_succ_of_lt below, ?_⟩
      intro known member
      rw [← List.append_assoc] at member
      rcases List.mem_append.mp member with old | new
      · exact older known old
      · rw [List.mem_singleton.mp new]
        exact Nat.le_of_lt below

/-- The message in hand goes to the client that the forwarder knows, or is lost. -/
theorem Dispersed.forward (dispersed : server.Dispersed sent) (registered : server.Registered)
    (done : server.forward = some next) : next.Dispersed sent := by
  unfold WsServer.forward at done
  split at done
  · rename_i message taker passing
    cases done
    obtain ⟨⟨passed, split, inside⟩, later⟩ := dispersed
    rw [passing] at split
    have lost : sent = (passed ++ [message]) ++ [] ++ server.outgoing := by
      simpa [ForwarderPc.inHand] using split
    have kept : ((List.range server.count).flatMap server.queues).Sublist (passed ++ [message]) :=
      inside.trans (List.sublist_append_left _ _)
    unfold WsServer.place
    split
    · exact ⟨⟨passed ++ [message], lost, kept⟩, later⟩
    · rename_i client current
      have first : ∀ known ∈ server.current.toList ++ server.registrations, client ≤ known := by
        have increasing := registered.increasing
        rw [current] at increasing ⊢
        intro known member
        rcases List.mem_cons.mp member with rfl | behind
        · exact Nat.le_refl _
        · exact Nat.le_of_lt ((List.pairwise_cons.mp increasing).1 known behind)
      have below : client < server.count := registered.bounded client (by simp [current])
      split
      · refine ⟨⟨passed ++ [message], lost, ?_⟩, ?_⟩
        · dsimp only
          rw [flatMap_place below]
          · exact inside.append (List.Sublist.refl _)
          · intro other above
            by_contra placed
            have older := (later other placed).2 client (by simp [current])
            omega
        · intro other placed
          dsimp only at placed ⊢
          by_cases same : other = client
          · subst same
            exact ⟨below, first⟩
          · rw [Function.update_of_ne same] at placed
            exact later other placed
      · refine ⟨⟨passed ++ [message], lost, kept⟩, ?_⟩
        intro other placed
        refine ⟨(later other placed).1, fun known member => (later other placed).2 known ?_⟩
        exact List.mem_append_right _ member
  · cases done

end WsServer

namespace WsLink

variable {link next : WsLink} {greeting : Option Text}

/-- What a client's socket was given: the greeting unless it failed, and what its queue began with,
all that was taken from the queue while the client is connected. -/
def Given (greeting : Option Text) (link : WsLink) (client : Nat) : Prop :=
  ∃ greeted given, (greeted = [] ∨ greeted = greeting.toList) ∧
    link.frames client = greeted ++ given ∧ given <+: link.server.queues client ∧
    given.length ≤ link.taken client ∧ link.taken client ≤ (link.server.queues client).length ∧
    (link.server.connected = some client → given.length = link.taken client)

structure Orderly (greeting : Option Text) (link : WsLink) : Prop where
  registered : link.server.Registered
  dispersed : link.server.Dispersed link.sent
  given : ∀ client, link.Given greeting client
  unused : ∀ client, link.server.count ≤ client → link.taken client = 0
  inbound : link.received ++ link.inbound = link.texts.flatMap turtleLines

theorem start_orderly : start.Orderly greeting where
  registered := WsServer.start_registered
  dispersed := WsServer.start_dispersed
  given _ := ⟨[], [], Or.inl rfl, rfl, List.nil_prefix, Nat.le_refl _, Nat.le_refl _, nofun⟩
  unused _ _ := rfl
  inbound := rfl

theorem Orderly.stage (orderly : link.Orderly greeting) (stage : WsStage) :
    Orderly greeting { link with stage } :=
  { orderly with }

theorem Orderly.leave (orderly : link.Orderly greeting) : link.leave.Orderly greeting := by
  obtain ⟨registered, dispersed, given, unused, inbound⟩ := orderly
  refine ⟨⟨registered.increasing, registered.bounded, nofun⟩,
    dispersed.of_same rfl rfl rfl (List.Subset.refl _), ?_, unused, inbound⟩
  intro client
  obtain ⟨greeted, front, sort, frames, isFront, few, bound, _⟩ := given client
  exact ⟨greeted, front, sort, frames, isFront, few, bound, nofun⟩

theorem Orderly.onServer (orderly : link.Orderly greeting) {server : WsServer}
    (registered : server.Registered) {sent : List Text} (dispersed : server.Dispersed sent)
    (connected : server.connected = link.server.connected) (count : server.count = link.server.count)
    (longer : ∀ client, link.server.queues client <+: server.queues client) :
    Orderly greeting { link with server, sent } where
  registered := registered
  dispersed := dispersed
  given client := by
    obtain ⟨greeted, front, sort, frames, isFront, few, bound, all⟩ := orderly.given client
    refine ⟨greeted, front, sort, frames, isFront.trans (longer client), few, ?_, ?_⟩
    · exact Nat.le_trans bound (longer client).length_le
    · intro here
      exact all (connected.symm.trans here)
  unused client above := orderly.unused client (count ▸ above)
  inbound := orderly.inbound

theorem Orderly.register (orderly : link.Orderly greeting)
    (done : link.register greeting = some next) : next.Orderly greeting := by
  unfold WsLink.register at done
  split at done
  · rename_i written stage
    obtain ⟨server, joined, rfl⟩ := Option.map_eq_some_iff.mp done
    have registered := orderly.registered.register joined
    have dispersed := orderly.dispersed.register joined
    have empty : link.server.queues link.server.count = [] := by
      by_contra placed
      exact absurd (orderly.dispersed.later link.server.count placed).1 (Nat.lt_irrefl _)
    unfold WsServer.register at joined
    split at joined
    · cases joined
    · cases joined
      refine ⟨registered, dispersed, ?_, ?_, orderly.inbound⟩
      · intro client
        by_cases new : client = link.server.count
        · subst new
          refine ⟨if written then greeting.toList else [], [], ?_, ?_, List.nil_prefix,
            Nat.zero_le _, ?_, ?_⟩
          · cases written
            · exact Or.inl rfl
            · exact Or.inr rfl
          · simp
          · rw [orderly.unused _ (Nat.le_refl _)]
            exact Nat.zero_le _
          · intro _
            exact (orderly.unused _ (Nat.le_refl _)).symm
        · obtain ⟨greeted, front, sort, frames, isFront, few, bound, _⟩ := orderly.given client
          refine ⟨greeted, front, sort, ?_, isFront, few, bound, ?_⟩
          · exact (Function.update_of_ne new _ _).trans frames
          · intro connected
            exact absurd (Option.some.inj connected).symm new
      · intro client above
        exact orderly.unused client (Nat.le_of_succ_le above)
  · cases done

theorem Orderly.read (orderly : link.Orderly greeting) {event : WsRead}
    (done : link.read event = some next) : next.Orderly greeting := by
  unfold WsLink.read at done
  split at done <;> cases done
  · rename_i content _
    refine { orderly with inbound := ?_ }
    dsimp only
    rw [← List.append_assoc, orderly.inbound, List.flatMap_append, List.flatMap_singleton]
  · exact orderly.stage .closing
  · exact orderly.stage .draining
  · exact orderly.leave
  · exact orderly
  · exact orderly
  · exact orderly
  · exact orderly.leave

/-- The next message of the queue is taken; the socket gets it unless it fails for good. -/
theorem Orderly.write (orderly : link.Orderly greeting) {outcome : WsWrite}
    (done : link.write outcome = some next) : next.Orderly greeting := by
  unfold WsLink.write at done
  split at done
  · rename_i client _ connected
    split at done
    · cases done
      exact orderly.stage .flushing
    · rename_i message found
      obtain ⟨greeted, front, sort, frames, isFront, few, bound, all⟩ := orderly.given client
      have whole := all connected
      have inside : link.taken client < (link.server.queues client).length :=
        (List.getElem?_eq_some_iff.mp found).1
      have further : front ++ [message] <+: link.server.queues client := by
        have isTake : front = (link.server.queues client).take (link.taken client) := by
          rw [← whole]
          exact (List.prefix_iff_eq_take.mp isFront)
        rw [isTake, ← Option.toList_some, ← found, ← List.take_add_one]
        exact List.take_prefix _ _
      have joined : client < link.server.count := by
        have last := orderly.registered.known client connected
        exact orderly.registered.bounded client (List.mem_of_getLast? last)
      have others : ∀ other, other ≠ client →
          Function.update link.taken client (link.taken client + 1) other = link.taken other :=
        fun other apart => Function.update_of_ne apart _ _
      have unused : ∀ other, link.server.count ≤ other →
          Function.update link.taken client (link.taken client + 1) other = 0 := by
        intro other above
        rw [others other (by omega)]
        exact orderly.unused other above
      have given : Orderly greeting { link with
          taken := Function.update link.taken client (link.taken client + 1)
          frames := Function.update link.frames client (link.frames client ++ [message]) } := by
        refine ⟨orderly.registered, orderly.dispersed, ?_, unused, orderly.inbound⟩
        intro other
        by_cases same : other = client
        · subst same
          refine ⟨greeted, front ++ [message], sort, ?_, further, ?_, ?_, ?_⟩
          · dsimp only
            rw [Function.update_self, frames, List.append_assoc]
          · simp [whole]
          · exact Nat.le_trans (Nat.le_of_eq (Function.update_self _ _ _)) inside
          · intro _
            simp [whole]
        · obtain ⟨greeted, front, sort, frames, isFront, few, bound, _⟩ := orderly.given other
          refine ⟨greeted, front, sort, ?_, isFront, ?_, ?_, ?_⟩
          · exact (Function.update_of_ne same _ _).trans frames
          · exact Nat.le_trans few (Nat.le_of_eq (others other same).symm)
          · exact Nat.le_trans (Nat.le_of_eq (others other same)) bound
          · intro here
            exact absurd (Option.some.inj (connected.symm.trans here)).symm same
      split at done <;> cases done
      · exact given
      · exact given.stage .flushing
      · refine ⟨orderly.leave.registered, orderly.leave.dispersed, ?_, unused, orderly.inbound⟩
        intro other
        by_cases same : other = client
        · subst same
          refine ⟨greeted, front, sort, frames, isFront, ?_, ?_, nofun⟩
          · simp [WsLink.leave, whole]
          · exact Nat.le_trans (Nat.le_of_eq (Function.update_self _ _ _)) inside
        · obtain ⟨greeted, front, sort, frames, isFront, few, bound, _⟩ := orderly.given other
          refine ⟨greeted, front, sort, frames, isFront, ?_, ?_, nofun⟩
          · exact Nat.le_trans few (Nat.le_of_eq (others other same).symm)
          · exact Nat.le_trans (Nat.le_of_eq (others other same)) bound
  · cases done

theorem Orderly.forwards (orderly : link.Orderly greeting) {action : WsAction}
    (forwarding : action ∈ [.check, .receive, .timeout, .recheck, .forward])
    (done : link.onServer action = some next) : next.Orderly greeting := by
  obtain ⟨server, stepped, rfl⟩ := Option.map_eq_some_iff.mp done
  have registered := WsServer.step_registered orderly.registered stepped
  have dispersed := orderly.dispersed
  simp only [List.mem_cons, List.not_mem_nil, or_false] at forwarding
  rcases forwarding with rfl | rfl | rfl | rfl | rfl
  · simp only [WsServer.step, WsServer.check] at stepped
    split at stepped
    · rename_i checking
      cases stepped
      refine orderly.onServer registered ?_ ?_ ?_ ?_
      · refine dispersed.takeRegistration.of_same ?_ rfl rfl (List.Subset.refl _)
        unfold WsServer.takeRegistration
        split <;> simp [checking, ForwarderPc.inHand]
      all_goals
        unfold WsServer.takeRegistration
        split <;> simp
    · cases stepped
  · simp only [WsServer.step, WsServer.receive] at stepped
    split at stepped
    · rename_i message rest receiving waiting
      cases stepped
      refine orderly.onServer registered ?_ rfl rfl fun _ => List.prefix_rfl
      refine dispersed.of_same ?_ rfl rfl (List.Subset.refl _)
      simp [receiving, waiting, ForwarderPc.inHand]
    · cases stepped
  · simp only [WsServer.step, WsServer.timeout] at stepped
    split at stepped
    · rename_i receiving empty
      cases stepped
      refine orderly.onServer registered ?_ rfl rfl fun _ => List.prefix_rfl
      refine dispersed.of_same ?_ rfl rfl (List.Subset.refl _)
      simp [receiving, ForwarderPc.inHand]
    · cases stepped
  · simp only [WsServer.step, WsServer.recheck] at stepped
    split at stepped
    · rename_i message taker rechecking
      cases stepped
      refine orderly.onServer registered ?_ ?_ ?_ ?_
      · refine dispersed.takeRegistration.of_same ?_ rfl rfl (List.Subset.refl _)
        unfold WsServer.takeRegistration
        split <;> simp [rechecking, ForwarderPc.inHand]
      all_goals
        unfold WsServer.takeRegistration
        split <;> simp
    · cases stepped
  · have passed := dispersed.forward orderly.registered stepped
    simp only [WsServer.step, WsServer.forward] at stepped
    split at stepped
    · cases stepped
      refine orderly.onServer registered passed ?_ ?_ ?_
      · unfold WsServer.place
        split
        · rfl
        · split <;> rfl
      · unfold WsServer.place
        split
        · rfl
        · split <;> rfl
      · intro client
        unfold WsServer.place
        split
        · exact List.prefix_rfl
        · rename_i known current
          split
          · dsimp only
            by_cases same : client = known
            · subst same
              rw [Function.update_self]
              exact List.prefix_append _ _
            · rw [Function.update_of_ne same]
          · exact List.prefix_rfl
    · cases stepped

theorem step_orderly {action : WsLinkAction} (orderly : link.Orderly greeting)
    (stepped : step greeting link action = some next) : next.Orderly greeting := by
  cases action with
  | accept =>
      simp only [step, Option.ite_none_right_eq_some, Option.some.injEq] at stepped
      obtain ⟨-, rfl⟩ := stepped
      exact orderly.stage .handshaking
  | handshake complete =>
      simp only [step, Option.ite_none_right_eq_some, Option.some.injEq] at stepped
      obtain ⟨-, rfl⟩ := stepped
      exact orderly.stage _
  | greet written =>
      simp only [step, Option.ite_none_right_eq_some, Option.some.injEq] at stepped
      obtain ⟨-, rfl⟩ := stepped
      exact orderly.stage (.registering written)
  | register => exact orderly.register stepped
  | poll =>
      simp only [step, Option.ite_none_right_eq_some, Option.some.injEq] at stepped
      obtain ⟨-, rfl⟩ := stepped
      exact orderly.stage .reading
  | read event => exact orderly.read stepped
  | write outcome => exact orderly.write stepped
  | flush outcome =>
      simp only [step, flush] at stepped
      split at stepped <;> cases stepped
      · exact orderly.leave
      · exact orderly.stage .polling
  | panic =>
      simp only [step, panic] at stepped
      split at stepped <;> cases stepped
      exact orderly.leave
  | send message =>
      simp only [step, onServer, WsServer.step, Option.map_some, Option.some.injEq] at stepped
      subst stepped
      have registered : WsServer.Registered
          { link.server with outgoing := link.server.outgoing ++ [message] } :=
        orderly.registered.of_same rfl rfl rfl
      obtain ⟨⟨passed, split, inside⟩, later⟩ := orderly.dispersed
      refine orderly.onServer registered ⟨⟨passed, ?_, inside⟩, later⟩ rfl rfl
        fun _ => List.prefix_rfl
      rw [split, List.append_assoc]
  | receive =>
      simp only [step, receive] at stepped
      split at stepped
      · cases stepped
      · rename_i line rest waiting
        cases stepped
        have inbound := orderly.inbound
        rw [waiting] at inbound
        exact { orderly with inbound := by simpa using inbound }
  | check => exact orderly.forwards (by simp) stepped
  | take => exact orderly.forwards (by simp) stepped
  | timeout => exact orderly.forwards (by simp) stepped
  | recheck => exact orderly.forwards (by simp) stepped
  | forward => exact orderly.forwards (by simp) stepped

/-- Whatever the sockets and the threads do: the application receives the lines of the texts that were
read, in order and each once; of what it sends, each message goes to one client at most, and the
clients get theirs in order behind the greeting, without a gap. -/
theorem sessions_keep_order {actions : List WsLinkAction}
    (ran : runSteps (step greeting) start actions = some link) :
    link.received ++ link.inbound = link.texts.flatMap turtleLines ∧
      (∃ passed, link.sent = passed ++ link.server.pc.inHand ++ link.server.outgoing ∧
        ((List.range link.server.count).flatMap link.server.queues).Sublist passed) ∧
      ∀ client, link.Given greeting client := by
  have orderly : link.Orderly greeting := runSteps_preserves (fun _ _ => True) (Orderly greeting)
    (fun _ _ _ orderly _ stepped => step_orderly orderly stepped) start_orderly
    (stepsMeet_of_forall (fun _ _ => trivial) _) ran
  exact ⟨orderly.inbound, orderly.dispersed.passed, orderly.given⟩

/-- Two clients, one after the other, with messages for each and a text from the second. -/
def twoSessions : List WsLinkAction :=
  [.accept, .handshake true, .greet true, .register, .check, .send "one".toList, .take, .recheck,
    .forward, .poll, .read .wouldBlock, .write .wouldBlock, .flush .done, .check, .send "two".toList,
    .take, .recheck, .forward, .panic, .accept, .handshake true, .greet false, .register, .check,
    .send "three".toList, .take, .recheck, .forward, .poll, .read (.text "a\n b ".toList),
    .read .wouldBlock, .write .done, .write .done, .flush .done, .receive]

theorem sessions_keep_order_two :
    ∃ link, runSteps (step (some "hi".toList)) start twoSessions = some link ∧
      link.frames 0 = ["hi".toList, "one".toList] ∧ link.frames 1 = ["three".toList] ∧
      link.received = [['a']] ∧ link.inbound = [['b']] ∧
      ∀ client, link.Given (some "hi".toList) client := by
  have ran : ∃ link, runSteps (step (some "hi".toList)) start twoSessions = some link ∧
      link.frames 0 = ["hi".toList, "one".toList] ∧ link.frames 1 = ["three".toList] ∧
      link.received = [['a']] ∧ link.inbound = [['b']] :=
    ⟨_, rfl, by decide, by decide, by decide, by decide⟩
  obtain ⟨link, ran, first, second, received, inbound⟩ := ran
  exact ⟨link, ran, first, second, received, inbound, (sessions_keep_order ran).2.2⟩

end WsLink

end LeanAntenna
