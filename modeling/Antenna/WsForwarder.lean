import Antenna.Library.Text
import Antenna.Library.Transition
import Mathlib.Data.List.Pairwise
import Mathlib.Logic.Function.Basic

/-!
The forwarder thread of the WebSocket server. The accept loop handles one client at a time and
registers each; the forwarder takes at most one registration before it waits for a message and one
before it passes the message on.
-/

namespace LeanAntenna

open Transition

/-- Where the forwarder stands in its loop. A message goes along with the client that was connected
when it was taken. -/
inductive ForwarderPc where
  | checking
  | receiving
  | rechecking (message : Text) (taker : Option Nat)
  | forwarding (message : Text) (taker : Option Nat)
deriving DecidableEq, Repr

/-- Clients are numbered as they register, and `queues` is what was placed on their channels. -/
structure WsServer where
  count : Nat
  connected : Option Nat
  registrations : List Nat
  outgoing : List Text
  current : Option Nat
  pc : ForwarderPc
  queues : Nat → List Text

inductive WsAction where
  | register
  | disconnect
  | send (message : Text)
  | check
  | receive
  | timeout
  | recheck
  | forward
deriving DecidableEq, Repr

namespace WsServer

def start : WsServer := ⟨0, none, [], [], none, .checking, fun _ => []⟩

/-- A client is connected only when the one before it is gone. -/
def register (server : WsServer) : Option WsServer :=
  match server.connected with
  | some _ => none
  | none => some { server with
      count := server.count + 1
      connected := some server.count
      registrations := server.registrations ++ [server.count] }

def disconnect (server : WsServer) : Option WsServer :=
  match server.connected with
  | some _ => some { server with connected := none }
  | none => none

/-- `if let Ok(new_tx) = client_tx_receiver.try_recv() { current_client = Some(new_tx) }` -/
def takeRegistration (server : WsServer) : WsServer :=
  match server.registrations with
  | client :: rest => { server with current := some client, registrations := rest }
  | [] => server

def check (server : WsServer) : Option WsServer :=
  match server.pc with
  | .checking => some { server.takeRegistration with pc := .receiving }
  | _ => none

def receive (server : WsServer) : Option WsServer :=
  match server.pc, server.outgoing with
  | .receiving, message :: rest =>
      some { server with outgoing := rest, pc := .rechecking message server.connected }
  | _, _ => none

/-- `recv_timeout` gives up after 100 ms without a message. -/
def timeout (server : WsServer) : Option WsServer :=
  match server.pc, server.outgoing with
  | .receiving, [] => some { server with pc := .checking }
  | _, _ => none

def recheck (server : WsServer) : Option WsServer :=
  match server.pc with
  | .rechecking message taker =>
      some { server.takeRegistration with pc := .forwarding message taker }
  | _ => none

/-- The sender of a client that is gone fails, and the message is lost. -/
def place (server : WsServer) (message : Text) : WsServer :=
  match server.current with
  | none => server
  | some client =>
      if server.connected = some client then
        { server with
          queues := Function.update server.queues client (server.queues client ++ [message]) }
      else { server with current := none }

def forward (server : WsServer) : Option WsServer :=
  match server.pc with
  | .forwarding message _ => some { server.place message with pc := .checking }
  | _ => none

def step (server : WsServer) : WsAction → Option WsServer
  | .register => server.register
  | .disconnect => server.disconnect
  | .send message => some { server with outgoing := server.outgoing ++ [message] }
  | .check => server.check
  | .receive => server.receive
  | .timeout => server.timeout
  | .recheck => server.recheck
  | .forward => server.forward

/-- A message taken and passed on while one client is connected is placed on that client's queue,
behind those before it, and nowhere else. -/
def Delivered (server : WsServer) : WsAction → Prop
  | .forward => ∀ message client, server.pc = .forwarding message (some client) →
      server.connected = some client → ∀ next, server.forward = some next →
        next.queues = Function.update server.queues client (server.queues client ++ [message])
  | _ => True

/-- No registration is left on the channel where such a message is passed on. -/
def CaughtUp (server : WsServer) : WsAction → Prop
  | .forward => ∀ message client, server.pc = .forwarding message (some client) →
      server.connected = some client → server.registrations = []
  | _ => True

/-- Registrations come in the order of the clients, behind the one the forwarder knows; the client
that is connected is the last of them. -/
structure Registered (server : WsServer) : Prop where
  increasing : (server.current.toList ++ server.registrations).Pairwise (· < ·)
  bounded : ∀ client ∈ server.current.toList ++ server.registrations, client < server.count
  known : ∀ client, server.connected = some client →
    (server.current.toList ++ server.registrations).getLast? = some client

theorem start_registered : start.Registered := by
  refine ⟨?_, ?_, ?_⟩ <;> simp [start]

/-- Nothing but the waiting registrations, the known client and the connection matters. -/
theorem Registered.of_same {server next : WsServer} (registered : server.Registered)
    (count : next.count = server.count) (connected : next.connected = server.connected)
    (clients : next.current.toList ++ next.registrations =
      server.current.toList ++ server.registrations) : next.Registered := by
  refine ⟨?_, ?_, ?_⟩
  · rw [clients]
    exact registered.increasing
  · rw [clients, count]
    exact registered.bounded
  · rw [clients, connected]
    exact registered.known

theorem Registered.takeRegistration {server : WsServer} (registered : server.Registered) :
    server.takeRegistration.Registered := by
  unfold WsServer.takeRegistration
  split
  · rename_i client rest waiting
    obtain ⟨increasing, bounded, known⟩ := registered
    rw [waiting] at increasing bounded known
    have later := (List.pairwise_append.mp increasing).2.1
    refine ⟨later, ?_, ?_⟩
    · intro other member
      exact bounded other (List.mem_append_right _ member)
    · intro other connected
      have last := known other connected
      rw [List.getLast?_append_of_ne_nil _ (List.cons_ne_nil client rest)] at last
      exact last
  · exact registered

theorem Registered.register {server next : WsServer} (registered : server.Registered)
    (done : server.register = some next) : next.Registered := by
  unfold WsServer.register at done
  split at done
  · cases done
  · cases done
    refine ⟨?_, ?_, ?_⟩
    · rw [← List.append_assoc, List.pairwise_append]
      refine ⟨registered.increasing, List.pairwise_singleton _ _, ?_⟩
      intro client member other new
      rw [List.mem_singleton.mp new]
      exact registered.bounded client member
    · intro client member
      rw [← List.append_assoc] at member
      rcases List.mem_append.mp member with old | new
      · exact Nat.lt_succ_of_lt (registered.bounded client old)
      · rw [List.mem_singleton.mp new]
        exact Nat.lt_succ_self _
    · intro client connected
      cases connected
      rw [← List.append_assoc, List.getLast?_append_of_ne_nil _ (List.cons_ne_nil _ _)]
      rfl

theorem Registered.forget {server : WsServer} (registered : server.Registered) {client : Nat}
    (current : server.current = some client) (gone : server.connected ≠ some client) :
    { server with current := none }.Registered := by
  obtain ⟨increasing, bounded, known⟩ := registered
  rw [current] at increasing bounded known
  refine ⟨(List.pairwise_append.mp increasing).2.1, ?_, ?_⟩
  · intro other member
    exact bounded other (List.mem_append_right _ member)
  · intro other connected
    have last := known other connected
    cases waiting : server.registrations with
    | nil =>
        rw [waiting] at last
        have same : client = other := by simpa using last
        exact absurd (same ▸ connected) gone
    | cons first rest =>
        rw [waiting, List.getLast?_append_of_ne_nil _ (List.cons_ne_nil first rest)] at last
        simpa [waiting] using last

theorem Registered.place {server : WsServer} (registered : server.Registered) (message : Text) :
    (server.place message).Registered := by
  unfold WsServer.place
  split
  · exact registered
  · rename_i client current
    split
    · exact registered.of_same rfl rfl rfl
    · rename_i gone
      exact registered.forget current gone

theorem step_registered {server next : WsServer} {action : WsAction}
    (registered : server.Registered) (stepped : step server action = some next) :
    next.Registered := by
  cases action with
  | register => exact registered.register stepped
  | disconnect =>
      simp only [step, disconnect] at stepped
      split at stepped
      · cases stepped
        exact ⟨registered.increasing, registered.bounded, by simp⟩
      · cases stepped
  | send message =>
      cases stepped
      exact registered.of_same rfl rfl rfl
  | check =>
      simp only [step, check] at stepped
      split at stepped
      · cases stepped
        exact registered.takeRegistration.of_same rfl rfl rfl
      · cases stepped
  | receive =>
      simp only [step, receive] at stepped
      split at stepped
      · cases stepped
        exact registered.of_same rfl rfl rfl
      · cases stepped
  | timeout =>
      simp only [step, timeout] at stepped
      split at stepped
      · cases stepped
        exact registered.of_same rfl rfl rfl
      · cases stepped
  | recheck =>
      simp only [step, recheck] at stepped
      split at stepped
      · cases stepped
        exact registered.takeRegistration.of_same rfl rfl rfl
      · cases stepped
  | forward =>
      simp only [step, forward] at stepped
      split at stepped
      · rename_i message _ _
        cases stepped
        exact (registered.place message).of_same rfl rfl rfl
      · cases stepped

/-- The forwarder knows the connected client exactly if no registration is left. -/
theorem Registered.current_iff {server : WsServer} (registered : server.Registered) {client : Nat}
    (connected : server.connected = some client) :
    server.current = some client ↔ server.registrations = [] := by
  have last := registered.known client connected
  constructor
  · intro current
    by_contra waiting
    rw [List.getLast?_append_of_ne_nil _ waiting] at last
    have increasing := registered.increasing
    rw [current] at increasing
    have below := (List.pairwise_append.mp increasing).2.2 client (by simp) client
      (List.mem_of_getLast? last)
    exact Nat.lt_irrefl client below
  · intro none
    rw [none, List.append_nil] at last
    cases current : server.current with
    | none => simp [current] at last
    | some other => simpa [current] using last

theorem delivered_iff_caughtUp {server : WsServer} {action : WsAction}
    (registered : server.Registered) : server.Delivered action ↔ server.CaughtUp action := by
  cases action with
  | forward =>
      apply forall_congr'
      intro message
      apply forall_congr'
      intro client
      apply imp_congr_right
      intro passing
      apply imp_congr_right
      intro connected
      rw [← registered.current_iff connected]
      have done : server.forward = some { server.place message with pc := .checking } := by
        rw [forward, passing]
      constructor
      · intro delivered
        have queues := delivered _ done
        by_contra other
        have kept : (server.place message).queues = server.queues := by
          unfold place
          split
          · rfl
          · rename_i known current
            have apart : server.connected ≠ some known := by
              rw [connected]
              rintro same
              exact other (current.trans same.symm)
            rw [if_neg apart]
        have longer := congrFun (kept.symm.trans queues) client
        rw [Function.update_self] at longer
        simp at longer
      · intro current next passed
        rw [done] at passed
        cases passed
        simp only [place, current, connected, if_true]
  | _ => exact Iff.rfl

/-- Every message that is taken and passed on while a client is connected reaches that client's
queue, in order and alone, exactly if no registration is left behind where one is passed on. -/
theorem messages_delivered_iff (actions : List WsAction) :
    StepsMeet step Delivered start actions ↔ StepsMeet step CaughtUp start actions :=
  stepsMeet_congr Registered (fun _ _ _ => step_registered)
    (fun _ _ => delivered_iff_caughtUp) start_registered

/-- A client connects, leaves and is followed by another while the forwarder waits. The message for
the second goes to the first, whose queue is gone. -/
theorem reconnect_loses_message :
    ∃ server, runSteps step start [.check, .register, .disconnect, .register,
        .send "hello".toList, .receive, .recheck] = some server ∧
      server.pc = .forwarding "hello".toList (some 1) ∧ server.connected = some 1 ∧
        ∃ next, step server .forward = some next ∧ next.queues 1 = [] ∧ next.outgoing = [] := by
  refine ⟨_, rfl, rfl, rfl, _, rfl, rfl, rfl⟩

end WsServer

end LeanAntenna
