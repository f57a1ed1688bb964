import Antenna.DispatchCore

/-! What the router sends: the messages of a world in order, and those each handler adds. -/

namespace LeanAntenna

open Text

def Effect.sent : Effect → Option Text
  | .send line => some line
  | _ => none

namespace World

variable {Store Carrier : Type} (world : World Store Carrier)

def sent : List Text := world.effects.filterMap Effect.sent

/-- A world after some messages. -/
def sendAll (lines : List Text) : World Store Carrier :=
  { world with effects := world.effects ++ lines.map .send }

@[simp] theorem sendAll_nil : world.sendAll [] = world := by
  unfold sendAll
  rw [List.map_nil, List.append_nil]

theorem sendAll_append (front back : List Text) :
    (world.sendAll front).sendAll back = world.sendAll (front ++ back) := by
  unfold sendAll
  rw [List.map_append, List.append_assoc]

theorem send_eq_sendAll (line : Text) : world.send line = world.sendAll [line] := rfl

theorem foldl_send {Value : Type} (values : List Value) (line : Value → Text) :
    values.foldl (fun world value => world.send (line value)) world =
      world.sendAll (values.map line) := by
  induction values generalizing world with
  | nil => simp
  | cons value values ih =>
      rw [List.foldl_cons, ih, send_eq_sendAll, sendAll_append]
      rfl

/-- Rows without bindings are passed over. -/
theorem foldl_results (rows : List (List (Text × Text))) :
    rows.foldl (fun world row => if row = [] then world else world.send (resultLine row)) world =
      world.sendAll ((rows.filter (· ≠ [])).map resultLine) := by
  induction rows generalizing world with
  | nil => simp
  | cons row rows ih =>
      rw [List.foldl_cons, ih]
      by_cases unbound : row = []
      · rw [if_pos unbound, List.filter_cons_of_neg (by simpa using unbound)]
      · rw [if_neg unbound, List.filter_cons_of_pos (by simpa using unbound), send_eq_sendAll,
          sendAll_append]
        rfl

@[simp] theorem sent_sendAll (lines : List Text) : (world.sendAll lines).sent = world.sent ++ lines := by
  have own : (lines.map Effect.send).filterMap Effect.sent = lines := by
    rw [List.filterMap_map]
    exact List.filterMap_some
  rw [sent, sendAll, List.filterMap_append, own]
  rfl

@[simp] theorem sendAll_store (lines : List Text) : (world.sendAll lines).store = world.store := rfl

@[simp] theorem sent_send (line : Text) : (world.send line).sent = world.sent ++ [line] := by
  rw [send_eq_sendAll, sent_sendAll]

@[simp] theorem sent_antennaError (message : Text) :
    (world.antennaError message).sent = world.sent ++
      ["[] a antenna:Error ; antenna:message \"".toList ++ message ++ "\" .".toList] :=
  sent_send _ _

/-- An effect that is no message. -/
theorem sent_record {effect : Effect} (silent : effect.sent = none) :
    (world.record effect).sent = world.sent := by
  rw [sent, record, List.filterMap_append, List.filterMap_cons_none silent]
  simp [sent]

end World

end LeanAntenna
