import Antenna.DispatchReplies
import Antenna.SendChecks

/-!
The answer to `design:ResolveActiveTheme` over the embedded transport: one message for each triple
and the marker behind them, each sent on its own through the bounded OUT ring.
-/

namespace LeanAntenna

open Text Replay RingBuffer

def resolveThemeType : Text := designNs ++ "ResolveActiveTheme".toList

def bundleComplete (size : Nat) : Text :=
  "[] a design:ThemeBundleComplete ; design:bundleSize ".toList ++ (toString size).toList ++
    " .".toList

/-- The messages of a resolved bundle. -/
def themeBundle (triples : List TripleText) : List Text :=
  triples.map World.tripleLine ++ [bundleComplete triples.length]

theorem handleDesign_resolved {Store Carrier : Type} (world : World Store Carrier)
    {host : Host Store Carrier} {triples : List TripleText}
    (resolved : host.resolveActiveTheme world.store = .ok triples) :
    world.handleDesign host resolveThemeType = world.sendAll (themeBundle triples) := by
  have name : resolveThemeType.drop designNs.length = "ResolveActiveTheme".toList :=
    List.drop_left
  unfold World.handleDesign
  rw [name, if_pos rfl, resolved]
  dsimp only
  rw [World.foldl_send, World.send_eq_sendAll, World.sendAll_append]
  rfl

/-- What the router sends for a request in a world. -/
def designMessages {Store Carrier : Type} (host : Host Store Carrier)
    (world : World Store Carrier) : List Text :=
  (({ world with effects := [] }).handleDesign host resolveThemeType).sent

theorem designMessages_resolved {Store Carrier : Type} {world : World Store Carrier}
    {host : Host Store Carrier} {triples : List TripleText}
    (resolved : host.resolveActiveTheme world.store = .ok triples) :
    designMessages host world = themeBundle triples := by
  unfold designMessages
  rw [handleDesign_resolved { world with effects := [] } resolved, World.sent_sendAll]
  rfl

/-- A sequence of sends through `ChannelOut` while the embedder drains: the messages still to send,
the attempts at the first of them, and the messages accepted and received since the first send. A
message that finds no room in all its attempts is dropped. -/
structure Emitting where
  ring : RingBuffer
  remaining : List (List UInt8)
  attempt : Nat
  accepted : List (List UInt8)
  received : List (List UInt8)

inductive EmitAction where
  | attempt
  | drain
deriving DecidableEq, Repr

namespace Emitting

def start (ring : RingBuffer) (messages : List (List UInt8)) : Emitting :=
  { ring, remaining := messages, attempt := 0, accepted := [], received := [] }

/-- One attempt of `ChannelWriter::send` at the next message. -/
def push (emitting : Emitting) : Emitting :=
  match emitting.remaining with
  | [] => emitting
  | message :: rest =>
      match emitting.ring.push message with
      | (ring, true) =>
          { emitting with
            ring
            remaining := rest
            attempt := 0
            accepted := emitting.accepted ++ [message] }
      | (ring, false) =>
          if emitting.attempt + 1 < sendAttempts then
            { emitting with ring, attempt := emitting.attempt + 1 }
          else { emitting with ring, remaining := rest, attempt := 0 }

/-- One `antenna_drain` of the embedder. -/
def drain (emitting : Emitting) : Emitting :=
  match emitting.ring.pop with
  | (ring, some data) => { emitting with ring, received := emitting.received ++ [data] }
  | (ring, none) => { emitting with ring }

def step (emitting : Emitting) : EmitAction → Emitting
  | .attempt => emitting.push
  | .drain => emitting.drain

/-- The marker is received only behind the previous messages and all others of the bundle. -/
def Complete (initial messages : List (List UInt8)) (marker : List UInt8) (emitting : Emitting) :
    Prop :=
  ∀ taken, emitting.received = initial ++ taken → marker ∈ taken → taken = messages ++ [marker]

/-- The bytes that are free in the ring. -/
def free (emitting : Emitting) : Nat :=
  emitting.ring.capacity.toNat - (emitting.ring.head - emitting.ring.tail).toNat

/-- The last attempt at a message that another one follows finds room for it; and no message is so
long that its size wraps. -/
def HasRoom (emitting : Emitting) (action : EmitAction) : Prop :=
  action = .attempt → ∀ message ∈ emitting.remaining.head?, Short message ∧
    (1 < emitting.remaining.length → sendAttempts ≤ emitting.attempt + 1 →
      encodedSize message ≤ emitting.free)

/-- What was sent so far reached the ring, in order; at most the last message was dropped. -/
inductive Progress (messages : List (List UInt8)) (marker : List UInt8) (emitting : Emitting) : Prop
  where
  | whole (split : emitting.accepted ++ emitting.remaining = messages ++ [marker])
  | unmarked (all : emitting.accepted = messages) (idle : emitting.remaining = [])

/-- The ring holds what lay in it and what it accepted, less what the embedder received. -/
structure Steady (initial messages : List (List UInt8)) (marker : List UInt8) (emitting : Emitting)
    (base : Nat) (queue : List (List UInt8)) : Prop where
  represents : emitting.ring.Represents base queue
  balance : emitting.received ++ queue = initial ++ emitting.accepted
  progress : emitting.Progress messages marker

section Steps

variable {emitting : Emitting} {initial messages queue rest : List (List UInt8)}
  {marker message : List UInt8} {base : Nat}

theorem free_eq (represents : emitting.ring.Represents base queue) :
    emitting.free = emitting.ring.capacity.toNat - (encodeAll queue).length := by
  rw [free, represents.used_toNat]

theorem push_accepted (next : emitting.remaining = message :: rest)
    (represents : emitting.ring.Represents base queue) (short : Short message)
    (room : encodedSize message ≤ emitting.free) :
    emitting.push = { emitting with
      ring := (emitting.ring.push message).1
      remaining := rest
      attempt := 0
      accepted := emitting.accepted ++ [message] } := by
  rw [free_eq represents] at room
  have pushed : emitting.ring.push message = ((emitting.ring.push message).1, true) :=
    Prod.ext rfl ((represents.push_result short).mpr room)
  rw [push, next]
  dsimp only
  rw [pushed]

theorem push_refused (next : emitting.remaining = message :: rest)
    (represents : emitting.ring.Represents base queue) (short : Short message)
    (full : emitting.free < encodedSize message) :
    emitting.push =
      if emitting.attempt + 1 < sendAttempts then
        { emitting with attempt := emitting.attempt + 1 }
      else { emitting with remaining := rest, attempt := 0 } := by
  rw [free_eq represents] at full
  rw [push, next]
  dsimp only
  rw [represents.push_full short full]

/-- A message that is taken up goes from the rest to the ring. -/
theorem Progress.accept (progress : emitting.Progress messages marker)
    (next : emitting.remaining = message :: rest) {later : Emitting}
    (left : later.remaining = rest) (gained : later.accepted = emitting.accepted ++ [message]) :
    later.Progress messages marker := by
  cases progress with
  | whole split =>
      apply Progress.whole
      rw [left, gained, List.append_assoc, List.singleton_append, ← next, split]
  | unmarked all idle =>
      rw [idle] at next
      cases next

/-- Of the messages only the marker may be dropped. -/
theorem Progress.skip (progress : emitting.Progress messages marker)
    (next : emitting.remaining = [message]) {later : Emitting}
    (left : later.remaining = []) (same : later.accepted = emitting.accepted) :
    later.Progress messages marker := by
  cases progress with
  | whole split =>
      rw [next] at split
      apply Progress.unmarked _ left
      rw [same]
      exact (List.append_inj' split rfl).1
  | unmarked all idle =>
      rw [idle] at next
      cases next

theorem Progress.same (progress : emitting.Progress messages marker) {later : Emitting}
    (left : later.remaining = emitting.remaining) (same : later.accepted = emitting.accepted) :
    later.Progress messages marker := by
  cases progress with
  | whole split => exact .whole (by rw [left, same, split])
  | unmarked all idle => exact .unmarked (same.trans all) (left.trans idle)

theorem push_steady (steady : emitting.Steady initial messages marker base queue)
    (roomy : emitting.HasRoom .attempt) :
    ∃ queue, emitting.push.Steady initial messages marker base queue := by
  obtain ⟨represents, balance, progress⟩ := steady
  cases next : emitting.remaining with
  | nil =>
      have stays : emitting.push = emitting := by rw [push, next]
      rw [stays]
      exact ⟨queue, represents, balance, progress⟩
  | cons message rest =>
      obtain ⟨short, lasts⟩ := roomy rfl message (by rw [next]; rfl)
      by_cases room : encodedSize message ≤ emitting.free
      · rw [push_accepted next represents short room]
        refine ⟨queue ++ [message], ?_, ?_, progress.accept next rfl rfl⟩
        · rw [free_eq represents] at room
          exact represents.push_accept short room
        · rw [← List.append_assoc, balance, List.append_assoc]
      · rw [push_refused next represents short (by omega)]
        refine ⟨queue, ?_⟩
        split
        · exact ⟨represents, balance, progress.same rfl rfl⟩
        · rename_i beyond
          refine ⟨represents, balance, ?_⟩
          cases rest with
          | nil => exact progress.skip next rfl rfl
          | cons other rest =>
              exact absurd (lasts (by simp [next]) (Nat.le_of_not_lt beyond)) room

theorem drain_message {data : List UInt8}
    (represents : emitting.ring.Represents base (data :: queue)) :
    emitting.drain = { emitting with
      ring := emitting.ring.pop.1
      received := emitting.received ++ [data] } := by
  have outcome : emitting.ring.pop = (emitting.ring.pop.1, some data) :=
    Prod.ext rfl represents.pop_message.1
  rw [drain, outcome]

theorem drain_steady (steady : emitting.Steady initial messages marker base queue) :
    ∃ base queue, emitting.drain.Steady initial messages marker base queue := by
  obtain ⟨represents, balance, progress⟩ := steady
  cases queue with
  | nil =>
      have stays : emitting.drain = emitting := by rw [drain, represents.pop_empty]
      rw [stays]
      exact ⟨base, [], represents, balance, progress⟩
  | cons data queue =>
      rw [drain_message represents]
      exact ⟨_, queue, represents.pop_message.2, by simpa using balance, progress.same rfl rfl⟩

theorem run_steady {actions : List EmitAction}
    (steady : emitting.Steady initial messages marker base queue)
    (roomy : Throughout step HasRoom emitting actions) :
    ∃ base queue, (replay step emitting actions).Steady initial messages marker base queue := by
  induction actions generalizing emitting base queue with
  | nil => exact ⟨base, queue, steady⟩
  | cons action actions ih =>
      cases action with
      | attempt =>
          obtain ⟨_, next⟩ := push_steady steady roomy.1
          exact ih next roomy.2
      | drain =>
          obtain ⟨_, _, next⟩ := drain_steady steady
          exact ih next roomy.2

theorem Steady.complete (steady : emitting.Steady initial messages marker base queue)
    (other : marker ∉ messages) : emitting.Complete initial messages marker := by
  intro taken received marked
  have split : taken ++ queue = emitting.accepted := by
    have balance := steady.balance
    rw [received, List.append_assoc] at balance
    exact List.append_cancel_left balance
  cases steady.progress with
  | whole whole =>
      rw [← split, List.append_assoc] at whole
      -- the marker is the last of all messages, so nothing is left behind it
      rcases List.append_eq_append_iff.mp whole with ⟨more, all, later⟩ | ⟨more, front, later⟩
      · rw [all] at other
        exact absurd (List.mem_append_left _ marked) other
      · cases more with
        | nil =>
            rw [front, List.append_nil] at marked
            exact absurd marked other
        | cons head more =>
            rw [List.cons_append] at later
            obtain ⟨same, rest⟩ := List.cons.inj later
            have empty : more = [] := (List.append_eq_nil_iff.mp rest.symm).1
            rw [front, ← same, empty]
  | unmarked all idle =>
      rw [← all, ← split] at other
      exact absurd (List.mem_append_left _ marked) other

end Steps

theorem start_steady {ring : RingBuffer} {initial messages : List (List UInt8)}
    {marker : List UInt8} {base : Nat} (represents : ring.Represents base initial) :
    (start ring (messages ++ [marker])).Steady initial messages marker base initial :=
  ⟨represents, by simp [start], .whole rfl⟩

end Emitting

theorem tripleLine_ne_bundleComplete {triple : TripleText} (named : triple.subject.head? ≠ some '[')
    (nonempty : triple.subject ≠ []) (size : Nat) : World.tripleLine triple ≠ bundleComplete size := by
  intro same
  obtain ⟨c, rest, subject⟩ := List.exists_cons_of_ne_nil nonempty
  have heads := congrArg List.head? same
  rw [World.tripleLine, subject] at heads
  rw [subject] at named
  exact named heads

/-- In every run in which each triple's message finds room in its last attempt, the embedder that
receives the marker has received all messages of the bundle before it. -/
theorem bundle_complete {Store Carrier : Type} {host : Host Store Carrier}
    {world : World Store Carrier} {triples : List TripleText}
    (resolved : host.resolveActiveTheme world.store = .ok triples)
    (named : ∀ triple ∈ triples, triple.subject ≠ [] ∧ triple.subject.head? ≠ some '[')
    {ring : RingBuffer} {initial : List (List UInt8)} {base : Nat}
    (represents : ring.Represents base initial) {actions : List EmitAction}
    (roomy : Throughout Emitting.step Emitting.HasRoom
      (Emitting.start ring ((designMessages host world).map Utf8.encode)) actions) :
    (replay Emitting.step (Emitting.start ring ((designMessages host world).map Utf8.encode))
      actions).Complete initial ((triples.map World.tripleLine).map Utf8.encode)
        (Utf8.encode (bundleComplete triples.length)) := by
  have messages : (designMessages host world).map Utf8.encode =
      (triples.map World.tripleLine).map Utf8.encode ++
        [Utf8.encode (bundleComplete triples.length)] := by
    rw [designMessages_resolved resolved]
    exact List.map_append
  rw [messages] at roomy ⊢
  obtain ⟨_, _, steady⟩ := Emitting.run_steady (Emitting.start_steady represents) roomy
  apply steady.complete
  intro member
  obtain ⟨line, listed, same⟩ := List.mem_map.mp member
  obtain ⟨triple, inTriples, rfl⟩ := List.mem_map.mp listed
  obtain ⟨nonempty, plain⟩ := named triple inTriples
  have decoded := congrArg Utf8.decode same
  rw [Utf8.decode_encode, Utf8.decode_encode] at decoded
  exact tripleLine_ne_bundleComplete plain nonempty _ (Option.some.inj decoded)

section Dropped

open Emitting

/-- A message that finds no room in any of its attempts is dropped. -/
theorem attempts_drop {emitting : Emitting} {base : Nat} {queue rest : List (List UInt8)}
    {message : List UInt8} (left : Nat) (few : emitting.attempt + left + 1 = sendAttempts)
    (next : emitting.remaining = message :: rest)
    (represents : emitting.ring.Represents base queue) (short : Short message)
    (full : emitting.free < encodedSize message) :
    replay step emitting (List.replicate (left + 1) .attempt) =
      { emitting with remaining := rest, attempt := 0 } := by
  induction left generalizing emitting with
  | zero =>
      change emitting.push = _
      rw [push_refused next represents short full, if_neg (by omega)]
  | succ left ih =>
      rw [List.replicate_succ]
      change replay step emitting.push _ = _
      rw [push_refused next represents short full, if_pos (by omega)]
      exact ih (by simp only; omega) next represents full

/-- The messages of a bundle of one triple are lost in front of the marker when the embedder drains
only after the last attempt at the triple. -/
theorem marker_alone {ring : RingBuffer} {base : Nat} {earlier message marker : List UInt8}
    (represents : ring.Represents base [earlier]) (short : Short message) (shortMarker : Short marker)
    (full : (start ring [message, marker]).free < encodedSize message)
    (room : encodedSize marker ≤ ring.capacity.toNat) :
    (replay step (start ring [message, marker])
      (List.replicate sendAttempts .attempt ++ [.drain, .attempt, .drain])).received =
        [earlier, marker] := by
  have dropped : replay step (start ring [message, marker]) (List.replicate sendAttempts .attempt) =
      { start ring [message, marker] with remaining := [marker], attempt := 0 } :=
    attempts_drop 19 rfl rfl represents short full
  rw [replay_append, dropped]
  have empty := represents.pop_message.2
  have drained : drain { start ring [message, marker] with remaining := [marker], attempt := 0 } =
      { start ring [message, marker] with
        ring := ring.pop.1
        remaining := [marker]
        attempt := 0
        received := [earlier] } := drain_message represents
  have fits : encodedSize marker ≤ ring.pop.1.capacity.toNat - (encodeAll []).length := by
    rw [(RingBuffer.pop_shape _).2.1]
    exact room
  have pushed : push { start ring [message, marker] with
        ring := ring.pop.1
        remaining := [marker]
        attempt := 0
        received := [earlier] } =
      { start ring [message, marker] with
        ring := (ring.pop.1.push marker).1
        remaining := []
        attempt := 0
        accepted := [marker]
        received := [earlier] } := by
    apply push_accepted rfl empty shortMarker
    rw [free_eq empty]
    exact fits
  change (drain (push (drain _))).received = _
  rw [drained, pushed, drain_message (empty.push_accept shortMarker fits)]
  rfl

def accentTriple : TripleText :=
  ⟨"<urn:role:accent>".toList, "<urn:resolvesTo>".toList, "<urn:red>".toList⟩

/-- A store whose active theme resolves to one triple. -/
def accentHost : Host Unit Unit where
  query _ _ := .ok (.boolean true)
  update store _ := (store, .ok ())
  insertTurtle store _ := (store, .ok ())
  resolveActiveTheme _ := .ok [accentTriple]
  verifySignedBlocklist _ _ := .ok []
  call _ _ := ((), .ok [])

def accentWorld : World Unit Unit := ⟨(), (), none, []⟩

theorem accentMessages : (designMessages accentHost accentWorld).map Utf8.encode =
    [Utf8.encode (World.tripleLine accentTriple), Utf8.encode (bundleComplete 1)] := by
  have resolved : accentHost.resolveActiveTheme accentWorld.store = .ok [accentTriple] := rfl
  rw [designMessages_resolved resolved]
  rfl

theorem accent_short : 2 ≤ (Utf8.encode (World.tripleLine accentTriple)).length ∧
    (Utf8.encode (World.tripleLine accentTriple)).length ≤ 64 ∧
    (Utf8.encode (bundleComplete 1)).length ≤ 64 ∧
    Utf8.encode (World.tripleLine accentTriple) ≠ Utf8.encode (bundleComplete 1) := by
  decide

theorem marker_without_triple_of {size : Nat} (tight : size + 9 = 2 ^ 20) :
    ¬ (replay step (start (Sending.loaded size)
        ((designMessages accentHost accentWorld).map Utf8.encode))
        (List.replicate sendAttempts .attempt ++ [.drain, .attempt, .drain])).Complete
      [Sending.bulk size] (([accentTriple].map World.tripleLine).map Utf8.encode)
      (Utf8.encode (bundleComplete 1)) := by
  obtain ⟨represents, sized⟩ := Sending.loaded_represents (show 4 + size ≤ 2 ^ 20 by omega)
  obtain ⟨long, short, shortMarker, differ⟩ := accent_short
  rw [accentMessages]
  intro complete
  have lost : (replay step (start (Sending.loaded size)
      [Utf8.encode (World.tripleLine accentTriple), Utf8.encode (bundleComplete 1)])
      (List.replicate sendAttempts .attempt ++ [.drain, .attempt, .drain])).received =
        [Sending.bulk size, Utf8.encode (bundleComplete 1)] := by
    apply marker_alone represents
    · rw [Short]
      omega
    · rw [Short]
      omega
    · rw [free_eq represents]
      change (Sending.loaded size).capacity.toNat - _ < _
      rw [sized, Sending.bulk_encoded, encodedSize]
      omega
    · rw [sized, encodedSize]
      omega
  have alone := complete [Utf8.encode (bundleComplete 1)] lost (List.mem_singleton_self _)
  simp at alone

/-- While a message of the embedder's fills the ring, the bundle's only triple is dropped, and the
marker that follows is received without it. -/
theorem marker_without_triple :
    ¬ (replay step (start (Sending.loaded 1048567)
        ((designMessages accentHost accentWorld).map Utf8.encode))
        (List.replicate sendAttempts .attempt ++ [.drain, .attempt, .drain])).Complete
      [Sending.bulk 1048567] (([accentTriple].map World.tripleLine).map Utf8.encode)
      (Utf8.encode (bundleComplete 1)) :=
  marker_without_triple_of (by norm_num)

theorem accent_room : Throughout step HasRoom
    (start (RingBuffer.new ffiRingBytes) ((designMessages accentHost accentWorld).map Utf8.encode))
    [.attempt, .attempt, .drain, .drain] := by
  obtain ⟨-, short, shortMarker, -⟩ := accent_short
  rw [accentMessages]
  have empty := new_represents Sending.ffiRing_divides
  have pushed : Emitting.push (start (RingBuffer.new ffiRingBytes)
      [Utf8.encode (World.tripleLine accentTriple), Utf8.encode (bundleComplete 1)]) =
      { start (RingBuffer.new ffiRingBytes) [] with
        ring := ((RingBuffer.new ffiRingBytes).push
          (Utf8.encode (World.tripleLine accentTriple))).1
        remaining := [Utf8.encode (bundleComplete 1)]
        accepted := [Utf8.encode (World.tripleLine accentTriple)] } := by
    apply push_accepted rfl empty
    · rw [Short]
      omega
    · rw [free_eq empty]
      change _ ≤ (RingBuffer.new ffiRingBytes).capacity.toNat - _
      rw [Sending.ffiRing_capacity, encodedSize]
      simp only [encodeAll_nil, List.length_nil]
      omega
  have drains : ∀ emitting : Emitting, emitting.HasRoom .drain := fun _ acts => by cases acts
  refine ⟨?_, ?_, drains _, drains _, trivial⟩
  · rintro - message first
    obtain rfl : Utf8.encode (World.tripleLine accentTriple) = message := by
      simpa [start] using first
    refine ⟨by rw [Short]; omega, ?_⟩
    intro _ late
    exact absurd late (by decide)
  · rintro - message first
    change message ∈ (Emitting.push _).remaining.head? at first
    change Short message ∧ (1 < (Emitting.push _).remaining.length → _)
    rw [pushed] at first ⊢
    obtain rfl : Utf8.encode (bundleComplete 1) = message := by simpa using first
    exact ⟨by rw [Short]; omega, fun more => absurd more (by simp)⟩

/-- Into an empty ring the triple goes with its first attempt, and the marker behind it. -/
theorem bundle_complete_empty :
    (replay step (start (RingBuffer.new ffiRingBytes)
        ((designMessages accentHost accentWorld).map Utf8.encode))
      [.attempt, .attempt, .drain, .drain]).Complete []
        (([accentTriple].map World.tripleLine).map Utf8.encode)
        (Utf8.encode (bundleComplete 1)) := by
  have resolved : accentHost.resolveActiveTheme accentWorld.store = .ok [accentTriple] := rfl
  exact bundle_complete resolved (by decide) (new_represents Sending.ffiRing_divides) accent_room

end Dropped

end LeanAntenna
