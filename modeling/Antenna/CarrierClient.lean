import Antenna.DispatchSimulation
import Antenna.CarrierEvents
import Antenna.Library.Replay
import Antenna.ScriptVm
import Mathlib.Data.List.Forall2

/-!
`CarrierClient`: its methods turn texts into C strings, make one call of the C library each, and read
its return code and its out buffer. The library is a parameter.
-/

namespace LeanAntenna

open Text Replay

/-- An argument as the library gets it. -/
inductive CArgument where
  | null
  | string (bytes : List UInt8)
  | number (value : Int)
deriving DecidableEq, Repr

/-- What the library reads in an argument: a string ends at its first null byte. -/
inductive Reading where
  | null
  | text (value : Option Text)
  | number (value : Int)
deriving DecidableEq, Repr

def CArgument.reading : CArgument → Reading
  | .null => .null
  | .string bytes => .text (Utf8.decode (bytes.takeWhile (· ≠ 0)))
  | .number value => .number value

/-- How a method hands an argument on. -/
inductive Passing where
  | text (value : Text)
  | optional (value : Option Text)
  | unlessEmpty (value : Option Text)
  | number (value : Int)
deriving DecidableEq, Repr

namespace Passing

/-- The text that is turned into a C string. -/
def content : Passing → Option Text
  | .text value => some value
  | .optional value => value
  | .unlessEmpty value => value.filter (· ≠ [])
  | .number _ => none

/-- What the argument is meant to say. -/
def reading : Passing → Reading
  | .number value => .number value
  | passing =>
      match passing.content with
      | some value => .text (some value)
      | none => .null

/-- The error of `CString::new`, with the position of the first null byte. -/
def nulError (value : Text) : Text :=
  "nul byte found in provided data at position: ".toList ++
    (toString (Utf8.encode (value.takeWhile (· ≠ nul))).length).toList

def pass (passing : Passing) : Except Text CArgument :=
  match passing.content with
  | none =>
      match passing with
      | .number value => .ok (.number value)
      | _ => .ok .null
  | some value =>
      match cString value with
      | none => .error (nulError value)
      | some value => .ok (.string (Utf8.encode value ++ [0]))

def passAll : List Passing → Except Text (List CArgument)
  | [] => .ok []
  | passing :: rest => do
      let argument ← passing.pass
      let others ← passAll rest
      return argument :: others

end Passing

namespace CarrierCall

/-- The C function that the method calls. -/
def method : CarrierCall → Text
  | createAccount _ _ _ => "carrier_create_account".toList
  | exportAccount _ _ _ => "carrier_export_account".toList
  | loadAccount _ => "carrier_load_account".toList
  | getId _ => "carrier_get_id".toList
  | setNick _ _ => "carrier_set_nick".toList
  | applyDhtPreset _ => "carrier_apply_dht_preset".toList
  | setAccountConfig _ _ => "carrier_set_account_config".toList
  | sendTrustRequest _ _ _ => "carrier_send_trust_request".toList
  | acceptTrustRequest _ _ => "carrier_accept_trust_request".toList
  | discardTrustRequest _ _ => "carrier_discard_trust_request".toList
  | removeContact _ _ => "carrier_remove_contact".toList
  | blockPeer _ _ => "carrier_block_peer".toList
  | unblockPeer _ _ => "carrier_unblock_peer".toList
  | sendMessage _ _ _ => "carrier_send_message".toList
  | createConversation _ _ => "carrier_create_conversation".toList
  | getSavedConversation _ => "carrier_get_saved_conversation".toList
  | sendConversationMessage _ _ _ => "carrier_send_conversation_message".toList
  | loadConversationMessages _ _ _ _ => "carrier_load_conversation_messages".toList
  | clearConversationCache _ _ => "carrier_clear_conversation_cache".toList
  | acceptConversationRequest _ _ => "carrier_accept_conversation_request".toList
  | declineConversationRequest _ _ => "carrier_decline_conversation_request".toList
  | inviteToConversation _ _ _ => "carrier_invite_to_conversation".toList
  | removeConversation _ _ => "carrier_remove_conversation".toList
  | sendReaction _ _ _ _ => "carrier_send_reaction".toList
  | subscribePresence _ _ _ => "carrier_subscribe_presence".toList
  | sendFile _ _ _ _ => "carrier_send_file".toList
  | acceptFile _ _ _ _ _ => "carrier_accept_file".toList
  | cancelFile _ _ _ => "carrier_cancel_file".toList
  | createLinkingAccount => "carrier_create_linking_account".toList
  | authorizeDevice _ _ => "carrier_authorize_device".toList
  | revokeDevice _ _ => "carrier_revoke_device".toList

/-- `proxy_flag` of `set_account_config`: unchanged, off or on. -/
def proxyFlag : Option Bool → Int
  | none => -1
  | some false => 0
  | some true => 1

/-- The arguments behind the handle, in order. -/
def passings : CarrierCall → List Passing
  | createAccount displayName archivePath archivePassword =>
      [.optional displayName, .optional archivePath, .optional archivePassword]
  | exportAccount account path password => [.text account, .text path, .optional password]
  | loadAccount account | getId account | applyDhtPreset account | getSavedConversation account =>
      [.text account]
  | setNick account nick => [.text account, .text nick]
  | setAccountConfig account config =>
      [.text account, .number (proxyFlag config.proxyEnabled), .unlessEmpty config.dhtProxyListUrl,
        .unlessEmpty config.proxyServer, .unlessEmpty config.bootstrap,
        .unlessEmpty config.turnServer, .unlessEmpty config.turnUsername,
        .unlessEmpty config.turnPassword]
  | sendTrustRequest account uri payload => [.text account, .text uri, .optional payload]
  | acceptTrustRequest account uri | discardTrustRequest account uri | removeContact account uri
  | blockPeer account uri | unblockPeer account uri => [.text account, .text uri]
  | sendMessage account uri text => [.text account, .text uri, .text text]
  | createConversation account privacy => [.text account, .optional privacy]
  | sendConversationMessage account conv text => [.text account, .text conv, .text text]
  | loadConversationMessages account conv fromMessage limit =>
      [.text account, .text conv, .text fromMessage, .number limit]
  | clearConversationCache account conv | acceptConversationRequest account conv
  | declineConversationRequest account conv | removeConversation account conv =>
      [.text account, .text conv]
  | inviteToConversation account conv uri => [.text account, .text conv, .text uri]
  | sendReaction account conv msg react => [.text account, .text conv, .text msg, .text react]
  | subscribePresence account uri subscribe =>
      [.text account, .text uri, .number (if subscribe then 1 else 0)]
  | sendFile account conv path display => [.text account, .text conv, .text path, .optional display]
  | acceptFile account conv msg fid path =>
      [.text account, .text conv, .text msg, .text fid, .text path]
  | cancelFile account conv fid => [.text account, .text conv, .text fid]
  | createLinkingAccount => []
  | authorizeDevice account pin => [.text account, .text pin]
  | revokeDevice account deviceId => [.text account, .text deviceId]

/-- The methods that return the id in their out buffer. -/
def returnsId : CarrierCall → Bool
  | createAccount _ _ _ | createConversation _ _ | createLinkingAccount => true
  | _ => false

end CarrierCall

/-- A call of a C function. -/
structure Invocation where
  method : Text
  arguments : List CArgument
deriving DecidableEq, Repr

/-- The C library: what a call returns and leaves in the out buffer, where the function has one. -/
abbrev CLibrary (Carrier : Type) := Carrier → Invocation → Carrier × Int × Buffer 64

section Client

variable {Carrier : Type} (library : CLibrary Carrier)

/-- What a method makes of the return code and the buffer. -/
def CarrierCall.outcome (call : CarrierCall) (code : Int) (buffer : Buffer 64) : Except Text Text :=
  if code < 0 then .error (call.method ++ " failed: ".toList ++ (toString code).toList)
  else .ok (if call.returnsId then cstrFromBuf buffer else [])

def clientCall (carrier : Carrier) (call : CarrierCall) : Carrier × Except Text Text :=
  match Passing.passAll call.passings with
  | .error reason => (carrier, .error reason)
  | .ok arguments =>
      let (after, code, buffer) := library carrier ⟨call.method, arguments⟩
      (after, call.outcome code buffer)

end Client

section Strings

variable {value : Text}

theorem ofNat_nonzero {byte : Nat} (positive : 0 < byte) (small : byte < 256) :
    (0 : UInt8) ≠ UInt8.ofNat byte := by
  intro zero
  have value := congrArg UInt8.toNat zero
  rw [Utf8.toNat_ofNat_small byte small] at value
  exact absurd value.symm (by simp; omega)

theorem utf8EncodeChar_zero {c : Char} (character : c ≠ nul) : 0 ∉ String.utf8EncodeChar c := by
  have positive : 0 < c.toNat := by
    apply Nat.pos_of_ne_zero
    intro zero
    exact character ((Char.ofNat_toNat c).symm.trans (congrArg Char.ofNat zero))
  have scalar := Utf8.scalar_bounds c
  have code : c.val.toNat = c.toNat := rfl
  unfold String.utf8EncodeChar
  simp only [code]
  split
  · simpa using ofNat_nonzero positive (by omega)
  · split
    · simp only [List.mem_cons, List.not_mem_nil, or_false, not_or]
      exact ⟨ofNat_nonzero (by omega) (by omega), ofNat_nonzero (by omega) (by omega)⟩
    · split
      · simp only [List.mem_cons, List.not_mem_nil, or_false, not_or]
        exact ⟨ofNat_nonzero (by omega) (by omega), ofNat_nonzero (by omega) (by omega),
          ofNat_nonzero (by omega) (by omega)⟩
      · simp only [List.mem_cons, List.not_mem_nil, or_false, not_or]
        exact ⟨ofNat_nonzero (by omega) (by omega), ofNat_nonzero (by omega) (by omega),
          ofNat_nonzero (by omega) (by omega), ofNat_nonzero (by omega) (by omega)⟩

theorem encode_zero (plain : nul ∉ value) : 0 ∉ Utf8.encode value := by
  intro zero
  obtain ⟨c, member, here⟩ := List.mem_flatMap.mp zero
  exact utf8EncodeChar_zero (fun same => plain (same ▸ member)) here

theorem string_reading (plain : nul ∉ value) :
    (CArgument.string (Utf8.encode value ++ [0])).reading = .text (some value) := by
  have whole : (Utf8.encode value ++ [0]).takeWhile (· ≠ 0) = Utf8.encode value := by
    rw [List.takeWhile_append_of_pos]
    · simp
    · intro byte member
      have nonzero : byte ≠ 0 := fun zero => encode_zero plain (zero ▸ member)
      simpa using nonzero
  rw [CArgument.reading, whole, Utf8.decode_encode]

end Strings

namespace Passing

variable {passing : Passing} {value : Text}

/-- The argument holds no null character. -/
def Clean (passing : Passing) : Prop := ∀ value ∈ passing.content, nul ∉ value

instance (passing : Passing) : Decidable passing.Clean :=
  match same : passing.content with
  | none => isTrue fun value given => by simp [same] at given
  | some value => decidable_of_iff (nul ∉ value) (by simp [Clean, same])

theorem pass_clean (clean : passing.Clean) :
    ∃ argument, passing.pass = .ok argument ∧ argument.reading = passing.reading := by
  unfold pass
  cases given : passing.content with
  | none =>
      cases passing with
      | number value => exact ⟨_, rfl, rfl⟩
      | text value => cases given
      | optional value => exact ⟨.null, rfl, by simp [reading, given, CArgument.reading]⟩
      | unlessEmpty value => exact ⟨.null, rfl, by simp [reading, given, CArgument.reading]⟩
  | some value =>
      have plain := clean value given
      have read : passing.reading = .text (some value) := by
        cases passing with
        | number value => cases given
        | _ => simp [reading, given]
      simp only [cString, if_neg plain, read]
      exact ⟨_, rfl, string_reading plain⟩

theorem pass_unclean (given : passing.content = some value) (null : nul ∈ value) :
    passing.pass = .error (nulError value) := by
  simp only [pass, given, cString, if_pos null]

theorem passAll_clean {arguments : List Passing} (clean : ∀ passing ∈ arguments, passing.Clean) :
    ∃ passed, passAll arguments = .ok passed ∧
      passed.map CArgument.reading = arguments.map reading := by
  induction arguments with
  | nil => exact ⟨[], rfl, rfl⟩
  | cons passing rest ih =>
      obtain ⟨argument, one, read⟩ := pass_clean (clean passing (by simp))
      obtain ⟨others, more, reads⟩ := ih fun other member => clean other (by simp [member])
      refine ⟨argument :: others, ?_, by rw [List.map_cons, List.map_cons, read, reads]⟩
      rw [passAll, one, more]
      rfl

theorem passAll_unclean {front back : List Passing} (clean : ∀ earlier ∈ front, earlier.Clean)
    (given : passing.content = some value) (null : nul ∈ value) :
    passAll (front ++ passing :: back) = .error (nulError value) := by
  induction front with
  | nil =>
      rw [List.nil_append, passAll, pass_unclean given null]
      rfl
  | cons earlier front ih =>
      obtain ⟨argument, one, -⟩ := pass_clean (clean earlier (by simp))
      rw [List.cons_append, passAll, one, ih fun other member => clean other (by simp [member])]
      rfl

end Passing

section Calls

variable {Store Carrier : Type} (host : Host Store Unit) (library : CLibrary Carrier)

/-- The library that keeps a list of its calls. -/
def CLibrary.logging : CLibrary (Carrier × List Invocation) := fun state invocation =>
  let (after, answer) := library state.1 invocation
  ((after, state.2 ++ [invocation]), answer)

/-- A router whose carrier is the client over the library. -/
def clientHost : Host Store (Carrier × List Invocation) where
  query := host.query
  update := host.update
  insertTurtle := host.insertTurtle
  resolveActiveTheme := host.resolveActiveTheme
  verifySignedBlocklist := host.verifySignedBlocklist
  call := clientCall library.logging

/-- The calls that can be handed on: none of their texts holds a null character. -/
def CarrierCall.Clean (call : CarrierCall) : Prop := ∀ passing ∈ call.passings, passing.Clean

instance (call : CarrierCall) : Decidable call.Clean :=
  inferInstanceAs (Decidable (∀ passing ∈ call.passings, passing.Clean))

/-- The library got the call as it was meant. -/
structure Received (call : CarrierCall) (invocation : Invocation) : Prop where
  method : invocation.method = call.method
  arguments : invocation.arguments.map CArgument.reading = call.passings.map Passing.reading

variable {library} {call : CarrierCall}

theorem clientCall_clean (clean : call.Clean) (carrier : Carrier) :
    ∃ invocation, Received call invocation ∧
      clientCall library carrier call = ((library carrier invocation).1,
        call.outcome (library carrier invocation).2.1 (library carrier invocation).2.2) := by
  obtain ⟨arguments, passed, read⟩ := Passing.passAll_clean clean
  refine ⟨⟨call.method, arguments⟩, ⟨rfl, read⟩, ?_⟩
  rw [clientCall, passed]

/-- A call with a null character is not made, and its error tells where the first one is. -/
theorem clientCall_unclean {front back : List Passing} {passing : Passing} {value : Text}
    (split : call.passings = front ++ passing :: back)
    (clean : ∀ earlier ∈ front, earlier.Clean) (given : passing.content = some value)
    (null : nul ∈ value) (carrier : Carrier) :
    clientCall library carrier call = (carrier, .error (Passing.nulError value)) := by
  rw [clientCall, split, Passing.passAll_unclean clean given null]

theorem exists_unclean {arguments : List Passing} (unclean : ¬ ∀ passing ∈ arguments, passing.Clean) :
    ∃ front passing back value, arguments = front ++ passing :: back ∧
      (∀ earlier ∈ front, earlier.Clean) ∧ passing.content = some value ∧ nul ∈ value := by
  induction arguments with
  | nil => exact absurd (fun _ member => absurd member List.not_mem_nil) unclean
  | cons first rest ih =>
      by_cases clean : first.Clean
      · have later : ¬ ∀ passing ∈ rest, passing.Clean := fun all => unclean (by
          simpa [clean] using all)
        obtain ⟨front, passing, back, value, rfl, earlier, given, null⟩ := ih later
        refine ⟨first :: front, passing, back, value, rfl, ?_, given, null⟩
        simpa [clean] using earlier
      · have dirty : ∃ value, first.content = some value ∧ nul ∈ value := by
          simpa [Passing.Clean] using clean
        obtain ⟨value, given, null⟩ := dirty
        exact ⟨[], first, rest, value, rfl, by simp, given, null⟩

/-- The calls that an effect of the router made. -/
def Effect.made : Effect → Option CarrierCall
  | .call call => some call
  | _ => none

def cleanCalls (effects : List Effect) : List CarrierCall :=
  (effects.filterMap Effect.made).filter (·.Clean)

/-- Since the start the library got the clean calls of the router, in order and each once. -/
def Heard (start world : World Store (Carrier × List Invocation)) : Prop :=
  ∃ effects invocations, world.effects = start.effects ++ effects ∧
    world.carrier.2 = start.carrier.2 ++ invocations ∧
      List.Forall₂ Received (cleanCalls effects) invocations

variable {start world after : World Store (Carrier × List Invocation)}

theorem Heard.refl : Heard start start :=
  ⟨[], [], (List.append_nil _).symm, (List.append_nil _).symm, .nil⟩

theorem Heard.silent (heard : Heard start world) (more : List Effect)
    (grown : after.effects = world.effects ++ more) (none : more.filterMap Effect.made = [])
    (same : after.carrier = world.carrier) : Heard start after := by
  obtain ⟨effects, invocations, before, calls, received⟩ := heard
  refine ⟨effects ++ more, invocations, ?_, ?_, ?_⟩
  · rw [grown, before, List.append_assoc]
  · rw [same, calls]
  · rw [cleanCalls, List.filterMap_append, none, List.append_nil]
    exact received

theorem Heard.insertTurtle (heard : Heard start world) (line : Text) :
    Heard start (world.insertTurtle (clientHost host library) line).1 :=
  heard.silent [.insert line] rfl rfl rfl

theorem Heard.record (heard : Heard start world) {effect : Effect} (other : effect.made = none) :
    Heard start (world.record effect) :=
  heard.silent [effect] rfl (by simp [other]) rfl

theorem Heard.insertWithDag (heard : Heard start world) (line : Text) :
    Heard start (world.insertWithDag (clientHost host library) line) := by
  have announced : Heard start (world.record (.beforeInsert line)) := heard.record rfl
  have inserted : Heard start ((world.record (.beforeInsert line)).insertTurtle
      (clientHost host library) line).1 := announced.insertTurtle host line
  unfold World.insertWithDag
  generalize (world.record (.beforeInsert line)).insertTurtle (clientHost host library) line = outcome
    at inserted ⊢
  obtain ⟨stored, reason | done⟩ := outcome
  · exact inserted
  · have told : Heard start (stored.record (.afterInsert line)) := inserted.record rfl
    exact told.record rfl

theorem Heard.called (heard : Heard start world) (call : CarrierCall) (path : Option Text) :
    Heard start (world.called (clientHost host library) call path) := by
  obtain ⟨effects, invocations, before, calls, received⟩ := heard
  by_cases clean : call.Clean
  · obtain ⟨invocation, got, made⟩ := @clientCall_clean _ library.logging _ clean world.carrier
    refine ⟨effects ++ [.call call], invocations ++ [invocation], ?_, ?_, ?_⟩
    · change world.effects ++ [.call call] = _
      rw [before, List.append_assoc]
    · change (clientCall library.logging world.carrier call).1.2 = _
      rw [made]
      change world.carrier.2 ++ [invocation] = _
      rw [calls, List.append_assoc]
    · have last : cleanCalls (effects ++ [.call call]) = cleanCalls effects ++ [call] := by
        simp [cleanCalls, Effect.made, clean]
      rw [last]
      exact List.rel_append received (.cons got .nil)
  · obtain ⟨front, passing, back, value, split, earlier, given, null⟩ := exists_unclean clean
    refine ⟨effects ++ [.call call], invocations, ?_, ?_, ?_⟩
    · change world.effects ++ [.call call] = _
      rw [before, List.append_assoc]
    · change (clientCall library.logging world.carrier call).1.2 = _
      rw [clientCall_unclean split earlier given null, calls]
    · have same : cleanCalls (effects ++ [.call call]) = cleanCalls effects := by
        simp [cleanCalls, Effect.made, clean]
      rw [same]
      exact received

/-- Whatever lines the router dispatches and whatever the library returns: the library gets the calls
of the router in order, each once and with every text whole. Only those with a null character are
left out. -/
theorem library_hears_calls (start : World Store (Carrier × List Invocation))
    (lines : List (Text × Text)) :
    Heard start (replay (fun world (line : Text × Text) =>
      dispatch (clientHost host library) true line.1 line.2 world) start lines) := by
  have simulates : Simulates (clientHost host library) (clientHost host library)
      fun world other => world = other ∧ Heard start world := by
    constructor
    · rfl
    · rintro world other ⟨rfl, -⟩
      rfl
    · rintro world other ⟨rfl, -⟩
      rfl
    · rintro world other ⟨rfl, -⟩ sparql
      rfl
    · rintro world other ⟨rfl, -⟩ call
      rfl
    · rintro world other ⟨rfl, heard⟩ effect quiet
      exact ⟨rfl, heard.record (by cases effect <;> first | rfl | cases quiet)⟩
    · rintro world other ⟨rfl, heard⟩ line
      exact ⟨rfl, heard.insertWithDag host line⟩
    · rintro world other ⟨rfl, heard⟩ line
      have sent : Heard start (world.send line) := heard.record rfl
      exact ⟨rfl, sent.insertTurtle host line⟩
    · rintro world other ⟨rfl, heard⟩ sparql
      exact ⟨rfl, heard.silent [.update sparql] rfl rfl rfl⟩
    · rintro world other ⟨rfl, heard⟩ call path
      exact ⟨rfl, heard.called host call path⟩
  have each : ∀ (lines : List (Text × Text)) (world : World Store (Carrier × List Invocation)),
      Heard start world → Heard start (replay (fun world (line : Text × Text) =>
        dispatch (clientHost host library) true line.1 line.2 world) world lines) := by
    intro lines
    induction lines with
    | nil => exact fun world heard => heard
    | cons line rest ih =>
        intro world heard
        exact ih _ (simulates.dispatch ⟨rfl, heard⟩ true line.1 line.2).2
  exact each lines start .refl

end Calls

end LeanAntenna
