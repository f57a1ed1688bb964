import Antenna.ScanCore
import Mathlib.Algebra.GroupWithZero.Nat

/-! The carrier commands of the router: what each reads from its line and which call it makes. -/

namespace LeanAntenna

inductive Command where
  | createAccount
  | importAccount
  | exportAccount
  | loadAccount
  | getId
  | setNick
  | setAccountConfig
  | sendTrustRequest
  | acceptTrustRequest
  | discardTrustRequest
  | removeContact
  | blockContact
  | unblockContact
  | sendMsg
  | createConversation
  | createGroup
  | getSavedConversation
  | sendConversationMsg
  | loadConversationMessages
  | clearConversationCache
  | acceptConversationRequest
  | declineConversationRequest
  | inviteContact
  | removeConversation
  | sendReaction
  | subscribePresence
  | unsubscribePresence
  | sendFile
  | acceptFile
  | cancelFile
  | linkDevice
  | authorizeDevice
  | revokeDevice
deriving DecidableEq, Repr

namespace Command

def all : List Command :=
  [.createAccount, .importAccount, .exportAccount, .loadAccount, .getId, .setNick,
    .setAccountConfig, .sendTrustRequest, .acceptTrustRequest, .discardTrustRequest,
    .removeContact, .blockContact, .unblockContact, .sendMsg, .createConversation, .createGroup,
    .getSavedConversation, .sendConversationMsg, .loadConversationMessages,
    .clearConversationCache, .acceptConversationRequest, .declineConversationRequest,
    .inviteContact, .removeConversation, .sendReaction, .subscribePresence,
    .unsubscribePresence, .sendFile, .acceptFile, .cancelFile, .linkDevice, .authorizeDevice,
    .revokeDevice]

def localName : Command → Text
  | createAccount => "CreateAccount".toList
  | importAccount => "ImportAccount".toList
  | exportAccount => "ExportAccount".toList
  | loadAccount => "LoadAccount".toList
  | getId => "GetId".toList
  | setNick => "SetNick".toList
  | setAccountConfig => "SetAccountConfig".toList
  | sendTrustRequest => "SendTrustRequest".toList
  | acceptTrustRequest => "AcceptTrustRequest".toList
  | discardTrustRequest => "DiscardTrustRequest".toList
  | removeContact => "RemoveContact".toList
  | blockContact => "BlockContact".toList
  | unblockContact => "UnblockContact".toList
  | sendMsg => "SendMsg".toList
  | createConversation => "CreateConversation".toList
  | createGroup => "CreateGroup".toList
  | getSavedConversation => "GetSavedConversation".toList
  | sendConversationMsg => "SendConversationMsg".toList
  | loadConversationMessages => "LoadConversationMessages".toList
  | clearConversationCache => "ClearConversationCache".toList
  | acceptConversationRequest => "AcceptConversationRequest".toList
  | declineConversationRequest => "DeclineConversationRequest".toList
  | inviteContact => "InviteContact".toList
  | removeConversation => "RemoveConversation".toList
  | sendReaction => "SendReaction".toList
  | subscribePresence => "SubscribePresence".toList
  | unsubscribePresence => "UnsubscribePresence".toList
  | sendFile => "SendFile".toList
  | acceptFile => "AcceptFile".toList
  | cancelFile => "CancelFile".toList
  | linkDevice => "LinkDevice".toList
  | authorizeDevice => "AuthorizeDevice".toList
  | revokeDevice => "RevokeDevice".toList

def ofLocal (name : Text) : Option Command := all.find? fun command => command.localName = name

end Command

structure AccountNetworkConfig where
  proxyEnabled : Option Bool
  dhtProxyListUrl : Option Text
  proxyServer : Option Text
  bootstrap : Option Text
  turnServer : Option Text
  turnUsername : Option Text
  turnPassword : Option Text
deriving DecidableEq, Repr

/-- A call of a `CarrierClient` method with the arguments it is given. -/
inductive CarrierCall where
  | createAccount (displayName archivePath archivePassword : Option Text)
  | exportAccount (account path : Text) (password : Option Text)
  | loadAccount (account : Text)
  | getId (account : Text)
  | setNick (account nick : Text)
  | applyDhtPreset (account : Text)
  | setAccountConfig (account : Text) (config : AccountNetworkConfig)
  | sendTrustRequest (account uri : Text) (payload : Option Text)
  | acceptTrustRequest (account uri : Text)
  | discardTrustRequest (account uri : Text)
  | removeContact (account uri : Text)
  | blockPeer (account uri : Text)
  | unblockPeer (account uri : Text)
  | sendMessage (account uri text : Text)
  | createConversation (account : Text) (privacy : Option Text)
  | getSavedConversation (account : Text)
  | sendConversationMessage (account conv text : Text)
  | loadConversationMessages (account conv fromMessage : Text) (limit : Nat)
  | clearConversationCache (account conv : Text)
  | acceptConversationRequest (account conv : Text)
  | declineConversationRequest (account conv : Text)
  | inviteToConversation (account conv uri : Text)
  | removeConversation (account conv : Text)
  | sendReaction (account conv msg react : Text)
  | subscribePresence (account uri : Text) (subscribe : Bool)
  | sendFile (account conv path : Text) (display : Option Text)
  | acceptFile (account conv msg fid path : Text)
  | cancelFile (account conv fid : Text)
  | createLinkingAccount
  | authorizeDevice (account pin : Text)
  | revokeDevice (account deviceId : Text)
deriving DecidableEq, Repr

/-- A required property that a command's line lacks, as the error reply names it. -/
structure MissingField where
  command : Text
  field : Text
deriving DecidableEq, Repr

/-- What a line says about a property, still escaped. -/
abbrev Properties := Text → Option Text

/-- A property that counts only when it is not empty. -/
def nonEmpty (property : Properties) (name : String) : Option Text :=
  (property name.toList).filter (· ≠ [])

def accountOrDefault (property : Properties) (defaultAccount : Text) : Text :=
  (nonEmpty property "carrier:account").getD defaultAccount

def Command.missing {α : Type} (command : Command) (field : String) : Except MissingField α :=
  .error { command := command.localName, field := field.toList }

def Command.required (command : Command) (property : Properties) (field : String) :
    Except MissingField Text :=
  match property field.toList with
  | some value => .ok value
  | none => command.missing field

/-- `str::parse::<usize>`: digits, maybe behind a plus sign, of a value below 2^64. -/
def parseUsize (text : Text) : Option Nat :=
  let digits := if text.head? = some '+' then text.drop 1 else text
  if digits ≠ [] ∧ ∀ c ∈ digits, c.isDigit then
    let value := digits.foldl (fun value c => 10 * value + (c.toNat - 48)) 0
    if value < 2 ^ 64 then some value else none
  else none

/-- The call a carrier command makes, or the first required property its line lacks. -/
def Command.call (command : Command) (property : Properties) (defaultAccount : Text) :
    Except MissingField CarrierCall :=
  let account := accountOrDefault property defaultAccount
  match command with
  | createAccount | importAccount =>
      .ok (.createAccount (property "carrier:displayName".toList)
        (nonEmpty property "carrier:archivePath") (nonEmpty property "carrier:archivePassword"))
  | exportAccount => do
      let path ← command.required property "carrier:path"
      return .exportAccount account path (nonEmpty property "carrier:archivePassword")
  | loadAccount =>
      match nonEmpty property "carrier:account" with
      | some account => .ok (.loadAccount account)
      | none => command.missing "carrier:account"
  | getId => .ok (.getId account)
  | setNick =>
      match (property "carrier:displayName".toList).or (property "carrier:nick".toList) with
      | some nick => .ok (.setNick account nick)
      | none => command.missing "carrier:displayName"
  | setAccountConfig =>
      if property "carrier:preset".toList = some "resonator".toList then
        .ok (.applyDhtPreset account)
      else
        .ok (.setAccountConfig account
          { proxyEnabled := (property "carrier:proxyEnabled".toList).map (· = "true".toList)
            dhtProxyListUrl := property "carrier:dhtProxyListUrl".toList
            proxyServer := property "carrier:proxyServer".toList
            bootstrap := property "carrier:bootstrap".toList
            turnServer := property "carrier:turnServer".toList
            turnUsername := property "carrier:turnUsername".toList
            turnPassword := property "carrier:turnPassword".toList })
  | sendTrustRequest => do
      let uri ← command.required property "carrier:contactUri"
      return .sendTrustRequest account uri
        ((property "carrier:payload".toList).or (property "carrier:message".toList))
  | acceptTrustRequest => do
      let uri ← command.required property "carrier:contactUri"
      return .acceptTrustRequest account uri
  | discardTrustRequest => do
      let uri ← command.required property "carrier:contactUri"
      return .discardTrustRequest account uri
  | removeContact => do
      let uri ← command.required property "carrier:contactUri"
      return .removeContact account uri
  | blockContact => do
      let uri ← command.required property "carrier:contactUri"
      return .blockPeer account uri
  | unblockContact => do
      let uri ← command.required property "carrier:contactUri"
      return .unblockPeer account uri
  | sendMsg => do
      let uri ← command.required property "carrier:contactUri"
      let text ← command.required property "carrier:text"
      return .sendMessage account uri text
  | createConversation | createGroup =>
      .ok (.createConversation account (property "carrier:privacy".toList))
  | getSavedConversation => .ok (.getSavedConversation account)
  | sendConversationMsg => do
      let conv ← command.required property "carrier:conversationId"
      let text ← command.required property "carrier:text"
      return .sendConversationMessage account conv text
  | loadConversationMessages => do
      let conv ← command.required property "carrier:conversationId"
      let start := (property "carrier:fromMessage".toList).getD []
      let limit := ((property "carrier:limit".toList).bind parseUsize).getD 0
      return .loadConversationMessages account conv start limit
  | clearConversationCache => do
      let conv ← command.required property "carrier:conversationId"
      return .clearConversationCache account conv
  | acceptConversationRequest => do
      let conv ← command.required property "carrier:conversationId"
      return .acceptConversationRequest account conv
  | declineConversationRequest => do
      let conv ← command.required property "carrier:conversationId"
      return .declineConversationRequest account conv
  | inviteContact => do
      let conv ← command.required property "carrier:conversationId"
      let uri ← command.required property "carrier:contactUri"
      return .inviteToConversation account conv uri
  | removeConversation => do
      let conv ← command.required property "carrier:conversationId"
      return .removeConversation account conv
  | sendReaction => do
      let conv ← command.required property "carrier:conversationId"
      let msg ← command.required property "carrier:messageId"
      let react ← command.required property "carrier:reaction"
      return .sendReaction account conv msg react
  | subscribePresence | unsubscribePresence => do
      let uri ← command.required property "carrier:contactUri"
      return .subscribePresence account uri (command = .subscribePresence)
  | sendFile => do
      let conv ← command.required property "carrier:conversationId"
      let path ← command.required property "carrier:path"
      return .sendFile account conv path
        ((property "carrier:filename".toList).or (property "carrier:displayName".toList))
  | acceptFile => do
      let conv ← command.required property "carrier:conversationId"
      let msg ← command.required property "carrier:messageId"
      let fid ← command.required property "carrier:fileId"
      let path ← command.required property "carrier:path"
      return .acceptFile account conv msg fid path
  | cancelFile => do
      let conv ← command.required property "carrier:conversationId"
      let fid ← command.required property "carrier:fileId"
      return .cancelFile account conv fid
  | linkDevice => .ok .createLinkingAccount
  | authorizeDevice => do
      let pin ← command.required property "carrier:pin"
      return .authorizeDevice account pin
  | revokeDevice => do
      let deviceId ← command.required property "carrier:contactUri"
      return .revokeDevice account deviceId

/-- The archive path that a create or import command stashes before it calls the carrier. -/
def Command.autoExportPath (command : Command) (property : Properties) : Option Text :=
  match command with
  | createAccount | importAccount => nonEmpty property "carrier:autoExportPath"
  | _ => none

end LeanAntenna
