import Antenna.DispatchCore

/-!
The text arguments of the requests as a table: by which properties each is given, and what stands
in for one that is not. The arms of the router hand over what the table says.
-/

namespace LeanAntenna

open Text

/-- The properties whose texts a request hands over, and the preset that replaces some of them. -/
inductive PropertyName where
  | displayName
  | archivePath
  | archivePassword
  | autoExportPath
  | path
  | account
  | nick
  | dhtProxyListUrl
  | proxyServer
  | bootstrap
  | turnServer
  | turnUsername
  | turnPassword
  | contactUri
  | payload
  | message
  | text
  | privacy
  | conversationId
  | fromMessage
  | messageId
  | reaction
  | filename
  | fileId
  | pin
  | preset
  | spText
  | spTextIri
deriving DecidableEq, Repr

def PropertyName.literal : PropertyName → String
  | displayName => "carrier:displayName"
  | archivePath => "carrier:archivePath"
  | archivePassword => "carrier:archivePassword"
  | autoExportPath => "carrier:autoExportPath"
  | path => "carrier:path"
  | account => "carrier:account"
  | nick => "carrier:nick"
  | dhtProxyListUrl => "carrier:dhtProxyListUrl"
  | proxyServer => "carrier:proxyServer"
  | bootstrap => "carrier:bootstrap"
  | turnServer => "carrier:turnServer"
  | turnUsername => "carrier:turnUsername"
  | turnPassword => "carrier:turnPassword"
  | contactUri => "carrier:contactUri"
  | payload => "carrier:payload"
  | message => "carrier:message"
  | text => "carrier:text"
  | privacy => "carrier:privacy"
  | conversationId => "carrier:conversationId"
  | fromMessage => "carrier:fromMessage"
  | messageId => "carrier:messageId"
  | reaction => "carrier:reaction"
  | filename => "carrier:filename"
  | fileId => "carrier:fileId"
  | pin => "carrier:pin"
  | preset => "carrier:preset"
  | spText => "sp:text"
  | spTextIri => "<http://spinrdf.org/sp#text>"

def PropertyName.written (name : PropertyName) : Text := name.literal.toList

/-- What stands in for an argument that the line does not give. -/
inductive Fallback where
  | missing
  | absent
  | default (text : Text)
deriving DecidableEq

/-- The first of the properties that the line gives is the argument. -/
structure Argument where
  names : List PropertyName
  fallback : Fallback
deriving DecidableEq

def firstOf (property : Properties) (names : List PropertyName) : Option Text :=
  names.findSome? fun name => property name.written

namespace Argument

def needed (name : PropertyName) : Argument := ⟨[name], .missing⟩

def optional (names : List PropertyName) : Argument := ⟨names, .absent⟩

def account (defaultAccount : Text) : Argument := ⟨[.account], .default defaultAccount⟩

/-- What is handed over for the argument, `none` if the request is refused for lack of it. -/
def handed (argument : Argument) (property : Properties) : Option (Option Text) :=
  match firstOf property argument.names, argument.fallback with
  | some value, _ => some (some value)
  | none, .missing => none
  | none, .absent => some none
  | none, .default text => some (some text)

end Argument

section Tables

open Argument

def Command.arguments (command : Command) (defaultAccount : Text) (preset : Bool) : List Argument :=
  match command with
  | createAccount | importAccount =>
      [optional [.displayName], optional [.archivePath],
        optional [.archivePassword], optional [.autoExportPath]]
  | exportAccount =>
      [account defaultAccount, needed .path, optional [.archivePassword]]
  | loadAccount => [needed .account]
  | getId | getSavedConversation => [account defaultAccount]
  | setNick => [account defaultAccount, ⟨[.displayName, .nick], .missing⟩]
  | setAccountConfig =>
      account defaultAccount ::
        if preset then []
        else [optional [.dhtProxyListUrl], optional [.proxyServer],
          optional [.bootstrap], optional [.turnServer],
          optional [.turnUsername], optional [.turnPassword]]
  | sendTrustRequest =>
      [account defaultAccount, needed .contactUri,
        optional [.payload, .message]]
  | acceptTrustRequest | discardTrustRequest | removeContact | blockContact | unblockContact
  | subscribePresence | unsubscribePresence | revokeDevice =>
      [account defaultAccount, needed .contactUri]
  | sendMsg => [account defaultAccount, needed .contactUri, needed .text]
  | createConversation | createGroup => [account defaultAccount, optional [.privacy]]
  | sendConversationMsg =>
      [account defaultAccount, needed .conversationId, needed .text]
  | loadConversationMessages =>
      [account defaultAccount, needed .conversationId,
        ⟨[.fromMessage], .default []⟩]
  | clearConversationCache | acceptConversationRequest | declineConversationRequest
  | removeConversation => [account defaultAccount, needed .conversationId]
  | inviteContact =>
      [account defaultAccount, needed .conversationId, needed .contactUri]
  | sendReaction =>
      [account defaultAccount, needed .conversationId, needed .messageId,
        needed .reaction]
  | sendFile =>
      [account defaultAccount, needed .conversationId, needed .path,
        optional [.filename, .displayName]]
  | acceptFile =>
      [account defaultAccount, needed .conversationId, needed .messageId,
        needed .fileId, needed .path]
  | cancelFile =>
      [account defaultAccount, needed .conversationId, needed .fileId]
  | linkDevice => []
  | authorizeDevice => [account defaultAccount, needed .pin]

inductive SpinForm where
  | select
  | ask
  | construct
  | insertData
  | deleteData
  | modify
deriving DecidableEq, Repr

def SpinForm.localName : SpinForm → Text
  | select => "Select".toList
  | ask => "Ask".toList
  | construct => "Construct".toList
  | insertData => "InsertData".toList
  | deleteData => "DeleteData".toList
  | modify => "Modify".toList

/-- How the store is asked. -/
def SpinForm.effect (form : SpinForm) (sparql : Text) : Effect :=
  match form with
  | select | construct => .query sparql
  | ask => .ask sparql
  | insertData | deleteData | modify => .update sparql

inductive Request where
  | carrier (command : Command)
  | spin (form : SpinForm)
deriving DecidableEq, Repr

def spTextNames : List PropertyName := [.spText, .spTextIri]

def Request.arguments (request : Request) (defaultAccount : Text) (preset : Bool) : List Argument :=
  match request with
  | carrier command => command.arguments defaultAccount preset
  | spin _ => [⟨spTextNames, .missing⟩]

def presetValue : Text := "resonator".toList

/-- The names of the properties that decide what a request does with its texts. -/
def Request.reads (request : Request) : List PropertyName :=
  .preset :: (request.arguments [] false).flatMap Argument.names

end Tables

/-- The arguments of a call under the properties that give them. -/
def CarrierCall.arguments (call : CarrierCall) : List (List PropertyName × Option Text) :=
  let named (name : PropertyName) (value : Text) := ([name], some value)
  let account (value : Text) := named .account value
  let uri (value : Text) := named .contactUri value
  let conv (value : Text) := named .conversationId value
  match call with
  | createAccount displayName archivePath archivePassword =>
      [([.displayName], displayName), ([.archivePath], archivePath),
        ([.archivePassword], archivePassword)]
  | exportAccount a path password =>
      [account a, named .path path, ([.archivePassword], password)]
  | loadAccount a | getId a | getSavedConversation a | applyDhtPreset a => [account a]
  | setNick a nick => [account a, ([.displayName, .nick], some nick)]
  | setAccountConfig a config =>
      [account a, ([.dhtProxyListUrl], config.dhtProxyListUrl),
        ([.proxyServer], config.proxyServer), ([.bootstrap], config.bootstrap),
        ([.turnServer], config.turnServer),
        ([.turnUsername], config.turnUsername),
        ([.turnPassword], config.turnPassword)]
  | sendTrustRequest a u payload =>
      [account a, uri u, ([.payload, .message], payload)]
  | acceptTrustRequest a u | discardTrustRequest a u | removeContact a u | blockPeer a u
  | unblockPeer a u | subscribePresence a u _ | revokeDevice a u => [account a, uri u]
  | sendMessage a u text => [account a, uri u, named .text text]
  | createConversation a privacy => [account a, ([.privacy], privacy)]
  | sendConversationMessage a c text => [account a, conv c, named .text text]
  | loadConversationMessages a c start _ => [account a, conv c, named .fromMessage start]
  | clearConversationCache a c | acceptConversationRequest a c | declineConversationRequest a c
  | removeConversation a c => [account a, conv c]
  | inviteToConversation a c u => [account a, conv c, uri u]
  | sendReaction a c msg react =>
      [account a, conv c, named .messageId msg, named .reaction react]
  | sendFile a c path display =>
      [account a, conv c, named .path path,
        ([.filename, .displayName], display)]
  | acceptFile a c msg fid path =>
      [account a, conv c, named .messageId msg, named .fileId fid,
        named .path path]
  | cancelFile a c fid => [account a, conv c, named .fileId fid]
  | createLinkingAccount => []
  | authorizeDevice a pin => [account a, named .pin pin]

/-- What a request makes the router do: the call or the question to the store, and the path it
leaves behind for the export of a new account. -/
structure Execution where
  effect : Effect
  stash : Option Text
deriving DecidableEq, Repr

def Request.execution (request : Request) (property : Properties) (defaultAccount : Text) :
    Option Execution :=
  match request with
  | carrier command =>
      (command.call property defaultAccount).toOption.map fun call =>
        ⟨.call call, command.autoExportPath property⟩
  | spin form => (spText property).map fun sparql => ⟨form.effect sparql, none⟩

def Execution.arguments (execution : Execution) : List (List PropertyName × Option Text) :=
  match execution.effect with
  | .call (.createAccount displayName archivePath archivePassword) =>
      CarrierCall.arguments (.createAccount displayName archivePath archivePassword) ++
        [([.autoExportPath], execution.stash)]
  | .call call => call.arguments
  | .query sparql | .ask sparql | .update sparql => [(spTextNames, some sparql)]
  | _ => []

section TableRead

/-- An argument under the names that give it. -/
def given (property : Properties) (argument : Argument) : Option (List PropertyName × Option Text) :=
  (argument.handed property).map (argument.names, ·)

theorem firstOf_single (property : Properties) (name : PropertyName) :
    firstOf property [name] = property name.written := by
  rw [firstOf, List.findSome?_cons, List.findSome?_nil]
  cases property name.written <;> rfl

theorem firstOf_pair (property : Properties) (name other : PropertyName) :
    firstOf property [name, other] = (property name.written).or (property other.written) := by
  rw [firstOf, List.findSome?_cons, List.findSome?_cons, List.findSome?_nil]
  cases property name.written <;> cases property other.written <;> rfl

theorem given_needed (property : Properties) (name : PropertyName) :
    given property (.needed name) =
      (property name.written).map fun value => ([name], some value) := by
  simp only [given, Argument.needed, Argument.handed, firstOf, List.findSome?_cons,
    List.findSome?_nil]
  cases property name.written <;> rfl

theorem given_optional (property : Properties) (names : List PropertyName) :
    given property (.optional names) = some (names, firstOf property names) := by
  simp only [given, Argument.optional, Argument.handed]
  cases firstOf property names <;> rfl

variable {property : Properties} (solid : ∀ name, property name ≠ some [])
include solid

theorem nonEmpty_eq (name : String) : nonEmpty property name = property name.toList := by
  rw [nonEmpty]
  cases read : property name.toList with
  | none => rfl
  | some value =>
      have nonempty : value ≠ [] := fun empty => solid name.toList (by rw [read, empty])
      simp [Option.filter_some, nonempty]

theorem given_account (defaultAccount : Text) :
    given property (.account defaultAccount) =
      some ([.account], some (accountOrDefault property defaultAccount)) := by
  simp only [given, Argument.account, Argument.handed, firstOf, List.findSome?_cons,
    List.findSome?_nil, accountOrDefault, nonEmpty_eq solid, PropertyName.written,
      PropertyName.literal]
  cases property "carrier:account".toList <;> rfl

/-- The preset replaces the settings a line gives. -/
theorem setAccountConfig_arguments (defaultAccount : Text) :
    ((Request.carrier .setAccountConfig).execution property defaultAccount).map
        Execution.arguments =
      (Command.setAccountConfig.arguments defaultAccount
        (decide (property PropertyName.preset.written = some presetValue))).mapM
        (given property) := by
  unfold presetValue
  by_cases preset : property "carrier:preset".toList = some "resonator".toList
  · have chosen :
        decide (property PropertyName.preset.written = some "resonator".toList) = true :=
      decide_eq_true preset
    rw [chosen]
    simp only [Request.execution, Command.call, if_pos preset, Command.arguments, if_true,
      List.mapM_cons, List.mapM_nil, given_account solid]
    rfl
  · have chosen :
        decide (property PropertyName.preset.written = some "resonator".toList) = false :=
      decide_eq_false preset
    rw [chosen]
    simp only [Request.execution, Command.call, if_neg preset, Command.arguments,
      Bool.false_eq_true, if_false, List.mapM_cons, List.mapM_nil, given_account solid,
      given_optional, firstOf_single]
    rfl

/-- Every command hands over what its table says, or is refused for lack of a needed argument. -/
theorem call_arguments (command : Command) (defaultAccount : Text) :
    ((Request.carrier command).execution property defaultAccount).map Execution.arguments =
      (command.arguments defaultAccount
        (decide (property PropertyName.preset.written = some presetValue))).mapM
        (given property) := by
  cases command
  case setAccountConfig => exact setAccountConfig_arguments solid defaultAccount
  all_goals
    simp only [Request.execution, Command.call, Command.autoExportPath, nonEmpty_eq solid,
      Command.required, Command.missing, Command.arguments, List.mapM_cons, List.mapM_nil,
      given_account solid, given_needed, given_optional, firstOf_single, firstOf_pair,
      PropertyName.written, PropertyName.literal]
  case createAccount | importAccount | getId | getSavedConversation | createConversation
      | createGroup | linkDevice => rfl
  case exportAccount => cases property "carrier:path".toList <;> rfl
  case loadAccount => cases property "carrier:account".toList <;> rfl
  case setNick =>
    simp only [given, Argument.handed, firstOf_pair, PropertyName.written, PropertyName.literal]
    cases (property "carrier:displayName".toList).or (property "carrier:nick".toList) <;> rfl
  case sendTrustRequest | acceptTrustRequest | discardTrustRequest | removeContact | blockContact
      | unblockContact | subscribePresence | unsubscribePresence | revokeDevice =>
    cases property "carrier:contactUri".toList <;> rfl
  case sendMsg =>
    cases property "carrier:contactUri".toList <;> cases property "carrier:text".toList <;> rfl
  case sendConversationMsg =>
    cases property "carrier:conversationId".toList <;> cases property "carrier:text".toList <;> rfl
  case loadConversationMessages =>
    simp only [given, Argument.handed, firstOf_single, PropertyName.written, PropertyName.literal]
    cases property "carrier:conversationId".toList <;>
      cases property "carrier:fromMessage".toList <;> rfl
  case clearConversationCache | acceptConversationRequest | declineConversationRequest
      | removeConversation => cases property "carrier:conversationId".toList <;> rfl
  case inviteContact =>
    cases property "carrier:conversationId".toList <;>
      cases property "carrier:contactUri".toList <;> rfl
  case sendReaction =>
    cases property "carrier:conversationId".toList <;>
      cases property "carrier:messageId".toList <;> cases property "carrier:reaction".toList <;> rfl
  case sendFile =>
    cases property "carrier:conversationId".toList <;> cases property "carrier:path".toList <;> rfl
  case acceptFile =>
    cases property "carrier:conversationId".toList <;>
      cases property "carrier:messageId".toList <;> cases property "carrier:fileId".toList <;>
      cases property "carrier:path".toList <;> rfl
  case cancelFile =>
    cases property "carrier:conversationId".toList <;> cases property "carrier:fileId".toList <;> rfl
  case authorizeDevice => cases property "carrier:pin".toList <;> rfl

theorem execution_arguments (request : Request) (defaultAccount : Text) :
    (request.execution property defaultAccount).map Execution.arguments =
      (request.arguments defaultAccount
        (decide (property PropertyName.preset.written = some presetValue))).mapM
        (given property) := by
  cases request with
  | carrier command => exact call_arguments solid command defaultAccount
  | spin form =>
      have iri : "<http://spinrdf.org/sp#text>".toList = '<' :: spNs ++ "text>".toList := by decide
      simp only [Request.execution, Request.arguments, List.mapM_cons, List.mapM_nil, given,
        Argument.handed, spTextNames, firstOf_pair, spText, PropertyName.written,
        PropertyName.literal, iri]
      cases (property "sp:text".toList).or (property ('<' :: spNs ++ "text>".toList)) with
      | none => rfl
      | some sparql => cases form <;> rfl

end TableRead

end LeanAntenna
