import Antenna.EscapeCore
import Antenna.Library.Utf8

/-! The events of the carrier library and the Turtle line that announces each of them. -/

namespace LeanAntenna

abbrev Buffer (size : Nat) := Vector UInt8 size

/-- A C string or a counted payload: null, or the bytes it points at. -/
abbrev Bytes := Option (List UInt8)

inductive CarrierEventType where
  | connected
  | disconnected
  | accountReady
  | accountError
  | accountArchiveReady
  | selfId
  | trustRequest
  | contactOnline
  | contactOffline
  | contactName
  | contactRestored
  | textMessage
  | messageSent
  | groupMessage
  | groupPeerJoin
  | groupPeerExit
  | conversationRequest
  | conversationReady
  | savedConversation
  | conversationSyncFinished
  | swarmCommit
  | reaction
  | presence
  | fileRecv
  | fileProgress
  | fileComplete
  | deviceLinkPin
  | deviceLinked
  | deviceUnlinked
  | error
  | system
deriving DecidableEq, Repr

/-- The class with which `event_to_turtle` announces the type. -/
def CarrierEventType.className : CarrierEventType → Text
  | connected => "Connected".toList
  | disconnected => "Disconnected".toList
  | accountReady => "AccountReady".toList
  | accountError => "AccountError".toList
  | accountArchiveReady => "AccountArchiveReady".toList
  | selfId => "SelfId".toList
  | trustRequest => "TrustRequest".toList
  | contactOnline => "ContactOnline".toList
  | contactOffline => "ContactOffline".toList
  | contactName => "ContactName".toList
  | contactRestored => "ContactRestored".toList
  | textMessage => "TextMessage".toList
  | messageSent => "MessageSent".toList
  | groupMessage => "GroupMessage".toList
  | groupPeerJoin => "GroupPeerJoin".toList
  | groupPeerExit => "GroupPeerExit".toList
  | conversationRequest => "ConversationRequest".toList
  | conversationReady => "ConversationReady".toList
  | savedConversation => "SavedConversation".toList
  | conversationSyncFinished => "ConversationSyncFinished".toList
  | swarmCommit => "SwarmCommit".toList
  | reaction => "Reaction".toList
  | presence => "Presence".toList
  | fileRecv => "FileRecv".toList
  | fileProgress => "FileProgress".toList
  | fileComplete => "FileComplete".toList
  | deviceLinkPin => "DeviceLinkPin".toList
  | deviceLinked => "DeviceLinked".toList
  | deviceUnlinked => "DeviceUnlinked".toList
  | error => "Error".toList
  | system => "System".toList

/-- The payload of an event. The buffer sizes are the source's: URIs, names and pins take 128
bytes, ids 64, files and devices 96, reactions 32, statuses 16, paths 1024, error fields 64. -/
inductive CarrierEventData where
  | connected
  | disconnected
  | accountReady (selfUri displayName : Buffer 128)
  | accountError (cause : Bytes)
  | accountArchiveReady (path : Buffer 1024)
  | selfId (selfUri : Buffer 128)
  | trustRequest (fromUri : Buffer 128) (payload : Bytes)
  | contactOnline (contactUri : Buffer 128)
  | contactOffline (contactUri : Buffer 128)
  | contactName (contactUri displayName : Buffer 128)
  | contactRestored (contactUri displayName : Buffer 128) (blocked : Bool)
  | textMessage (contactUri : Buffer 128) (conversationId messageId : Buffer 64) (text : Bytes)
  | messageSent (contactUri : Buffer 128) (conversationId messageId : Buffer 64) (status : Int32)
  | groupMessage (conversationId messageId : Buffer 64) (contactUri displayName : Buffer 128)
      (text : Bytes)
  | groupPeerJoin (conversationId : Buffer 64) (memberUri : Buffer 128)
  | groupPeerExit (conversationId : Buffer 64) (memberUri : Buffer 128)
  | conversationRequest (conversationId : Buffer 64) (contactUri : Buffer 128)
  | conversationReady (conversationId : Buffer 64)
  | savedConversation (conversationId : Buffer 64)
  | conversationSyncFinished
  | swarmCommit (conversationId messageId : Buffer 64) (contactUri : Buffer 128)
  | reaction (conversationId messageId reactionId : Buffer 64) (contactUri : Buffer 128)
      (text : Buffer 32)
  | presence (contactUri : Buffer 128) (status : Buffer 16)
  | fileRecv (conversationId : Buffer 64) (contactUri : Buffer 128) (messageId : Buffer 64)
      (fileId : Buffer 96) (filename : Buffer 128) (size : UInt64)
  | fileProgress (conversationId : Buffer 64) (fileId : Buffer 96)
  | fileComplete (conversationId : Buffer 64) (fileId : Buffer 96) (status : Buffer 16)
  | deviceLinkPin (pin : Buffer 128)
  | deviceLinked (deviceId : Buffer 96)
  | deviceUnlinked (deviceId : Buffer 96)
  | error (command errorClass : Buffer 64) (text : Bytes)
  | system (text : Bytes)

structure CarrierEvent where
  timestamp : Int64
  accountId : Buffer 64
  data : CarrierEventData

def CarrierEventData.type : CarrierEventData → CarrierEventType
  | connected => .connected
  | disconnected => .disconnected
  | accountReady _ _ => .accountReady
  | accountError _ => .accountError
  | accountArchiveReady _ => .accountArchiveReady
  | selfId _ => .selfId
  | trustRequest _ _ => .trustRequest
  | contactOnline _ => .contactOnline
  | contactOffline _ => .contactOffline
  | contactName _ _ => .contactName
  | contactRestored _ _ _ => .contactRestored
  | textMessage _ _ _ _ => .textMessage
  | messageSent _ _ _ _ => .messageSent
  | groupMessage _ _ _ _ _ => .groupMessage
  | groupPeerJoin _ _ => .groupPeerJoin
  | groupPeerExit _ _ => .groupPeerExit
  | conversationRequest _ _ => .conversationRequest
  | conversationReady _ => .conversationReady
  | savedConversation _ => .savedConversation
  | conversationSyncFinished => .conversationSyncFinished
  | swarmCommit _ _ _ => .swarmCommit
  | reaction _ _ _ _ _ => .reaction
  | presence _ _ => .presence
  | fileRecv _ _ _ _ _ _ => .fileRecv
  | fileProgress _ _ => .fileProgress
  | fileComplete _ _ _ => .fileComplete
  | deviceLinkPin _ => .deviceLinkPin
  | deviceLinked _ => .deviceLinked
  | deviceUnlinked _ => .deviceUnlinked
  | error _ _ _ => .error
  | system _ => .system

def cstrFromBuf {size : Nat} (buf : Buffer size) : Text :=
  (Utf8.decode (buf.toList.takeWhile (· ≠ 0))).getD []

/-- A C string ends at its first NUL; the fallback of every caller is the empty string. -/
def cstrToString (pointer : Bytes) : Text :=
  match pointer with
  | none => []
  | some bytes => Utf8.lossy (bytes.takeWhile (· ≠ 0))

def bytesToString (payload : Bytes) : Text :=
  match payload with
  | none => []
  | some bytes => Utf8.lossy bytes

section Timestamp

def isLeap (year : Int) : Bool :=
  year.tmod 4 = 0 && (year.tmod 100 ≠ 0 || year.tmod 400 = 0)

/-- The year in which a day counted from the start of `year` lies, and the day within it. Every
round takes at least 365 days away, so the day count is fuel enough. -/
def yearOf : Nat → Int → Int → Int × Int
  | 0, year, remaining => (year, remaining)
  | fuel + 1, year, remaining =>
      let daysInYear := if isLeap year then 366 else 365
      if remaining < daysInYear then (year, remaining)
      else yearOf fuel (year + 1) (remaining - daysInYear)

def daysInMonths (leap : Bool) : List Int :=
  [31, if leap then 29 else 28, 31, 30, 31, 30, 31, 31, 30, 31, 30, 31]

/-- The month in which a day of the year lies, and the day within it. -/
def monthOf : List Int → Nat → Int → Nat × Int
  | [], _, remaining => (0, remaining)
  | days :: months, index, remaining =>
      if remaining < days then (index, remaining)
      else monthOf months (index + 1) (remaining - days)

/-- Rust's `{:0width}` of an integer: the sign counts towards the width. -/
def padded (width : Nat) (value : Int) : Text :=
  let sign := if value < 0 then ['-'] else []
  let digits := Nat.toDigits 10 value.natAbs
  sign ++ List.replicate (width - sign.length - digits.length) '0' ++ digits

def formatTimestamp (timestamp : Int64) : Text :=
  let secs := timestamp.toInt.tdiv 1000
  let days := secs.tdiv 86400
  let timeOfDay := secs.emod 86400
  let (year, dayOfYear) := yearOf (days.toNat + 1) 1970 days
  let (month, dayOfMonth) := monthOf (daysInMonths (isLeap year)) 0 dayOfYear
  padded 4 year ++ '-' :: padded 2 (month + 1) ++ '-' :: padded 2 (dayOfMonth + 1) ++
    'T' :: padded 2 (timeOfDay / 3600) ++ ':' :: padded 2 (timeOfDay % 3600 / 60) ++
    ':' :: padded 2 (timeOfDay % 60)

end Timestamp

inductive FieldValue where
  | text (value : Text)
  | integer (value : Int)
deriving DecidableEq, Repr

/-- A predicate of an event with its decoded value; `present` says whether the line carries it. -/
structure Field where
  name : Text
  value : FieldValue
  present : Bool
deriving DecidableEq, Repr

namespace Field

def required (name : String) (value : Text) : Field :=
  { name := name.toList, value := .text value, present := true }

def optional (name : String) (value : Text) : Field :=
  { name := name.toList, value := .text value, present := value ≠ [] }

def number (name : String) (value : Int) : Field :=
  { name := name.toList, value := .integer value, present := true }

end Field

/-- The predicates of an event in the order in which its line carries them. -/
def CarrierEventData.fields : CarrierEventData → List Field
  | connected => []
  | disconnected => []
  | accountReady selfUri displayName =>
      [.required "selfUri" (cstrFromBuf selfUri), .optional "displayName" (cstrFromBuf displayName)]
  | accountError cause => [.required "cause" (cstrToString cause)]
  | accountArchiveReady path => [.required "path" (cstrFromBuf path)]
  | selfId selfUri => [.required "selfUri" (cstrFromBuf selfUri)]
  | trustRequest fromUri payload =>
      [.required "contactUri" (cstrFromBuf fromUri),
        { name := "payload".toList
          value := .text (bytesToString payload)
          present := decide (0 < (payload.getD []).length) }]
  | contactOnline contactUri => [.required "contactUri" (cstrFromBuf contactUri)]
  | contactOffline contactUri => [.required "contactUri" (cstrFromBuf contactUri)]
  | contactName contactUri displayName =>
      [.required "contactUri" (cstrFromBuf contactUri),
        .required "displayName" (cstrFromBuf displayName)]
  | contactRestored contactUri displayName blocked =>
      [.required "contactUri" (cstrFromBuf contactUri),
        .required "displayName" (cstrFromBuf displayName),
        .required "blocked" (if blocked then "true".toList else "false".toList)]
  | textMessage contactUri conversationId messageId text =>
      [.required "contactUri" (cstrFromBuf contactUri),
        .required "conversationId" (cstrFromBuf conversationId),
        .required "messageId" (cstrFromBuf messageId), .required "text" (bytesToString text)]
  | messageSent contactUri conversationId messageId status =>
      [.required "contactUri" (cstrFromBuf contactUri),
        .required "conversationId" (cstrFromBuf conversationId),
        .required "messageId" (cstrFromBuf messageId), .number "status" status.toInt]
  | groupMessage conversationId messageId contactUri displayName text =>
      [.required "conversationId" (cstrFromBuf conversationId),
        .required "messageId" (cstrFromBuf messageId),
        .required "contactUri" (cstrFromBuf contactUri),
        .optional "displayName" (cstrFromBuf displayName), .required "text" (bytesToString text)]
  | groupPeerJoin conversationId memberUri =>
      [.required "conversationId" (cstrFromBuf conversationId),
        .required "memberUri" (cstrFromBuf memberUri)]
  | groupPeerExit conversationId memberUri =>
      [.required "conversationId" (cstrFromBuf conversationId),
        .required "memberUri" (cstrFromBuf memberUri)]
  | conversationRequest conversationId contactUri =>
      [.required "conversationId" (cstrFromBuf conversationId),
        .required "contactUri" (cstrFromBuf contactUri)]
  | conversationReady conversationId => [.required "conversationId" (cstrFromBuf conversationId)]
  | savedConversation conversationId => [.required "conversationId" (cstrFromBuf conversationId)]
  | conversationSyncFinished => []
  | swarmCommit conversationId messageId contactUri =>
      [.required "conversationId" (cstrFromBuf conversationId),
        .required "contactUri" (cstrFromBuf contactUri),
        .required "messageId" (cstrFromBuf messageId)]
  | reaction conversationId messageId reactionId contactUri text =>
      [.required "conversationId" (cstrFromBuf conversationId),
        .required "messageId" (cstrFromBuf messageId),
        .required "contactUri" (cstrFromBuf contactUri), .required "reaction" (cstrFromBuf text),
        .optional "reactionId" (cstrFromBuf reactionId)]
  | presence contactUri status =>
      [.required "contactUri" (cstrFromBuf contactUri), .required "status" (cstrFromBuf status)]
  | fileRecv conversationId contactUri messageId fileId filename size =>
      [.required "conversationId" (cstrFromBuf conversationId),
        .required "contactUri" (cstrFromBuf contactUri),
        .required "messageId" (cstrFromBuf messageId), .required "fileId" (cstrFromBuf fileId),
        .optional "filename" (cstrFromBuf filename), .number "size" size.toNat]
  | fileProgress conversationId fileId =>
      [.required "conversationId" (cstrFromBuf conversationId),
        .required "fileId" (cstrFromBuf fileId)]
  | fileComplete conversationId fileId status =>
      [.required "conversationId" (cstrFromBuf conversationId),
        .required "fileId" (cstrFromBuf fileId), .required "status" (cstrFromBuf status)]
  | deviceLinkPin pin => [.required "pin" (cstrFromBuf pin)]
  | deviceLinked deviceId => [.required "contactUri" (cstrFromBuf deviceId)]
  | deviceUnlinked deviceId => [.required "contactUri" (cstrFromBuf deviceId)]
  | error command errorClass text =>
      [.required "command" (cstrFromBuf command), .required "class" (cstrFromBuf errorClass),
        .required "message" (cstrToString text)]
  | system text => [.required "message" (cstrToString text)]

/-- An integer as `Display` writes it. -/
def decimal (value : Int) : Text :=
  if value < 0 then '-' :: Nat.toDigits 10 value.natAbs else Nat.toDigits 10 value.natAbs

def quotedField (name : Text) (value : Text) : Text :=
  " ; carrier:".toList ++ name ++ " \"".toList ++ eventEscape value ++ "\"".toList

def Field.text (field : Field) : Text :=
  match field.value with
  | .text value => quotedField field.name value
  | .integer value => " ; carrier:".toList ++ field.name ++ ' ' :: decimal value

/-- The type and, unless it is empty, the account of an event. -/
def header (className : Text) (accountId : Buffer 64) : Text :=
  let account := cstrFromBuf accountId
  "[] a carrier:".toList ++ className ++
    if account = [] then [] else quotedField "account".toList account

def timestampText (timestamp : Int64) : Text :=
  " ; carrier:at \"".toList ++ formatTimestamp timestamp ++ "\"^^xsd:dateTime".toList

def eventToTurtle (event : CarrierEvent) : Text :=
  header event.data.type.className event.accountId ++
    (event.data.fields.filter Field.present).flatMap Field.text ++
    timestampText event.timestamp ++ " .".toList

end LeanAntenna
