import Lily.Collection.Entries
import Lily.Json.Tree
import Lily.Websocket.Names

/-!
# The message envelope

`WsMessageBody` with its validation and its JSON form. Writing and reading text is the work of
`serde_json`; what the derived implementations make of a tree is part of the model, with the
hand-written visitor of the metadata. Base64 and the order in which a hash map is iterated are
parameters.
-/

namespace Lily.Websocket.Wire

open Validation

abbrev StringMap := Finmap fun _ : String => String

abbrev Bytes := List UInt8

/-- The libraries below the envelope. -/
structure Libraries where
  /-- `serde_json::from_slice`, up to the tree. -/
  parse : Bytes → Option Json
  encodeBase64 : Bytes → String
  decodeBase64 : String → Option Bytes
  /-- The order in which a map is iterated. -/
  iterate : StringMap → List (Σ _ : String, String)
  iterate_entries : ∀ m, (iterate m : Multiset (Σ _ : String, String)) = m.entries

def utf8 (text : String) : Bytes := text.toUTF8.data.toList

@[simp] theorem length_utf8 (text : String) : (utf8 text).length = text.utf8ByteSize := by
  simp [utf8]

/-- The text of the tree is read as the tree: `serde_json` is within its limits. -/
def Libraries.Reads (libs : Libraries) (value : Json) : Prop :=
  libs.parse (utf8 value.print) = some value

/-! ## Data -/

inductive WsMessageKind where
  | event
  | ack
  | error
  | connect
  | disconnect
  deriving DecidableEq

def WsMessageKind.text : WsMessageKind → String
  | event => "event"
  | ack => "ack"
  | error => "error"
  | connect => "connect"
  | disconnect => "disconnect"

def WsMessageKind.ofText : String → Option WsMessageKind
  | "event" => some event
  | "ack" => some ack
  | "error" => some error
  | "connect" => some connect
  | "disconnect" => some disconnect
  | _ => none

inductive WsContentKind where
  | json
  | text
  | binary
  deriving DecidableEq

def WsContentKind.name : WsContentKind → String
  | json => "json"
  | text => "text"
  | binary => "binary"

def WsContentKind.ofText : String → Option WsContentKind
  | "json" => some json
  | "text" => some text
  | "binary" => some binary
  | _ => none

inductive WsContentEncoding where
  | identity
  | base64
  deriving DecidableEq

def WsContentEncoding.text : WsContentEncoding → String
  | identity => "identity"
  | base64 => "base64"

def WsContentEncoding.ofText : String → Option WsContentEncoding
  | "identity" => some identity
  | "base64" => some base64
  | _ => none

theorem WsMessageKind.ofText_text (kind : WsMessageKind) : ofText kind.text = some kind := by
  cases kind <;> rfl

theorem WsContentKind.ofText_name (kind : WsContentKind) : ofText kind.name = some kind := by
  cases kind <;> rfl

theorem WsContentEncoding.ofText_text (encoding : WsContentEncoding) :
    ofText encoding.text = some encoding := by
  cases encoding <;> rfl

inductive WsWireFormat where
  | text
  | binary

def lilyWebsocketProtocolVersion : UInt16 := 2

def jsonContentType : String := "application/json"

def textContentType : String := "text/plain; charset=utf-8"

def binaryContentType : String := "application/octet-stream"

structure WsMessageBody where
  protocolVersion : UInt16
  msgType : WsMessageKind
  event : String
  contentKind : WsContentKind
  contentType : String
  encoding : WsContentEncoding
  data : Json
  namespaceName : Option String
  room : Option String
  messageId : Option String
  ackId : Option String
  timestamp : Int64
  metadata : StringMap

inductive WsBodyError where
  | unsupportedMessageType
  | invalidFormat
  | unsupportedVersion (actual expected : UInt16)
  | unsupportedMessageKind
  | invalidEvent
  | invalidContentType
  | invalidContentEncoding
  | invalidPayload
  | invalidNamespace
  | invalidRoom
  | invalidIdentifier
  | missingAcknowledgementAuthority
  | invalidTimestamp
  | invalidMetadata

/-- An application message of the transport. -/
inductive Message where
  | text (content : String)
  | binary (content : Bytes)

namespace Message

def bytes : Message → Bytes
  | text content => utf8 content
  | binary content => content

def len (message : Message) : Nat := message.bytes.length

end Message

/-- `str::split_once`: what is before and after the first such character. -/
def splitOnce (c : Char) (text : String) : Option (String × String) :=
  match text.toList.span (· ≠ c) with
  | (_, []) => none
  | (before, _ :: after) => some (String.ofList before, String.ofList after)

namespace WsMessageBody

variable (libs : Libraries) (body : WsMessageBody)

/-! ## Validation -/

/-- Content type, encoding and payload have to fit the kind of the content. -/
def validateContent : Except WsBodyError Unit :=
  match body.contentKind with
  | .json => do
    ensure (body.contentType = jsonContentType) .invalidContentType
    ensure (body.encoding = .identity) .invalidContentEncoding
  | .text => do
    ensure (body.contentType = textContentType) .invalidContentType
    ensure (body.encoding = .identity ∧ body.data.asString.isSome) .invalidPayload
  | .binary => do
    ensure (body.contentType = binaryContentType) .invalidContentType
    ensure (body.encoding = .base64) .invalidContentEncoding
    match body.data.asString with
    | none => .error .invalidPayload
    | some encoded =>
      match libs.decodeBase64 encoded with
      | none => .error .invalidPayload
      | some decoded => ensure (libs.encodeBase64 decoded = encoded) .invalidPayload

def isMetadataEntry (key value : String) : Bool :=
  isBoundedIdentifier key maxCanonicalMetadataKeyBytes &&
    value.utf8ByteSize ≤ maxCanonicalMetadataValueBytes && !value.toList.contains '\x00'

def validateCommon : Except WsBodyError Unit := do
  ensure (body.protocolVersion = lilyWebsocketProtocolVersion)
    (.unsupportedVersion body.protocolVersion lilyWebsocketProtocolVersion)
  ensure (isCanonicalEvent body.event) .invalidEvent
  ensure (isValidContentType body.contentType) .invalidContentType
  body.validateContent libs
  ensure (body.namespaceName.all fun name => isCanonicalNamespace name &&
    (splitOnce ':' body.event).map Prod.fst = some name) .invalidNamespace
  ensure (body.room.all fun room => isCanonicalRoom room maxCanonicalRoomBytes) .invalidRoom
  ensure (body.messageId.all fun id => isBoundedIdentifier id maxCanonicalIdBytes)
    .invalidIdentifier
  ensure (body.ackId.all fun id => isBoundedIdentifier id maxCanonicalIdBytes) .invalidIdentifier
  ensure (body.msgType = .ack → body.ackId.isSome) .missingAcknowledgementAuthority
  ensure (0 ≤ body.timestamp.toInt) .invalidTimestamp
  ensure (body.metadata.keys.card ≤ maxCanonicalMetadataEntries) .invalidMetadata
  ensure (∀ entry ∈ body.metadata.entries, isMetadataEntry entry.1 entry.2) .invalidMetadata

/-! ## JSON -/

def fields : List String :=
  ["protocol_version", "msg_type", "event", "content_kind", "content_type", "encoding", "data",
    "namespace", "room", "message_id", "ack_id", "timestamp", "metadata"]

def metadataJson : Json :=
  .object ((libs.iterate body.metadata).map fun entry => (entry.1, .string entry.2))

/-- The fields as they are written: empty options and empty metadata are left out. -/
def entries : List (String × Option Json) :=
  [("protocol_version", some (.int body.protocolVersion.toNat)),
    ("msg_type", some (.string body.msgType.text)),
    ("event", some (.string body.event)),
    ("content_kind", some (.string body.contentKind.name)),
    ("content_type", some (.string body.contentType)),
    ("encoding", some (.string body.encoding.text)),
    ("data", some body.data),
    ("namespace", body.namespaceName.map .string),
    ("room", body.room.map .string),
    ("message_id", body.messageId.map .string),
    ("ack_id", body.ackId.map .string),
    ("timestamp", some (.int body.timestamp.toInt)),
    ("metadata", if body.metadata = ∅ then none else some (body.metadataJson libs))]

/-- The derived `Serialize`. -/
def toJson : Json := .record (body.entries libs)

/-- `deserialize_metadata`: no key twice, and no more entries than allowed. -/
def deserializeMetadata : Json → Option StringMap
  | .object fields => do
    let entries ← fields.mapM fun field => field.2.asString.map fun value =>
      (⟨field.1, value⟩ : Σ _ : String, String)
    let insert (metadata : StringMap) (entry : Σ _ : String, String) : Except Unit StringMap :=
      if entry.1 ∈ metadata then .error ()
      else if maxCanonicalMetadataEntries ≤ metadata.keys.card then .error ()
      else .ok (metadata.insert entry.1 entry.2)
    (entries.foldlM insert ∅).toOption
  | _ => none

def readU16 (value : Json) : Option UInt16 :=
  value.asInt.bind fun n => if 0 ≤ n ∧ n < 65536 then some (UInt16.ofNat n.toNat) else none

def readI64 (value : Json) : Option Int64 :=
  value.asInt.bind fun n =>
    if -9223372036854775808 ≤ n ∧ n < 9223372036854775808 then some (Int64.ofInt n) else none

/-- The derived `Deserialize`, from its fields. -/
def ofMembers (member : String → Option Json) : Option WsMessageBody := do
  let protocolVersion ← (member "protocol_version").bind readU16
  let msgType ← ((member "msg_type").bind Json.asVariant).bind WsMessageKind.ofText
  let event ← (member "event").bind Json.asString
  let contentKind ← ((member "content_kind").bind Json.asVariant).bind WsContentKind.ofText
  let contentType ← (member "content_type").bind Json.asString
  let encoding ← ((member "encoding").bind Json.asVariant).bind WsContentEncoding.ofText
  let data ← member "data"
  let namespaceName ← Json.asOptional Json.asString (member "namespace")
  let room ← Json.asOptional Json.asString (member "room")
  let messageId ← Json.asOptional Json.asString (member "message_id")
  let ackId ← Json.asOptional Json.asString (member "ack_id")
  let timestamp ← (member "timestamp").elim (some 0) readI64
  let metadata ← (member "metadata").elim (some ∅) deserializeMetadata
  return { protocolVersion, msgType, event, contentKind, contentType, encoding, data, namespaceName,
           room, messageId, ackId, timestamp, metadata }

/-- No other fields are known. -/
def ofJson (value : Json) : Option WsMessageBody := (value.members fields).bind ofMembers

/-- `serde_json::from_slice::<WsMessageBody>`. -/
def fromSlice (bytes : Bytes) : Option WsMessageBody := (libs.parse bytes).bind ofJson

/-! ### Reading back -/

theorem readU16_int (n : Int) : readU16 (.int n) =
    if 0 ≤ n ∧ n < 65536 then some (UInt16.ofNat n.toNat) else none := rfl

theorem readI64_int (n : Int) : readI64 (.int n) =
    if -9223372036854775808 ≤ n ∧ n < 9223372036854775808 then some (Int64.ofInt n) else none := rfl

theorem readU16_toNat (n : UInt16) : readU16 (.int n.toNat) = some n := by
  have hbound := n.toNat_lt
  rw [readU16_int, Int.toNat_natCast, if_pos (by omega), UInt16.ofNat_toNat]

theorem readI64_toInt (n : Int64) : readI64 (.int n.toInt) = some n := by
  have hlow := n.le_toInt
  have hhigh := n.toInt_lt
  rw [readI64_int, if_pos ⟨by omega, by omega⟩, Int64.ofInt_toInt]

theorem deserializeMetadata_metadataJson
    (hcard : body.metadata.keys.card ≤ maxCanonicalMetadataEntries) :
    deserializeMetadata (body.metadataJson libs) = some body.metadata := by
  have hentries : ((libs.iterate body.metadata).map fun entry =>
      (entry.1, Json.string entry.2)).mapM (fun field => field.2.asString.map fun value =>
        (⟨field.1, value⟩ : Σ _ : String, String)) = some (libs.iterate body.metadata) := by
    induction libs.iterate body.metadata with
    | nil => rfl
    | cons entry rest ih =>
      rw [List.map_cons, List.mapM_cons, ih]
      rfl
  rw [metadataJson, deserializeMetadata, hentries]
  have hfold := Collection.foldlM_entries (ε := Unit)
    (fun metadata entry =>
      if entry.1 ∈ metadata then .error ()
      else if maxCanonicalMetadataEntries ≤ metadata.keys.card then .error ()
      else .ok (metadata.insert entry.1 entry.2))
    (libs.iterate_entries body.metadata) hcard fun metadata entry _ hnew hroom => by
      rw [if_neg hnew, if_neg (Nat.not_le_of_lt hroom)]
  exact congrArg Except.toOption hfold

theorem names_entries : (body.entries libs).map Prod.fst = fields := rfl

/-- The field at a position of the envelope. -/
theorem member_entries (k : Nat) {name : String} {value : Option Json}
    (h : (body.entries libs)[k]? = some (name, value)) :
    ((body.entries libs).lookup name).join = value := by
  have hnodup : ((body.entries libs).map Prod.fst).Nodup := by
    rw [names_entries]
    decide
  rw [Json.lookup_of_getElem hnodup h]
  rfl

/-- Each field is read back from where it was written. -/
theorem ofMembers_entries (hcard : body.metadata.keys.card ≤ maxCanonicalMetadataEntries) :
    ofMembers (fun name => ((body.entries libs).lookup name).join) = some body := by
  have hversion : ((body.entries libs).lookup "protocol_version").join.bind readU16 =
      some body.protocolVersion := by
    rw [body.member_entries libs 0 rfl, Option.bind_some, readU16_toNat]
  have htimestamp : ((body.entries libs).lookup "timestamp").join.elim (some 0) readI64 =
      some body.timestamp := by
    rw [body.member_entries libs 11 rfl, Option.elim_some, readI64_toInt]
  have hmetadata : ((body.entries libs).lookup "metadata").join.elim (some ∅) deserializeMetadata =
      some body.metadata := by
    rw [body.member_entries libs 12 rfl]
    split_ifs with hempty
    · rw [hempty]
      rfl
    · exact body.deserializeMetadata_metadataJson libs hcard
  have hoption (value : Option String) :
      Json.asOptional Json.asString (value.map Json.string) = some value :=
    Json.asOptional_map (fun _ : String => rfl) (fun _ => Json.noConfusion) value
  simp only [ofMembers, hversion, htimestamp, hmetadata, body.member_entries libs 1 rfl,
    body.member_entries libs 2 rfl, body.member_entries libs 3 rfl, body.member_entries libs 4 rfl,
    body.member_entries libs 5 rfl, body.member_entries libs 6 rfl, body.member_entries libs 7 rfl,
    body.member_entries libs 8 rfl, body.member_entries libs 9 rfl, body.member_entries libs 10 rfl,
    hoption, Json.asVariant, Json.asString, WsMessageKind.ofText_text, WsContentKind.ofText_name,
    WsContentEncoding.ofText_text, Option.bind_some, Option.bind_eq_bind, Option.pure_def]

/-- The derived implementations and the visitor fit together. -/
theorem ofJson_toJson (hcard : body.metadata.keys.card ≤ maxCanonicalMetadataEntries) :
    ofJson (body.toJson libs) = some body := by
  have hnodup : ((body.entries libs).map Prod.fst).Nodup := by
    rw [names_entries]
    decide
  rw [ofJson, toJson, ← body.names_entries libs, Json.members_record hnodup, Option.bind_some]
  exact body.ofMembers_entries libs hcard

/-! ## Messages -/

def toMessage : Except WsBodyError Message := do
  body.validateCommon libs
  return .text (body.toJson libs).print

def toBinaryMessage : Except WsBodyError Message := do
  body.validateCommon libs
  return .binary (utf8 (body.toJson libs).print)

end WsMessageBody

end Lily.Websocket.Wire
