import Lily.Collection.OrderedSet
import Lily.Websocket.CodecAgreement

/-!
# Broadcasts as backplane frames

`prepare_broadcast` admits a broadcast for local delivery and puts it in order. `encode` writes the
same command as an envelope for the other nodes, and `decode` is what a node does with the bytes it
receives. The three have limits of their own: the sizes and names that a manager admits, the fixed
overhead of a frame, and the bounds that a receiver checks again.

Reading a UUID and reading a `traceparent` are parameters, as is the order in which each node
iterates its hash maps.
-/

namespace Lily.Websocket.Wire

open Validation Collection

/-! ## Identifiers -/

/-- 128 bits; the order of the bytes is the order of the numbers. -/
abbrev Uuid := Fin 340282366920938463463374607431768211456

namespace Uuid

def nil : Uuid := 0

/-- The hyphenated form, as it is serialized. -/
def text (id : Uuid) : String :=
  Hex.text 8 (id.val / 16 ^ 24) ++ "-" ++ Hex.text 4 (id.val / 16 ^ 20) ++ "-" ++
    Hex.text 4 (id.val / 16 ^ 16) ++ "-" ++ Hex.text 4 (id.val / 16 ^ 12) ++ "-" ++
    Hex.text 12 id.val

end Uuid

def maxPrincipalIdBytes : Nat := 256

/-- The characters with the property `White_Space`. -/
def isWhitespace (c : Char) : Bool :=
  (0x9 ≤ c.val && c.val ≤ 0xd) || c.val == 0x20 || c.val == 0x85 || c.val == 0xa0 ||
    c.val == 0x1680 || (0x2000 ≤ c.val && c.val ≤ 0x200a) || c.val == 0x2028 || c.val == 0x2029 ||
    c.val == 0x202f || c.val == 0x205f || c.val == 0x3000

/-- The characters of the category `Cc`. -/
def isControl (c : Char) : Bool := c.val < 0x20 || (0x7f ≤ c.val && c.val ≤ 0x9f)

inductive PrincipalIdError where
  | empty
  | tooLong
  | surroundingWhitespace
  | controlCharacter

def validatePrincipalId (value : String) : Except PrincipalIdError Unit := do
  ensure (value.utf8ByteSize ≠ 0) .empty
  ensure (value.utf8ByteSize ≤ maxPrincipalIdBytes) .tooLong
  -- `trim` changes a text that begins or ends with white space.
  ensure (¬value.toList.head?.any isWhitespace ∧ ¬value.toList.getLast?.any isWhitespace)
    .surroundingWhitespace
  ensure (¬value.toList.any isControl) .controlCharacter

/-- Only `try_new` makes one. -/
structure PrincipalId where
  value : String
  valid : validatePrincipalId value = .ok ()

namespace PrincipalId

def tryNew (value : String) : Except PrincipalIdError PrincipalId :=
  match h : validatePrincipalId value with
  | .ok () => .ok ⟨value, h⟩
  | .error error => .error error

theorem tryNew_value (id : PrincipalId) : tryNew id.value = .ok id := by
  unfold tryNew
  split
  next => rfl
  next error herror =>
    rw [id.valid] at herror
    cases herror

theorem utf8ByteSize_le (id : PrincipalId) : id.value.utf8ByteSize ≤ maxPrincipalIdBytes := by
  have hvalid := id.valid
  simp only [validatePrincipalId, bind_ok_iff, ensure_ok_iff, exists_const] at hvalid
  exact hvalid.2.1

end PrincipalId

/-! ## Admission -/

def maxBroadcastConnectionTargets : Nat := 256

def maxBroadcastExclusions : Nat := 256

def maxBroadcastRooms : Nat := 256

inductive BroadcastTarget where
  | namespaceName (namespaceName : String)
  | room (namespaceName room : String)
  | rooms (namespaceName : String) (rooms : List String)
  | principal (namespaceName : String) (principalId : PrincipalId)
  | namespaceConnections (namespaceName : String) (connectionIds : List Uuid)

/-- The namespace that owns the selection. -/
def BroadcastTarget.owner : BroadcastTarget → String
  | namespaceName name | room name _ | rooms name _ | principal name _
  | namespaceConnections name _ => name

structure BroadcastMessage where
  target : BroadcastTarget
  message : WsMessageBody
  wireFormat : WsWireFormat
  exclude : List Uuid

/-- The configuration of a connection manager that counts here. -/
structure Limits where
  maxOutboundMessageSize : Nat
  maxRoomNameLength : Nat

inductive ConnectionError where
  | message (error : WsBodyError)
  | outboundMessageTooLarge
  | invalidBackplaneTarget
  | backplaneTargetLimitExceeded
  | backplaneExclusionLimitExceeded

variable (libs : Libraries) (limits : Limits) (message : WsMessageBody) (wireFormat : WsWireFormat)

/-- `to_message` or `to_binary_message`, after the wire format. -/
def WsMessageBody.toFrame (body : WsMessageBody) :
    WsWireFormat → Except WsBodyError Message
  | .text => body.toMessage libs
  | .binary => body.toBinaryMessage libs

def encodeOutboundApplicationFrame : Except ConnectionError Message := do
  let frame ← (message.toFrame libs wireFormat).mapError .message
  ensure (frame.len ≤ limits.maxOutboundMessageSize) .outboundMessageTooLarge
  return frame

def validateBroadcastNamespace (name : String) : Except ConnectionError Unit :=
  ensure (isCanonicalNamespace name ∧ isCanonicalRouteToken name maxCanonicalNamespaceBytes)
    .invalidBackplaneTarget

def validateRoom (room : String) : Except ConnectionError Unit :=
  ensure (isCanonicalRoom room limits.maxRoomNameLength) .invalidBackplaneTarget

/-- The target as it is admitted: lists are sorted and without duplicates. -/
def prepareTarget : BroadcastTarget → Except ConnectionError BroadcastTarget
  | .namespaceName name => return .namespaceName name
  | .room name room => do
    validateRoom limits room
    return .room name room
  | .rooms name rooms => do
    ensure (rooms.length ≤ maxBroadcastRooms) .backplaneTargetLimitExceeded
    (orderedSet rooms).forM (validateRoom limits)
    return .rooms name (orderedSet rooms)
  | .principal name principalId => return .principal name principalId
  | .namespaceConnections name ids => do
    ensure (ids.length ≤ maxBroadcastConnectionTargets) .backplaneTargetLimitExceeded
    return .namespaceConnections name (orderedSet ids)

structure PreparedBroadcast where
  command : BroadcastMessage
  frame : Message

def prepareBroadcast (command : BroadcastMessage) :
    Except ConnectionError PreparedBroadcast := do
  let frame ← encodeOutboundApplicationFrame libs limits command.message command.wireFormat
  validateBroadcastNamespace command.target.owner
  let target ← prepareTarget limits command.target
  ensure (command.exclude.length ≤ maxBroadcastExclusions) .backplaneExclusionLimitExceeded
  return { command := { command with target, exclude := orderedSet command.exclude }, frame }

/-- Only an explicit selection can be known to be empty. -/
def PreparedBroadcast.hasNoTargets (prepared : PreparedBroadcast) : Bool :=
  match prepared.command.target with
  | .namespaceConnections _ ids => ids.all fun id => prepared.command.exclude.contains id
  | .rooms _ rooms => rooms.isEmpty
  | _ => false

/-! ## Trace contexts -/

structure SpanContext where
  traceId : Fin 340282366920938463463374607431768211456
  spanId : Fin 18446744073709551616
  traceFlags : UInt8

def SpanContext.isValid (context : SpanContext) : Bool :=
  context.traceId ≠ 0 && context.spanId ≠ 0

structure W3CTraceContext where
  version : String
  traceId : String
  parentId : String
  traceFlags : String

namespace W3CTraceContext

def fromCurrentSpan (context : SpanContext) : Option W3CTraceContext :=
  if context.isValid then
    some { version := "00"
           traceId := Hex.text 32 context.traceId.val
           parentId := Hex.text 16 context.spanId.val
           traceFlags := Hex.text 2 context.traceFlags.toNat }
  else none

def toTraceparent (context : W3CTraceContext) : String :=
  context.version ++ "-" ++ context.traceId ++ "-" ++ context.parentId ++ "-" ++ context.traceFlags

end W3CTraceContext

/-! ## Envelopes -/

def backplaneProtocolVersion : UInt16 := 4

def backplaneFrameOverheadBytes : Nat := 256 * 1024

def maxTraceparentBytes : Nat := 128

/-- The sum saturates in the source, where then no byte vector is too long. -/
def Limits.maxFrameSize (limits : Limits) : Nat :=
  limits.maxOutboundMessageSize + backplaneFrameOverheadBytes

inductive BackplaneTarget where
  | namespaceName (namespaceName : String)
  | room (namespaceName room : String)
  | rooms (namespaceName : String) (rooms : List String)
  | namespaceConnections (namespaceName : String) (connectionIds : List Uuid)
  | principal (namespaceName : String) (principalId : PrincipalId)

namespace BackplaneTarget

def ofBroadcast : BroadcastTarget → BackplaneTarget
  | .namespaceName name => .namespaceName name
  | .room name roomName => .room name roomName
  | .rooms name roomNames => .rooms name roomNames
  | .namespaceConnections name ids => .namespaceConnections name ids
  | .principal name principalId => .principal name principalId

/-- The target of the broadcast that a received envelope becomes. -/
def toBroadcast : BackplaneTarget → BroadcastTarget
  | .namespaceName name => .namespaceName name
  | .room name roomName => .room name roomName
  | .rooms name roomNames => .rooms name roomNames
  | .namespaceConnections name ids => .namespaceConnections name ids
  | .principal name principalId => .principal name principalId

theorem toBroadcast_ofBroadcast (target : BroadcastTarget) :
    (ofBroadcast target).toBroadcast = target := by
  cases target <;> rfl

end BackplaneTarget

inductive BackplaneWireFormat where
  | text
  | binary

namespace BackplaneWireFormat

def name : BackplaneWireFormat → String
  | text => "text"
  | binary => "binary"

def ofName : String → Option BackplaneWireFormat
  | "text" => some text
  | "binary" => some binary
  | _ => none

def ofWire : WsWireFormat → BackplaneWireFormat
  | .text => text
  | .binary => binary

def toWire : BackplaneWireFormat → WsWireFormat
  | text => .text
  | binary => .binary

theorem ofName_name (format : BackplaneWireFormat) : ofName format.name = some format := by
  cases format <;> rfl

theorem toWire_ofWire (format : WsWireFormat) : (ofWire format).toWire = format := by
  cases format <;> rfl

end BackplaneWireFormat

structure BackplaneEnvelope where
  protocolVersion : UInt16
  messageId : Uuid
  originNodeId : Uuid
  target : BackplaneTarget
  exclusions : List Uuid
  message : WsMessageBody
  wireFormat : BackplaneWireFormat
  traceparent : Option String

/-- The broadcast that `ingest` makes of an envelope. -/
def BackplaneEnvelope.broadcast (envelope : BackplaneEnvelope) : BroadcastMessage where
  target := envelope.target.toBroadcast
  message := envelope.message
  wireFormat := envelope.wireFormat.toWire
  exclude := envelope.exclusions

inductive WebSocketBackplaneProtocolError where
  | frameTooLarge
  | invalidEnvelope
  | messageTooLarge
  | unsupportedVersion (actual : UInt16)
  | invalidTarget
  | tooManyExclusions
  | invalidMessage
  | invalidTraceContext

/-- The libraries below the envelope of a frame. -/
structure BackplaneLibraries extends Libraries where
  /-- `Uuid::parse_str`. -/
  parseUuid : String → Option Uuid
  /-- Whether the W3C propagator extracts a valid context. -/
  acceptsTraceparent : String → Bool

/-! ## JSON -/

def uuidJson (id : Uuid) : Json := .string id.text

def readUuid (libs : BackplaneLibraries) (value : Json) : Option Uuid :=
  value.asString.bind libs.parseUuid

def readPrincipalId (value : Json) : Option PrincipalId :=
  value.asString.bind fun text => (PrincipalId.tryNew text).toOption

namespace BackplaneTarget

/-- The tag, before the fields. -/
def kind : BackplaneTarget → String
  | .namespaceName _ => "namespace"
  | .room _ _ => "room"
  | .rooms _ _ => "rooms"
  | .namespaceConnections _ _ => "namespace_connections"
  | .principal _ _ => "principal"

def entries : BackplaneTarget → List (String × Option Json)
  | .namespaceName name => [("namespace", some (.string name))]
  | .room name roomName => [("namespace", some (.string name)), ("room", some (.string roomName))]
  | .rooms name roomNames =>
    [("namespace", some (.string name)), ("rooms", some (.array (roomNames.map .string)))]
  | .namespaceConnections name ids =>
    [("namespace", some (.string name)), ("connection_ids", some (.array (ids.map uuidJson)))]
  | .principal name principalId =>
    [("namespace", some (.string name)), ("principal_id", some (.string principalId.value))]

def toJson (target : BackplaneTarget) : Json :=
  .record (("kind", some (.string target.kind)) :: target.entries)

/-- The tag of an internally tagged enumeration, and the rest of the value. -/
def tagged : Json → Option (String × Json)
  | .object fields =>
    match fields.filter fun field => field.1 = "kind" with
    | [(_, tag)] =>
      tag.asString.map fun tag => (tag, .object (fields.filter fun field => field.1 ≠ "kind"))
    | _ => none
  | .array (tag :: rest) => tag.asString.map fun tag => (tag, .array rest)
  | _ => none

/-- The derived `Deserialize` of the variants. -/
def ofTagged (libs : BackplaneLibraries) (tag : String) (value : Json) : Option BackplaneTarget :=
  match tag with
  | "namespace" => do
    let member ← value.members ["namespace"]
    return .namespaceName (← (member "namespace").bind Json.asString)
  | "room" => do
    let member ← value.members ["namespace", "room"]
    return .room (← (member "namespace").bind Json.asString)
      (← (member "room").bind Json.asString)
  | "rooms" => do
    let member ← value.members ["namespace", "rooms"]
    return .rooms (← (member "namespace").bind Json.asString)
      (← (member "rooms").bind (Json.asList Json.asString))
  | "namespace_connections" => do
    let member ← value.members ["namespace", "connection_ids"]
    return .namespaceConnections (← (member "namespace").bind Json.asString)
      (← (member "connection_ids").bind (Json.asList (readUuid libs)))
  | "principal" => do
    let member ← value.members ["namespace", "principal_id"]
    return .principal (← (member "namespace").bind Json.asString)
      (← (member "principal_id").bind readPrincipalId)
  | _ => none

def ofJson (libs : BackplaneLibraries) (value : Json) : Option BackplaneTarget :=
  (tagged value).bind fun (tag, rest) => ofTagged libs tag rest

end BackplaneTarget

namespace BackplaneEnvelope

def fields : List String :=
  ["protocol_version", "message_id", "origin_node_id", "target", "exclusions", "message",
    "wire_format", "traceparent"]

def entries (libs : Libraries) (envelope : BackplaneEnvelope) : List (String × Option Json) :=
  [("protocol_version", some (.int envelope.protocolVersion.toNat)),
    ("message_id", some (uuidJson envelope.messageId)),
    ("origin_node_id", some (uuidJson envelope.originNodeId)),
    ("target", some envelope.target.toJson),
    ("exclusions", some (.array (envelope.exclusions.map uuidJson))),
    ("message", some (envelope.message.toJson libs)),
    ("wire_format", some (.string envelope.wireFormat.name)),
    ("traceparent", envelope.traceparent.map .string)]

/-- The `Serialize` of `OutboundBackplaneEnvelope`. -/
def toJson (libs : Libraries) (envelope : BackplaneEnvelope) : Json :=
  .record (envelope.entries libs)

/-- The derived `Deserialize`, from its fields. -/
def ofMembers (libs : BackplaneLibraries) (member : String → Option Json) :
    Option BackplaneEnvelope := do
  let protocolVersion ← (member "protocol_version").bind WsMessageBody.readU16
  let messageId ← (member "message_id").bind (readUuid libs)
  let originNodeId ← (member "origin_node_id").bind (readUuid libs)
  let target ← (member "target").bind (BackplaneTarget.ofJson libs)
  let exclusions ← (member "exclusions").bind (Json.asList (readUuid libs))
  let message ← (member "message").bind WsMessageBody.ofJson
  let wireFormat ← ((member "wire_format").bind Json.asVariant).bind BackplaneWireFormat.ofName
  let traceparent ← Json.asOptional Json.asString (member "traceparent")
  return { protocolVersion, messageId, originNodeId, target, exclusions, message, wireFormat,
           traceparent }

def ofJson (libs : BackplaneLibraries) (value : Json) : Option BackplaneEnvelope :=
  (value.members fields).bind (ofMembers libs)

end BackplaneEnvelope

/-! ## Sending and receiving -/

/-- What a node adds to a broadcast: fresh version 4 identifiers are never nil. -/
structure Stamp where
  messageId : Uuid
  nodeId : Uuid
  span : SpanContext
  messageId_ne : messageId ≠ Uuid.nil
  nodeId_ne : nodeId ≠ Uuid.nil

variable (libs : Libraries) (limits : Limits) (stamp : Stamp) (broadcast : BroadcastMessage)

def Stamp.traceparent : Option String :=
  (W3CTraceContext.fromCurrentSpan stamp.span).map W3CTraceContext.toTraceparent

def envelopeOf : BackplaneEnvelope where
  protocolVersion := backplaneProtocolVersion
  messageId := stamp.messageId
  originNodeId := stamp.nodeId
  target := .ofBroadcast broadcast.target
  exclusions := broadcast.exclude
  message := broadcast.message
  wireFormat := .ofWire broadcast.wireFormat
  traceparent := stamp.traceparent

def encode :
    Except ConnectionError Bytes := do
  let bytes := utf8 ((envelopeOf stamp broadcast).toJson libs).print
  ensure (bytes.length ≤ limits.maxFrameSize) .outboundMessageTooLarge
  return bytes

/-- The same validator as at admission, with the error of a receiver. -/
def validateNamespace (name : String) : Except WebSocketBackplaneProtocolError Unit :=
  (validateBroadcastNamespace name).mapError fun _ => .invalidTarget

def validateDecodedRoom (room : String) : Except WebSocketBackplaneProtocolError Unit :=
  ensure (isCanonicalRoom room limits.maxRoomNameLength) .invalidTarget

def validateDecodedTarget :
    BackplaneTarget → Except WebSocketBackplaneProtocolError Unit
  | .namespaceName name => validateNamespace name
  | .room name room => do
    validateNamespace name
    validateDecodedRoom limits room
  | .rooms name rooms => do
    validateNamespace name
    ensure (rooms ≠ [] ∧ rooms.length ≤ maxBroadcastRooms ∧ rooms.IsChain (· < ·)) .invalidTarget
    rooms.forM (validateDecodedRoom limits)
  | .namespaceConnections name ids => do
    validateNamespace name
    ensure (ids ≠ [] ∧ ids.length ≤ maxBroadcastConnectionTargets ∧ ids.IsChain (· < ·))
      .invalidTarget
  | .principal name principalId => do
    validateNamespace name
    (validatePrincipalId principalId.value).mapError fun _ => .invalidTarget

/-- The checks on an envelope that has been read. -/
def BackplaneEnvelope.validate (libs : BackplaneLibraries) (limits : Limits)
    (envelope : BackplaneEnvelope) : Except WebSocketBackplaneProtocolError Unit := do
  ensure (envelope.protocolVersion = backplaneProtocolVersion)
    (.unsupportedVersion envelope.protocolVersion)
  ensure (envelope.messageId ≠ Uuid.nil ∧ envelope.originNodeId ≠ Uuid.nil) .invalidEnvelope
  (envelope.message.validateCommon libs.toLibraries).mapError fun _ => .invalidMessage
  let message ← (envelope.message.toFrame libs.toLibraries envelope.wireFormat.toWire).mapError
    fun _ => .invalidMessage
  ensure (message.len ≤ limits.maxOutboundMessageSize) .messageTooLarge
  validateDecodedTarget limits envelope.target
  ensure (envelope.exclusions.length ≤ maxBroadcastExclusions ∧ envelope.exclusions.Nodup)
    .tooManyExclusions
  ensure (envelope.traceparent.all fun traceparent =>
    traceparent.utf8ByteSize ≤ maxTraceparentBytes && libs.acceptsTraceparent traceparent)
    .invalidTraceContext

def decode (libs : BackplaneLibraries) (limits : Limits) (bytes : Bytes) :
    Except WebSocketBackplaneProtocolError BackplaneEnvelope := do
  ensure (bytes ≠ []) .invalidEnvelope
  ensure (bytes.length ≤ limits.maxFrameSize) .frameTooLarge
  match (libs.parse bytes).bind (BackplaneEnvelope.ofJson libs) with
  | none => .error .invalidEnvelope
  | some envelope => do
    envelope.validate libs limits
    return envelope

/-! ## Reading back -/

section ReadBack

variable {libs : Libraries} {peer : BackplaneLibraries}

/-- That `uuid` reads what it writes. -/
def BackplaneLibraries.ReadsUuids (peer : BackplaneLibraries) : Prop :=
  ∀ id : Uuid, peer.parseUuid id.text = some id

theorem readUuid_uuidJson (huuid : peer.ReadsUuids) (id : Uuid) :
    readUuid peer (uuidJson id) = some id :=
  huuid id

theorem readPrincipalId_value (id : PrincipalId) :
    readPrincipalId (.string id.value) = some id := by
  have hread : readPrincipalId (.string id.value) = (PrincipalId.tryNew id.value).toOption := rfl
  rw [hread, id.tryNew_value]
  rfl

namespace BackplaneTarget

/-- The tag is set apart from the fields. -/
theorem tagged_toJson (target : BackplaneTarget) :
    tagged target.toJson = some (target.kind, .record target.entries) := by
  cases target <;> rfl

theorem members_entries (target : BackplaneTarget) :
    (Json.record target.entries).members (target.entries.map Prod.fst) =
      some fun name => (target.entries.lookup name).join := by
  have hnodup : (target.entries.map Prod.fst).Nodup := by cases target <;> simp [entries]
  exact Json.members_record hnodup

theorem ofJson_toJson (huuid : peer.ReadsUuids) (target : BackplaneTarget) :
    ofJson peer target.toJson = some target := by
  have hmembers := target.members_entries
  have hstrings (texts : List String) :
      Json.asList Json.asString (.array (texts.map .string)) = some texts :=
    Json.asList_array (fun _ : String => rfl) texts
  have huuids (ids : List Uuid) :
      Json.asList (readUuid peer) (.array (ids.map uuidJson)) = some ids :=
    Json.asList_array (readUuid_uuidJson huuid) ids
  rw [ofJson, tagged_toJson, Option.bind_some]
  cases target
  all_goals
    simp only [entries, List.map_cons, List.map_nil] at hmembers
    simp [ofTagged, kind, entries, hmembers, Json.asString, List.lookup_cons, hstrings, huuids,
      readPrincipalId_value]

end BackplaneTarget

namespace BackplaneEnvelope

variable (libs) (envelope : BackplaneEnvelope)

theorem names_entries : (envelope.entries libs).map Prod.fst = fields := rfl

theorem nodup_names : ((envelope.entries libs).map Prod.fst).Nodup := by
  rw [names_entries]
  decide

/-- The field at a position of the envelope. -/
theorem member_entries (k : Nat) {name : String} {value : Option Json}
    (h : (envelope.entries libs)[k]? = some (name, value)) :
    ((envelope.entries libs).lookup name).join = value := by
  rw [Json.lookup_of_getElem (envelope.nodup_names libs) h]
  rfl

theorem ofJson_toJson (huuid : peer.ReadsUuids)
    (hcard : envelope.message.metadata.keys.card ≤ maxCanonicalMetadataEntries) :
    ofJson peer (envelope.toJson libs) = some envelope := by
  have hversion : ((envelope.entries libs).lookup "protocol_version").join.bind
      WsMessageBody.readU16 = some envelope.protocolVersion := by
    rw [envelope.member_entries libs 0 rfl, Option.bind_some, WsMessageBody.readU16_toNat]
  have hexclusions : ((envelope.entries libs).lookup "exclusions").join.bind
      (Json.asList (readUuid peer)) = some envelope.exclusions := by
    rw [envelope.member_entries libs 4 rfl, Option.bind_some]
    exact Json.asList_array (readUuid_uuidJson huuid) envelope.exclusions
  have htraceparent : Json.asOptional Json.asString
      ((envelope.entries libs).lookup "traceparent").join = some envelope.traceparent := by
    rw [envelope.member_entries libs 7 rfl]
    exact Json.asOptional_map (fun _ : String => rfl) (fun _ => Json.noConfusion) _
  rw [ofJson, toJson, ← envelope.names_entries libs,
    Json.members_record (envelope.nodup_names libs), Option.bind_some]
  simp only [ofMembers, hversion, hexclusions, htraceparent, envelope.member_entries libs 1 rfl,
    envelope.member_entries libs 2 rfl, envelope.member_entries libs 3 rfl,
    envelope.member_entries libs 5 rfl, envelope.member_entries libs 6 rfl, readUuid_uuidJson huuid,
    BackplaneTarget.ofJson_toJson huuid, envelope.message.ofJson_toJson libs hcard, Json.asVariant,
    BackplaneWireFormat.ofName_name, Option.bind_some, Option.bind_eq_bind, Option.pure_def]

end BackplaneEnvelope

end ReadBack

end Lily.Websocket.Wire
