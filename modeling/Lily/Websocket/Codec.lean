import Lily.Websocket.Body

/-!
# The envelope codec

`LilyEnvelopeCodec`: frames and payloads, with the validators of `codec.rs`. They are written apart
from those of the envelope, and have to accept the same names, identifiers and headers.
-/

namespace Lily.Websocket.Wire

open Validation

/-! ## Data -/

inductive WebSocketFrameKind where
  | text
  | binary

inductive WebSocketCodecFailureKind where
  | unsupportedFrame
  | frameTooLarge
  | invalidFrame
  | unsupportedVersion
  | unsupportedMessageKind
  | invalidRoute
  | unsupportedContent
  | invalidPayload

structure RawEnvelope where
  kind : WebSocketFrameKind
  bytes : Bytes

/-- A frame of the transport, which holds it to its size. -/
def RawEnvelope.tryFromMessage (message : Message) (maximumBytes : Nat) :
    Except WebSocketCodecFailureKind RawEnvelope := do
  ensure (message.len ≤ maximumBytes) .frameTooLarge
  match message with
  | .text content => return ⟨.text, utf8 content⟩
  | .binary content => return ⟨.binary, content⟩

inductive WebSocketContentKind where
  | json
  | text
  | binary
  | raw

inductive EncodedWebSocketPayloadData where
  | json (value : Json)
  | text (value : String)
  | bytes (value : Bytes)

structure EncodedWebSocketPayload where
  kind : WebSocketContentKind
  contentType : String
  encoding : String
  data : EncodedWebSocketPayloadData

inductive DecodedWebSocketPayload where
  | json (value : Json)
  | text (value : String)
  | binary (value : Bytes)
  | raw (value : Bytes)

structure WebSocketMessageHeaders where
  values : StringMap

inductive WebSocketInboundMessageKind where
  | event
  | ack
  deriving DecidableEq

inductive WebSocketOutboundMessageKind where
  | event
  | ack
  | error

structure DecodedWebSocketMessage where
  kind : WebSocketInboundMessageKind
  namespaceName : String
  event : String
  payload : EncodedWebSocketPayload
  messageId : Option String
  ackId : Option String
  room : Option String
  timestampMillis : Int64
  headers : WebSocketMessageHeaders
  rawEnvelope : RawEnvelope

structure EncodedWebSocketMessage where
  kind : WebSocketOutboundMessageKind
  namespaceName : String
  event : String
  payload : EncodedWebSocketPayload
  messageId : Option String
  ackId : Option String
  headers : WebSocketMessageHeaders
  frameKind : WebSocketFrameKind

/-! ## Validators -/

def maxWebsocketContentDescriptorBytes : Nat := 128

variable (value : String)

def validateDescriptor : Except WebSocketCodecFailureKind Unit :=
  ensure (value.utf8ByteSize ≠ 0 ∧ value.utf8ByteSize ≤ maxWebsocketContentDescriptorBytes ∧
    (value.toList.head? ≠ some ' ' ∧ value.toList.getLast? ≠ some ' ') ∧
    value.toList.all fun c => 0x20 ≤ c.val && c.val ≤ 0x7e) .unsupportedContent

def validateIdentifier : Except WebSocketCodecFailureKind Unit :=
  ensure (value.utf8ByteSize ≠ 0 ∧ value.utf8ByteSize ≤ maxCanonicalIdBytes ∧
    value.toList.any isAsciiControl = false) .invalidFrame

def validateRouteToken (maximumBytes : Nat) : Except WebSocketCodecFailureKind Unit :=
  ensure (value.utf8ByteSize ≠ 0 ∧ value.utf8ByteSize ≤ maximumBytes ∧
    value.toList.all isTokenChar) .invalidRoute

def validateRoomToken : Except WebSocketCodecFailureKind Unit :=
  ensure (isCanonicalRoom value maxCanonicalRoomBytes) .invalidFrame

namespace WebSocketMessageHeaders

/-- One round of the loop: the entry is checked, put into the map, and the map is looked at. -/
def insert (normalized : StringMap) (entry : Σ _ : String, String) :
    Except WebSocketCodecFailureKind StringMap := do
  ensure (entry.1.utf8ByteSize ≠ 0 ∧ entry.1.utf8ByteSize ≤ maxCanonicalMetadataKeyBytes ∧
    entry.1.toList.any isAsciiControl = false ∧
    entry.2.utf8ByteSize ≤ maxCanonicalMetadataValueBytes ∧
    entry.2.toList.contains '\x00' = false) .invalidFrame
  ensure (entry.1 ∉ normalized ∧
    (normalized.insert entry.1 entry.2).keys.card ≤ maxCanonicalMetadataEntries) .invalidFrame
  return normalized.insert entry.1 entry.2

def tryNew (values : List (Σ _ : String, String)) :
    Except WebSocketCodecFailureKind WebSocketMessageHeaders := do
  return ⟨← values.foldlM insert ∅⟩

end WebSocketMessageHeaders

def EncodedWebSocketPayload.tryNew (kind : WebSocketContentKind) (contentType encoding : String)
    (data : EncodedWebSocketPayloadData) :
    Except WebSocketCodecFailureKind EncodedWebSocketPayload := do
  validateDescriptor contentType
  validateDescriptor encoding
  return ⟨kind, contentType, encoding, data⟩

def DecodedWebSocketMessage.tryNew (kind : WebSocketInboundMessageKind)
    (namespaceName event : String) (payload : EncodedWebSocketPayload)
    (messageId ackId room : Option String) (timestampMillis : Int64)
    (headers : WebSocketMessageHeaders) (rawEnvelope : RawEnvelope) :
    Except WebSocketCodecFailureKind DecodedWebSocketMessage := do
  validateRouteToken namespaceName maxCanonicalNamespaceBytes
  validateRouteToken event maxCanonicalEventBytes
  ensure (namespaceName.utf8ByteSize + 1 + event.utf8ByteSize ≤ maxCanonicalEventBytes)
    .invalidRoute
  (messageId.toList ++ ackId.toList).forM validateIdentifier
  room.toList.forM validateRoomToken
  ensure (kind = .ack → ackId.isSome) .invalidFrame
  ensure (0 ≤ timestampMillis.toInt) .invalidFrame
  return { kind, namespaceName, event, payload, messageId, ackId, room, timestampMillis, headers,
           rawEnvelope }

/-! ## Frames -/

def mapWireBodyError : WsBodyError → WebSocketCodecFailureKind
  | .unsupportedMessageType => .unsupportedFrame
  | .invalidFormat | .invalidNamespace | .invalidRoom | .invalidIdentifier
  | .missingAcknowledgementAuthority | .invalidTimestamp | .invalidMetadata => .invalidFrame
  | .unsupportedVersion _ _ => .unsupportedVersion
  | .unsupportedMessageKind => .unsupportedMessageKind
  | .invalidEvent => .invalidRoute
  | .invalidContentType | .invalidContentEncoding => .unsupportedContent
  | .invalidPayload => .invalidPayload

def contentKindFromWire : WsContentKind → WebSocketContentKind
  | .json => .json
  | .text => .text
  | .binary => .binary

def contentKindToWire : WebSocketContentKind → Except WebSocketCodecFailureKind WsContentKind
  | .json => .ok .json
  | .text => .ok .text
  | .binary => .ok .binary
  | .raw => .error .unsupportedContent

def contentEncodingFromWire : WsContentEncoding → String
  | .identity => "identity"
  | .base64 => "base64"

def contentEncodingToWire (encoding : String) :
    Except WebSocketCodecFailureKind WsContentEncoding :=
  if encoding = "identity" then .ok .identity
  else if encoding = "base64" then .ok .base64
  else .error .unsupportedContent

def WebSocketInboundMessageKind.ofWire :
    WsMessageKind → Except WebSocketCodecFailureKind WebSocketInboundMessageKind
  | .event => .ok .event
  | .ack => .ok .ack
  | .error | .connect | .disconnect => .error .unsupportedMessageKind

def WebSocketOutboundMessageKind.toWire : WebSocketOutboundMessageKind → WsMessageKind
  | .event => .event
  | .ack => .ack
  | .error => .error

/-- A string is text unless the content is JSON. -/
def payloadData (envelope : WsMessageBody) : EncodedWebSocketPayloadData :=
  match envelope.data with
  | .string value => if envelope.contentKind ≠ .json then .text value else .json (.string value)
  | value => .json value

variable (libs : Libraries)

/-- `decode_frame` once the envelope is read. -/
def decodeEnvelope (frame : RawEnvelope) (envelope : WsMessageBody) :
    Except WebSocketCodecFailureKind DecodedWebSocketMessage := do
  (envelope.validateCommon libs).mapError mapWireBodyError
  match splitOnce ':' envelope.event with
  | none => .error .invalidRoute
  | some (namespaceName, event) => do
    ensure (envelope.namespaceName.all (· = namespaceName)) .invalidRoute
    let kind ← WebSocketInboundMessageKind.ofWire envelope.msgType
    let payload ← EncodedWebSocketPayload.tryNew (contentKindFromWire envelope.contentKind)
      envelope.contentType (contentEncodingFromWire envelope.encoding) (payloadData envelope)
    let headers ← WebSocketMessageHeaders.tryNew (libs.iterate envelope.metadata)
    DecodedWebSocketMessage.tryNew kind namespaceName event payload envelope.messageId
      envelope.ackId envelope.room envelope.timestamp headers frame

def decodeFrame (frame : RawEnvelope) : Except WebSocketCodecFailureKind DecodedWebSocketMessage :=
  match WsMessageBody.fromSlice libs frame.bytes with
  | none => .error .invalidFrame
  | some envelope => decodeEnvelope libs frame envelope

variable (timestamp : Int64) (message : EncodedWebSocketMessage)

def EncodedWebSocketMessage.envelope (timestamp : Int64) :
    Except WebSocketCodecFailureKind WsMessageBody := do
  validateRouteToken message.namespaceName maxCanonicalNamespaceBytes
  validateRouteToken message.event maxCanonicalEventBytes
  let route := message.namespaceName ++ ":" ++ message.event
  ensure (route.utf8ByteSize ≤ maxCanonicalEventBytes) .invalidRoute
  let data := match message.payload.data with
    | .json value => value
    | .text value => .string value
    | .bytes value => .string (libs.encodeBase64 value)
  return {
    protocolVersion := lilyWebsocketProtocolVersion
    msgType := message.kind.toWire
    event := route
    contentKind := ← contentKindToWire message.payload.kind
    contentType := message.payload.contentType
    encoding := ← contentEncodingToWire message.payload.encoding
    data
    namespaceName := some message.namespaceName
    room := none
    messageId := message.messageId
    ackId := message.ackId
    timestamp
    metadata := message.headers.values }

def encodeFrame :
    Except WebSocketCodecFailureKind Message := do
  let envelope ← message.envelope libs timestamp
  match message.frameKind with
  | .text => (envelope.toMessage libs).mapError mapWireBodyError
  | .binary => (envelope.toBinaryMessage libs).mapError mapWireBodyError

/-! ## Payloads -/

def decodePayload (payload : EncodedWebSocketPayload) :
    Except WebSocketCodecFailureKind DecodedWebSocketPayload :=
  match payload.kind, payload.data with
  | .json, .json value =>
    if payload.contentType = jsonContentType ∧ payload.encoding = "identity" then .ok (.json value)
    else .error .unsupportedContent
  | .text, .text value =>
    if payload.contentType = textContentType ∧ payload.encoding = "identity" then .ok (.text value)
    else .error .unsupportedContent
  | .binary, .text value =>
    if payload.contentType = binaryContentType ∧ payload.encoding = "base64" then
      match libs.decodeBase64 value with
      | none => .error .invalidPayload
      | some bytes => .ok (.binary bytes)
    else .error .unsupportedContent
  | _, _ => .error .unsupportedContent

def encodePayload :
    DecodedWebSocketPayload → Except WebSocketCodecFailureKind EncodedWebSocketPayload
  | .json value => EncodedWebSocketPayload.tryNew .json jsonContentType "identity" (.json value)
  | .text value => EncodedWebSocketPayload.tryNew .text textContentType "identity" (.text value)
  | .binary value =>
    EncodedWebSocketPayload.tryNew .binary binaryContentType "base64"
      (.text (libs.encodeBase64 value))
  | .raw _ => .error .unsupportedContent

end Lily.Websocket.Wire
