import Lily.Websocket.Codec

/-!
# What is sent can be received

The validators of the codec accept what those of the envelope accept, so that `decode_frame` takes
exactly the valid envelopes of events and acknowledgements. A frame that was encoded is decoded to
what was encoded.
-/

namespace Lily.Websocket.Wire

open Validation WsMessageBody EncodedWebSocketPayload

/-! ## Validators -/

variable {value : String}

theorem validateDescriptor_ok_iff :
    validateDescriptor value = .ok () ↔ isValidContentType value = true := by
  have hbound : maxWebsocketContentDescriptorBytes = maxCanonicalContentTypeBytes := rfl
  simp only [validateDescriptor, hbound, ensure_ok_iff, isValidContentType, Bool.and_eq_true,
    decide_eq_true_eq]
  tauto

theorem validateIdentifier_ok_iff :
    validateIdentifier value = .ok () ↔ isBoundedIdentifier value maxCanonicalIdBytes = true := by
  simp only [validateIdentifier, ensure_ok_iff, isBoundedIdentifier, Bool.and_eq_true,
    decide_eq_true_eq, Bool.not_eq_true']
  tauto

theorem validateRouteToken_ok_iff {maximumBytes : Nat} :
    validateRouteToken value maximumBytes = .ok () ↔
      isCanonicalRouteToken value maximumBytes = true := by
  simp only [validateRouteToken, ensure_ok_iff, isCanonicalRouteToken, Bool.and_eq_true,
    decide_eq_true_eq]
  tauto

theorem validateRoomToken_ok_iff :
    validateRoomToken value = .ok () ↔ isCanonicalRoom value maxCanonicalRoomBytes = true := by
  rw [validateRoomToken, ensure_ok_iff]

theorem insert_eq {normalized : StringMap} {entry : Σ _ : String, String}
    (hentry : isMetadataEntry entry.1 entry.2 = true) (hnew : entry.1 ∉ normalized)
    (hroom : normalized.keys.card < maxCanonicalMetadataEntries) :
    WebSocketMessageHeaders.insert normalized entry = .ok (normalized.insert entry.1 entry.2) := by
  simp only [isMetadataEntry, isBoundedIdentifier, Bool.and_eq_true,
    decide_eq_true_eq, Bool.not_eq_true'] at hentry
  have hcard : (normalized.insert entry.1 entry.2).keys.card ≤ maxCanonicalMetadataEntries := by
    rw [Collection.card_keys, Finmap.entries_insert_of_notMem hnew, Multiset.card_cons,
      ← Collection.card_keys]
    exact hroom
  rw [WebSocketMessageHeaders.insert, bind_ok_iff]
  refine ⟨(), ensure_ok_iff.mpr (by tauto), ?_⟩
  rw [bind_ok_iff]
  exact ⟨(), ensure_ok_iff.mpr ⟨hnew, hcard⟩, rfl⟩

/-- Valid metadata are valid headers, in whatever order the map is iterated. -/
theorem tryNew_iterate (libs : Libraries) {metadata : StringMap}
    (hcard : metadata.keys.card ≤ maxCanonicalMetadataEntries)
    (hentries : ∀ entry ∈ metadata.entries, isMetadataEntry entry.1 entry.2 = true) :
    WebSocketMessageHeaders.tryNew (libs.iterate metadata) = .ok ⟨metadata⟩ := by
  have hfold := Collection.foldlM_entries WebSocketMessageHeaders.insert
    (libs.iterate_entries metadata) hcard fun normalized entry hmem hnew hroom =>
      insert_eq (hentries entry hmem) hnew hroom
  rw [WebSocketMessageHeaders.tryNew, hfold]
  rfl

/-! ## Routes -/

theorem span_append {c : Char} {first second : List Char} (h : c ∉ first) :
    (first ++ c :: second).span (· ≠ c) = (first, c :: second) := by
  rw [List.span_eq_takeWhile_dropWhile]
  have hfirst : ∀ x ∈ first, decide (x ≠ c) = true := by
    intro x hx
    rw [decide_eq_true_eq]
    rintro rfl
    exact h hx
  rw [List.takeWhile_append_of_pos hfirst, List.dropWhile_append_of_pos hfirst]
  simp

variable {second first : String}

theorem splitOnce_append {c : Char} (h : c ∉ first.toList) :
    splitOnce c (first ++ String.singleton c ++ second) = some (first, second) := by
  have htext : (first ++ String.singleton c ++ second).toList =
      first.toList ++ c :: second.toList := by
    simp
  simp only [splitOnce, htext, span_append h, String.ofList_toList]

theorem colon_notMem {token : String} {maxLen : Nat}
    (h : isCanonicalRouteToken token maxLen = true) : ':' ∉ token.toList := by
  intro hmem
  simp only [isCanonicalRouteToken, Bool.and_eq_true, List.all_eq_true] at h
  exact absurd (h.2 ':' hmem) (by decide)

/-- The two tokens of a canonical event. -/
structure EventParts (event first second : String) : Prop where
  joined : event = first ++ ":" ++ second
  token : isCanonicalRouteToken first maxCanonicalNamespaceBytes = true
  token' : isCanonicalRouteToken second maxCanonicalEventBytes = true
  size : first.utf8ByteSize + 1 + second.utf8ByteSize ≤ maxCanonicalEventBytes

/-- A canonical event is two tokens with a colon between them. -/
theorem isCanonicalEvent_split {event : String} (h : isCanonicalEvent event = true) :
    ∃ first second, EventParts event first second := by
  simp only [isCanonicalEvent, Bool.and_eq_true, decide_eq_true_eq] at h
  obtain ⟨⟨-, hsize⟩, hparts⟩ := h
  split at hparts
  next first second hsplit =>
    rw [Bool.and_eq_true] at hparts
    have hjoin : event.toList = first ++ ':' :: second := by
      have hwhole : [':'].intercalate (event.toList.splitOn ':') = event.toList :=
        List.intercalate_splitOn ':'
      rw [hsplit] at hwhole
      simpa using hwhole.symm
    have hevent : event = String.ofList first ++ ":" ++ String.ofList second := by
      rw [← String.toList_inj, hjoin]
      simp
    refine ⟨_, _, hevent, hparts.1, hparts.2, ?_⟩
    rw [hevent, String.utf8ByteSize_append, String.utf8ByteSize_append] at hsize
    exact hsize
  next => cases hparts

/-! ## Envelopes -/

/-- What `validate_common` establishes. -/
structure WsMessageBody.Valid (libs : Libraries) (body : WsMessageBody) : Prop where
  version : body.protocolVersion = lilyWebsocketProtocolVersion
  event : isCanonicalEvent body.event = true
  contentType : isValidContentType body.contentType = true
  content : body.validateContent libs = .ok ()
  namespaceName : (body.namespaceName.all fun name => isCanonicalNamespace name &&
    (splitOnce ':' body.event).map Prod.fst = some name) = true
  room : (body.room.all fun room => isCanonicalRoom room maxCanonicalRoomBytes) = true
  messageId : (body.messageId.all fun id => isBoundedIdentifier id maxCanonicalIdBytes) = true
  ackId : (body.ackId.all fun id => isBoundedIdentifier id maxCanonicalIdBytes) = true
  authority : body.msgType = .ack → body.ackId.isSome = true
  timestamp : 0 ≤ body.timestamp.toInt
  card : body.metadata.keys.card ≤ maxCanonicalMetadataEntries
  entries : ∀ entry ∈ body.metadata.entries, isMetadataEntry entry.1 entry.2 = true

theorem WsMessageBody.validateCommon_ok_iff {libs : Libraries} {body : WsMessageBody} :
    body.validateCommon libs = .ok () ↔ body.Valid libs := by
  simp only [validateCommon, bind_ok_iff, ensure_ok_iff, exists_const]
  constructor
  · rintro ⟨h1, h2, h3, _, h4, h5, h6, h7, h8, h9, h10, h11, h12⟩
    exact ⟨h1, h2, h3, h4, h5, h6, h7, h8, h9, h10, h11, h12⟩
  · rintro ⟨h1, h2, h3, h4, h5, h6, h7, h8, h9, h10, h11, h12⟩
    exact ⟨h1, h2, h3, (), h4, h5, h6, h7, h8, h9, h10, h11, h12⟩

variable {libs : Libraries} {envelope : WsMessageBody}

theorem DecodedWebSocketMessage.tryNew_of_valid (h : envelope.Valid libs)
    {kind : WebSocketInboundMessageKind} (payload : EncodedWebSocketPayload)
    (headers : WebSocketMessageHeaders) (frame : RawEnvelope)
    (hparts : EventParts envelope.event first second)
    (hkind : kind = .ack → envelope.msgType = .ack) :
    tryNew kind first second payload envelope.messageId envelope.ackId envelope.room
      envelope.timestamp headers frame =
    .ok { kind, namespaceName := first, event := second, payload, messageId := envelope.messageId,
          ackId := envelope.ackId, room := envelope.room, timestampMillis := envelope.timestamp,
          headers, rawEnvelope := frame } := by
  have hids : (envelope.messageId.toList ++ envelope.ackId.toList).forM validateIdentifier =
      .ok () := by
    rw [forM_ok_iff]
    intro id hid
    rw [validateIdentifier_ok_iff]
    rw [List.mem_append, Option.mem_toList, Option.mem_toList] at hid
    rcases hid with hid | hid
    · simpa [hid] using h.messageId
    · simpa [hid] using h.ackId
  have hroom : envelope.room.toList.forM validateRoomToken = .ok () := by
    rw [forM_ok_iff]
    intro room hroom
    rw [Option.mem_toList] at hroom
    rw [validateRoomToken_ok_iff]
    simpa [hroom] using h.room
  simp only [tryNew, bind_ok_iff, ensure_ok_iff]
  exact ⟨(), validateRouteToken_ok_iff.mpr hparts.token, (),
    validateRouteToken_ok_iff.mpr hparts.token', (), hparts.size, (), hids, (), hroom, (),
    fun hack => h.authority (hkind hack), (), h.timestamp, rfl⟩

def WsMessageBody.payload (envelope : WsMessageBody) : EncodedWebSocketPayload :=
  ⟨contentKindFromWire envelope.contentKind, envelope.contentType,
    contentEncodingFromWire envelope.encoding, payloadData envelope⟩

theorem WebSocketInboundMessageKind.ofWire_ok {kind : WsMessageKind}
    {inbound : WebSocketInboundMessageKind} (h : ofWire kind = .ok inbound) :
    inbound = .ack → kind = .ack := by
  cases kind <;> cases h <;> decide

theorem decodeFrame_of_valid {frame : RawEnvelope}
    (hparse : fromSlice libs frame.bytes = some envelope) (h : envelope.Valid libs)
    (hparts : EventParts envelope.event first second) {kind : WebSocketInboundMessageKind}
    (hkind : WebSocketInboundMessageKind.ofWire envelope.msgType = .ok kind) :
    decodeFrame libs frame =
      .ok { kind, namespaceName := first, event := second
            payload := envelope.payload
            messageId := envelope.messageId, ackId := envelope.ackId, room := envelope.room
            timestampMillis := envelope.timestamp, headers := ⟨envelope.metadata⟩
            rawEnvelope := frame } := by
  have hsplit : splitOnce ':' envelope.event = some (first, second) := by
    rw [hparts.joined]
    exact splitOnce_append (colon_notMem hparts.token)
  have hnamespace : (envelope.namespaceName.all (· = first)) = true := by
    have hname := h.namespaceName
    cases hexplicit : envelope.namespaceName with
    | none => rfl
    | some name =>
      rw [hexplicit, hsplit] at hname
      simp only [Option.all_some, Option.map_some, Option.some.injEq, Bool.and_eq_true,
        decide_eq_true_eq] at hname ⊢
      exact hname.2.symm
  have hpayload : tryNew (contentKindFromWire envelope.contentKind)
      envelope.contentType (contentEncodingFromWire envelope.encoding) (payloadData envelope) =
      .ok envelope.payload := by
    have hencoding : validateDescriptor (contentEncodingFromWire envelope.encoding) = .ok () := by
      rw [validateDescriptor_ok_iff]
      cases envelope.encoding <;> decide
    rw [tryNew, validateDescriptor_ok_iff.mpr h.contentType, hencoding]
    rfl
  have hmessage := DecodedWebSocketMessage.tryNew_of_valid h envelope.payload ⟨envelope.metadata⟩
    frame hparts (WebSocketInboundMessageKind.ofWire_ok hkind)
  simp only [decodeFrame, hparse, decodeEnvelope, hsplit, bind_ok_iff, ensure_ok_iff]
  exact ⟨(), mapError_ok_iff.mpr (validateCommon_ok_iff.mpr h), (), hnamespace, kind, hkind, _,
    hpayload, _, tryNew_iterate libs h.card h.entries, hmessage⟩

/-- `decode_frame` accepts exactly the valid envelopes of a kind that can come in. -/
theorem decodeFrame_ok_iff {frame : RawEnvelope} :
    (∃ decoded, decodeFrame libs frame = .ok decoded) ↔
      ∃ envelope, fromSlice libs frame.bytes = some envelope ∧
        envelope.validateCommon libs = .ok () ∧
        (envelope.msgType = .event ∨ envelope.msgType = .ack) := by
  constructor
  · rintro ⟨decoded, hdecoded⟩
    unfold decodeFrame at hdecoded
    split at hdecoded
    next => cases hdecoded
    next envelope hparse =>
      rw [decodeEnvelope, bind_ok_iff] at hdecoded
      obtain ⟨_, hvalid, hdecoded⟩ := hdecoded
      refine ⟨envelope, hparse, mapError_ok_iff.mp hvalid, ?_⟩
      split at hdecoded
      next => cases hdecoded
      next =>
        simp only [bind_ok_iff] at hdecoded
        obtain ⟨_, _, kind, hkind, _⟩ := hdecoded
        cases htype : envelope.msgType with
        | event => exact .inl rfl
        | ack => exact .inr rfl
        | _ =>
          rw [htype] at hkind
          cases hkind
  · rintro ⟨envelope, hparse, hvalid, htype⟩
    have h := validateCommon_ok_iff.mp hvalid
    obtain ⟨first, second, hparts⟩ := isCanonicalEvent_split h.event
    have hkind : ∃ kind, WebSocketInboundMessageKind.ofWire envelope.msgType = .ok kind := by
      rcases htype with htype | htype
      · exact ⟨.event, by rw [htype]; rfl⟩
      · exact ⟨.ack, by rw [htype]; rfl⟩
    obtain ⟨kind, hkind⟩ := hkind
    exact ⟨_, decodeFrame_of_valid hparse h hparts hkind⟩

/-! ## Round trip -/

def WebSocketInboundMessageKind.outbound :
    WebSocketInboundMessageKind → WebSocketOutboundMessageKind
  | .event => .event
  | .ack => .ack

/-- What is decoded is what was encoded, part by part. -/
structure Returns (libs : Libraries) (message : EncodedWebSocketMessage)
    (payload : DecodedWebSocketPayload) (decoded : DecodedWebSocketMessage) : Prop where
  namespaceName : decoded.namespaceName = message.namespaceName
  event : decoded.event = message.event
  messageId : decoded.messageId = message.messageId
  ackId : decoded.ackId = message.ackId
  headers : decoded.headers = message.headers
  kind : decoded.kind.outbound = message.kind
  payload : decodePayload libs decoded.payload = .ok payload

/-- What the envelope of a message holds. -/
structure Carries (libs : Libraries) (message : EncodedWebSocketMessage)
    (envelope : WsMessageBody) : Prop where
  first : isCanonicalRouteToken message.namespaceName maxCanonicalNamespaceBytes = true
  second : isCanonicalRouteToken message.event maxCanonicalEventBytes = true
  size : (message.namespaceName ++ ":" ++ message.event).utf8ByteSize ≤ maxCanonicalEventBytes
  event : envelope.event = message.namespaceName ++ ":" ++ message.event
  msgType : envelope.msgType = message.kind.toWire
  messageId : envelope.messageId = message.messageId
  ackId : envelope.ackId = message.ackId
  metadata : envelope.metadata = message.headers.values
  contentType : envelope.contentType = message.payload.contentType
  contentKind : contentKindToWire message.payload.kind = .ok envelope.contentKind
  encoding : contentEncodingToWire message.payload.encoding = .ok envelope.encoding
  data : envelope.data = match message.payload.data with
    | .json value => value
    | .text value => .string value
    | .bytes value => .string (libs.encodeBase64 value)

variable {message : EncodedWebSocketMessage}

theorem EncodedWebSocketMessage.carries {timestamp : Int64}
    (h : message.envelope libs timestamp = .ok envelope) : Carries libs message envelope := by
  simp only [EncodedWebSocketMessage.envelope, bind_ok_iff, ensure_ok_iff] at h
  obtain ⟨_, hfirst, _, hsecond, _, hsize, contentKind, hkind, encoding, hencoding, henvelope⟩ := h
  cases henvelope
  exact {
    first := validateRouteToken_ok_iff.mp hfirst
    second := validateRouteToken_ok_iff.mp hsecond
    size := hsize
    event := rfl
    msgType := rfl
    messageId := rfl
    ackId := rfl
    metadata := rfl
    contentType := rfl
    contentKind := hkind
    encoding := hencoding
    data := rfl }

theorem encodeFrame_ok {timestamp : Int64} {frame : Message}
    (h : encodeFrame libs timestamp message = .ok frame) :
    ∃ envelope, message.envelope libs timestamp = .ok envelope ∧ envelope.Valid libs ∧
      frame.bytes = utf8 (envelope.toJson libs).print := by
  rw [encodeFrame, bind_ok_iff] at h
  obtain ⟨envelope, henvelope, hframe⟩ := h
  refine ⟨envelope, henvelope, ?_⟩
  rw [← validateCommon_ok_iff]
  cases hvalid : envelope.validateCommon libs with
  | error error =>
    cases hkind : message.frameKind <;>
      simp [hkind, toMessage, toBinaryMessage, hvalid, bind,
        Except.bind, Except.mapError] at hframe
  | ok =>
    cases hkind : message.frameKind <;>
      simp [hkind, toMessage, toBinaryMessage, hvalid, bind,
        Except.bind, Except.mapError, pure, Except.pure] at hframe <;>
      simp [← hframe, Message.bytes]

theorem EncodedWebSocketPayload.tryNew_ok {kind : WebSocketContentKind}
    {contentType encoding : String} {data : EncodedWebSocketPayloadData}
    {payload : EncodedWebSocketPayload}
    (h : tryNew kind contentType encoding data = .ok payload) :
    payload = ⟨kind, contentType, encoding, data⟩ := by
  simp only [tryNew, bind_ok_iff] at h
  obtain ⟨_, -, _, -, hpayload⟩ := h
  exact (Except.ok.inj hpayload).symm

/-- The payload comes back from what the envelope holds of it. -/
theorem decodePayload_carries
    (hbase64 : ∀ bytes, libs.decodeBase64 (libs.encodeBase64 bytes) = some bytes)
    {payload : DecodedWebSocketPayload}
    (hpayload : encodePayload libs payload = .ok message.payload)
    (h : Carries libs message envelope) : decodePayload libs envelope.payload = .ok payload := by
  have hkind := h.contentKind
  have hencoding := h.encoding
  have hdata := h.data
  rw [WsMessageBody.payload, h.contentType]
  cases payload with
  | raw value => cases hpayload
  | json value | text value | binary value =>
    rw [tryNew_ok hpayload] at hkind hencoding hdata ⊢
    rw [payloadData, ← Except.ok.inj hkind, ← Except.ok.inj hencoding, hdata]
    first
      | rfl
      | cases value <;> rfl
      | simp [decodePayload, contentKindFromWire, contentEncodingFromWire, hbase64]

theorem RawEnvelope.tryFromMessage_ok {message : Message} {maximumBytes : Nat}
    (h : message.len ≤ maximumBytes) :
    ∃ raw, tryFromMessage message maximumBytes = .ok raw ∧ raw.bytes = message.bytes := by
  cases message with
  | text content =>
    refine ⟨⟨.text, utf8 content⟩, ?_, rfl⟩
    rw [tryFromMessage, ensure, if_pos h]
    rfl
  | binary content =>
    refine ⟨⟨.binary, content⟩, ?_, rfl⟩
    rw [tryFromMessage, ensure, if_pos h]
    rfl

/-- `hbase64` and `hreads` are what is asked of the libraries: that Base64 round-trips, and that
`serde_json` reads the envelope it wrote. -/
theorem codec_round_trip (libs : Libraries)
    (hbase64 : ∀ bytes, libs.decodeBase64 (libs.encodeBase64 bytes) = some bytes) :
    (∀ (timestamp : Int64) (payload : DecodedWebSocketPayload) (message : EncodedWebSocketMessage)
        (frame : Message) (maximumBytes : Nat),
      message.kind ≠ .error → encodePayload libs payload = .ok message.payload →
      encodeFrame libs timestamp message = .ok frame → frame.len ≤ maximumBytes →
      (∀ envelope, message.envelope libs timestamp = .ok envelope →
        libs.Reads (envelope.toJson libs)) →
      ∃ raw decoded, RawEnvelope.tryFromMessage frame maximumBytes = .ok raw ∧
        decodeFrame libs raw = .ok decoded ∧ Returns libs message payload decoded) ∧
    ∀ frame, (∃ decoded, decodeFrame libs frame = .ok decoded) ↔
      ∃ envelope, fromSlice libs frame.bytes = some envelope ∧
        envelope.validateCommon libs = .ok () ∧
        (envelope.msgType = .event ∨ envelope.msgType = .ack) := by
  refine ⟨?_, fun frame => decodeFrame_ok_iff⟩
  intro timestamp payload message frame maximumBytes hkind hpayload hframe hlen hreads
  obtain ⟨envelope, henvelope, hvalid, hbytes⟩ := encodeFrame_ok hframe
  obtain ⟨raw, hraw, hrawBytes⟩ := RawEnvelope.tryFromMessage_ok hlen
  have hcarries := EncodedWebSocketMessage.carries henvelope
  have hparse : fromSlice libs raw.bytes = some envelope := by
    have hread : libs.parse (utf8 (envelope.toJson libs).print) = some (envelope.toJson libs) :=
      hreads envelope henvelope
    rw [fromSlice, hrawBytes, hbytes, hread, Option.bind_some,
      envelope.ofJson_toJson libs hvalid.card]
  have hinbound : ∃ inbound : WebSocketInboundMessageKind, inbound.outbound = message.kind ∧
      WebSocketInboundMessageKind.ofWire envelope.msgType = .ok inbound := by
    rw [hcarries.msgType]
    cases htype : message.kind with
    | event => exact ⟨.event, rfl, rfl⟩
    | ack => exact ⟨.ack, rfl, rfl⟩
    | error => exact absurd htype hkind
  obtain ⟨inbound, houtbound, hofWire⟩ := hinbound
  have hsize : message.namespaceName.utf8ByteSize + 1 + message.event.utf8ByteSize ≤
      maxCanonicalEventBytes := by
    have hroute := hcarries.size
    rwa [String.utf8ByteSize_append, String.utf8ByteSize_append] at hroute
  have hdecode := decodeFrame_of_valid hparse hvalid
    ⟨hcarries.event, hcarries.first, hcarries.second, hsize⟩ hofWire
  refine ⟨raw, _, hraw, hdecode, ?_⟩
  exact {
    namespaceName := rfl
    event := rfl
    messageId := hcarries.messageId
    ackId := hcarries.ackId
    headers := congrArg WebSocketMessageHeaders.mk hcarries.metadata
    kind := houtbound
    payload := decodePayload_carries hbase64 hpayload hcarries }

/-- A parser that knows one text, and bytes written as characters. -/
noncomputable def knowing (value : Json) : Libraries where
  parse bytes := if bytes = utf8 value.print then some value else none
  encodeBase64 bytes := String.ofList (bytes.map fun byte => Char.ofNat byte.toNat)
  decodeBase64 text := some (text.toList.map fun c => UInt8.ofNat c.toNat)
  iterate metadata := metadata.entries.toList
  iterate_entries metadata := metadata.entries.coe_toList

theorem knowing_reads (value : Json) : (knowing value).Reads value :=
  if_pos rfl

set_option maxRecDepth 8000 in
theorem knowing_base64 (value : Json) (bytes : Bytes) :
    (knowing value).decodeBase64 ((knowing value).encodeBase64 bytes) = some bytes := by
  have hbyte : ∀ n < 256, (Char.ofNat n).toNat = n := by decide
  simp only [knowing, String.toList_ofList, List.map_map, Option.some.injEq]
  refine (List.map_congr_left fun byte _ => ?_).trans (List.map_id bytes)
  rw [Function.comp_apply, hbyte byte.toNat byte.toNat_lt, UInt8.ofNat_toNat]
  rfl

/-- A payload with two members. -/
def hello : Json := .object [("text", .string "hello"), ("room", .int 7)]

def greeting : EncodedWebSocketMessage where
  kind := .event
  namespaceName := "chat"
  event := "send"
  payload := ⟨.json, jsonContentType, "identity", .json hello⟩
  messageId := some "m-1"
  ackId := some "a-1"
  headers := ⟨Finmap.singleton "lang" "en"⟩
  frameKind := .text

def greetingEnvelope : WsMessageBody where
  protocolVersion := 2
  msgType := .event
  event := "chat:send"
  contentKind := .json
  contentType := jsonContentType
  encoding := .identity
  data := hello
  namespaceName := some "chat"
  room := none
  messageId := some "m-1"
  ackId := some "a-1"
  timestamp := 0
  metadata := Finmap.singleton "lang" "en"

theorem greetingEnvelope_valid (libs : Libraries) : greetingEnvelope.Valid libs where
  version := rfl
  event := by decide
  contentType := by decide
  content := by simp [validateContent, greetingEnvelope, ensure, bind, Except.bind]
  namespaceName := by decide
  room := rfl
  messageId := by decide
  ackId := by decide
  authority := nofun
  timestamp := by decide
  card := by decide
  entries := by decide

theorem greeting_envelope (libs : Libraries) : greeting.envelope libs 0 = .ok greetingEnvelope := by
  have hfirst : validateRouteToken "chat" maxCanonicalNamespaceBytes = .ok () :=
    validateRouteToken_ok_iff.mpr (by decide)
  have hsecond : validateRouteToken "send" maxCanonicalEventBytes = .ok () :=
    validateRouteToken_ok_iff.mpr (by decide)
  simp only [EncodedWebSocketMessage.envelope, bind_ok_iff, ensure_ok_iff]
  exact ⟨(), hfirst, (), hsecond, (), by decide, .json, rfl, .identity, rfl, rfl⟩

theorem greeting_round_trip :
    let libs := knowing (greetingEnvelope.toJson (knowing .null))
    let frame := Message.text (greetingEnvelope.toJson libs).print
    ∃ raw decoded, RawEnvelope.tryFromMessage frame frame.len = .ok raw ∧
      decodeFrame libs raw = .ok decoded ∧ Returns libs greeting (.json hello) decoded := by
  intro libs frame
  have hpayload : encodePayload libs (.json hello) = .ok greeting.payload := by
    simp only [encodePayload, tryNew, bind_ok_iff]
    exact ⟨(), validateDescriptor_ok_iff.mpr (by decide), (),
      validateDescriptor_ok_iff.mpr (by decide), rfl⟩
  have hframe : encodeFrame libs 0 greeting = .ok frame := by
    rw [encodeFrame, greeting_envelope]
    show (greetingEnvelope.toMessage libs).mapError mapWireBodyError = .ok frame
    rw [toMessage,
      validateCommon_ok_iff.mpr (greetingEnvelope_valid libs)]
    rfl
  refine (codec_round_trip libs (knowing_base64 _)).1 0 (.json hello) greeting frame frame.len nofun
    hpayload hframe (Nat.le_refl _) fun envelope henvelope => ?_
  rw [greeting_envelope] at henvelope
  cases henvelope
  exact knowing_reads _

end Lily.Websocket.Wire
