import Lily.Websocket.BackplaneFrame

/-!
# A broadcast reaches the other nodes

What admission establishes about a broadcast is all that the overhead of a frame and the checks of a
receiver need. The bound on the size takes the worst growth of every string, six bytes for one.
-/

namespace Lily.Websocket.Wire

open Validation Collection Json BackplaneTarget

variable {libs : Libraries} {peer : BackplaneLibraries} {limits : Limits}

/-! ## Admitted broadcasts -/

/-- What `prepare_broadcast` establishes about a target. -/
def BroadcastTarget.Admitted (limits : Limits) : BroadcastTarget → Prop
  | .namespaceName _ => True
  | .room _ roomName => isCanonicalRoom roomName limits.maxRoomNameLength = true
  | .rooms _ roomNames =>
    roomNames.length ≤ maxBroadcastRooms ∧ roomNames.Pairwise (· < ·) ∧
      ∀ roomName ∈ roomNames, isCanonicalRoom roomName limits.maxRoomNameLength = true
  | .principal _ _ => True
  | .namespaceConnections _ ids =>
    ids.length ≤ maxBroadcastConnectionTargets ∧ ids.Pairwise (· < ·)

theorem prepareTarget_ok {target prepared : BroadcastTarget}
    (h : prepareTarget limits target = .ok prepared) :
    prepared.Admitted limits ∧ prepared.owner = target.owner := by
  cases target with
  | namespaceName name | principal name principalId =>
    cases h
    exact ⟨trivial, rfl⟩
  | room name roomName =>
    simp only [prepareTarget, bind_ok_iff, validateRoom, ensure_ok_iff] at h
    obtain ⟨_, hroom, h⟩ := h
    cases h
    exact ⟨hroom, rfl⟩
  | rooms name roomNames =>
    simp only [prepareTarget, bind_ok_iff, ensure_ok_iff, forM_ok_iff, validateRoom] at h
    obtain ⟨_, hlength, _, hrooms, h⟩ := h
    cases h
    exact ⟨⟨(length_orderedSet_le roomNames).trans hlength, orderedSet_pairwise_lt roomNames,
      hrooms⟩, rfl⟩
  | namespaceConnections name ids =>
    simp only [prepareTarget, bind_ok_iff, ensure_ok_iff] at h
    obtain ⟨_, hlength, h⟩ := h
    cases h
    exact ⟨⟨(length_orderedSet_le ids).trans hlength, orderedSet_pairwise_lt ids⟩, rfl⟩

/-- What `prepare_broadcast` establishes about a command. -/
structure BroadcastMessage.Admitted (libs : Libraries) (limits : Limits)
    (command : BroadcastMessage) : Prop where
  message : command.message.Valid libs
  size : (command.message.toJson libs).size ≤ limits.maxOutboundMessageSize
  owner : isCanonicalNamespace command.target.owner = true
  target : command.target.Admitted limits
  exclusions : command.exclude.length ≤ maxBroadcastExclusions
  sorted : command.exclude.Pairwise (· < ·)

variable {body : WsMessageBody}

variable {format : WsWireFormat} {frame : Message}

theorem WsMessageBody.toFrame_ok_iff : body.toFrame libs format = .ok frame ↔
      body.Valid libs ∧ frame = match format with
        | .text => .text (body.toJson libs).print
        | .binary => .binary (utf8 (body.toJson libs).print) := by
  rw [← validateCommon_ok_iff]
  cases format with
  | text | binary =>
    simp only [toFrame, toMessage, toBinaryMessage, bind_ok_iff]
    constructor
    · rintro ⟨_, hvalid, ⟨⟩⟩
      exact ⟨hvalid, rfl⟩
    · rintro ⟨hvalid, rfl⟩
      exact ⟨(), hvalid, rfl⟩

theorem WsMessageBody.len_of_toFrame (h : body.toFrame libs format = .ok frame) :
    frame.len = (body.toJson libs).size := by
  obtain ⟨-, rfl⟩ := toFrame_ok_iff.mp h
  cases format <;> exact length_utf8 _

variable {prepared : PreparedBroadcast}

theorem prepareBroadcast_ok {command : BroadcastMessage}
    (h : prepareBroadcast libs limits command = .ok prepared) :
    prepared.command.Admitted libs limits := by
  simp only [prepareBroadcast, encodeOutboundApplicationFrame, validateBroadcastNamespace,
    bind_ok_iff, mapError_ok_iff, ensure_ok_iff] at h
  obtain ⟨frame, ⟨frame', hframe, _, hlen, hsame⟩, _, howner, target, htarget, _, hexclude, h⟩ := h
  cases hsame
  cases h
  obtain ⟨hadmitted, hnamespace⟩ := prepareTarget_ok htarget
  exact {
    message := (WsMessageBody.toFrame_ok_iff.mp hframe).1
    size := WsMessageBody.len_of_toFrame hframe ▸ hlen
    owner := by rw [hnamespace]; exact howner.1
    target := hadmitted
    exclusions := (length_orderedSet_le _).trans hexclude
    sorted := orderedSet_pairwise_lt _ }

/-! ## Sizes -/

theorem Uuid.utf8ByteSize_text (id : Uuid) : id.text.utf8ByteSize = 36 := by
  have hdash : "-".utf8ByteSize = 1 := rfl
  simp only [Uuid.text, String.utf8ByteSize_append, Hex.utf8ByteSize_text, hdash]

theorem size_uuidJson_le (id : Uuid) : (uuidJson id).size ≤ 218 := by
  have hsize := size_string_le id.text
  rw [id.utf8ByteSize_text] at hsize
  exact hsize

theorem size_uuids_le {ids : List Uuid} (h : ids.length ≤ 256) :
    (array (ids.map uuidJson)).size ≤ 56066 :=
  size_array_map_le h fun id _ => size_uuidJson_le id

theorem size_string_of_le {text : String} {bytes : Nat} (h : text.utf8ByteSize ≤ bytes) :
    (string text).size ≤ 6 * bytes + 2 :=
  (size_string_le text).trans (by omega)

theorem utf8ByteSize_of_isCanonicalRouteToken {value : String} {maxLen : Nat}
    (h : isCanonicalRouteToken value maxLen = true) : value.utf8ByteSize ≤ maxLen := by
  simp only [isCanonicalRouteToken, Bool.and_eq_true, decide_eq_true_eq] at h
  exact h.1.2

theorem utf8ByteSize_of_isCanonicalRoom {value : String} {maxLen : Nat}
    (h : isCanonicalRoom value maxLen = true) : value.utf8ByteSize ≤ 128 :=
  (utf8ByteSize_of_isCanonicalRouteToken h).trans (Nat.min_le_right _ _)

theorem size_target_le (target : BackplaneTarget) {name other : String} {value : Option Json}
    (hname : name.utf8ByteSize ≤ 128) (hother : other.utf8ByteSize ≤ 14)
    (hvalue : ∀ v ∈ value, v.size ≤ 197378) :
    (record [("kind", some (.string target.kind)), ("namespace", some (.string name)),
      (other, value)]).size ≤ 198500 := by
  have hkind : target.kind.utf8ByteSize ≤ 21 := by
    cases target <;> exact Nat.le_of_ble_eq_true rfl
  have hrecord := size_record_le [("kind", some (.string target.kind)),
    ("namespace", some (.string name)), (other, value)]
  have hfirst : optionalSize ("kind", some (.string target.kind)) ≤ 6 * 4 + 128 + 4 :=
    optionalSize_some_le _ (size_string_of_le hkind)
  have hsecond : optionalSize ("namespace", some (.string name)) ≤ 6 * 9 + 770 + 4 :=
    optionalSize_some_le _ (size_string_of_le hname)
  have hthird := optionalSize_le other hvalue
  simp only [List.map_cons, List.map_nil, List.sum_cons, List.sum_nil] at hrecord
  omega

theorem size_toJson_le {target : BroadcastTarget}
    (howner : isCanonicalNamespace target.owner = true) (h : target.Admitted limits) :
    (ofBroadcast target).toJson.size ≤ 198500 := by
  have hname := utf8ByteSize_of_isCanonicalRouteToken howner
  cases target with
  | namespaceName name =>
    -- The other field is not there.
    have hjson : (namespaceName name).toJson =
        .record [("kind", some (.string (namespaceName name).kind)),
          ("namespace", some (.string name)), ("", none)] := rfl
    rw [ofBroadcast, hjson]
    exact size_target_le (.namespaceName name) hname (by decide) nofun
  | room name roomName =>
    refine size_target_le (.room name roomName) hname (by decide) ?_
    rintro _ ⟨⟩
    exact (size_string_of_le (utf8ByteSize_of_isCanonicalRoom h)).trans (by decide)
  | rooms name roomNames =>
    refine size_target_le (.rooms name roomNames) hname (by decide) ?_
    rintro _ ⟨⟩
    exact size_array_map_le h.1 fun roomName hmem =>
      size_string_of_le (utf8ByteSize_of_isCanonicalRoom (h.2.2 roomName hmem))
  | principal name principalId =>
    refine size_target_le (.principal name principalId) hname (by decide) ?_
    rintro _ ⟨⟩
    exact (size_string_of_le principalId.utf8ByteSize_le).trans (by decide)
  | namespaceConnections name ids =>
    refine size_target_le (.namespaceConnections name ids) hname (by decide) ?_
    rintro _ ⟨⟩
    exact (size_uuids_le h.1).trans (by decide)

theorem utf8ByteSize_traceparent (stamp : Stamp) :
    ∀ traceparent ∈ stamp.traceparent, traceparent.utf8ByteSize = 55 := by
  intro traceparent h
  simp only [Stamp.traceparent, W3CTraceContext.fromCurrentSpan] at h
  split_ifs at h with hvalid
  · cases h
    have hdash : "-".utf8ByteSize = 1 := rfl
    have hversion : "00".utf8ByteSize = 2 := rfl
    simp only [W3CTraceContext.toTraceparent, String.utf8ByteSize_append, Hex.utf8ByteSize_text,
      hdash, hversion]
  · cases h

/-- The overhead suffices for everything but the message. -/
theorem size_envelope_le {command : BroadcastMessage} (h : command.Admitted libs limits)
    (stamp : Stamp) : ((envelopeOf stamp command).toJson libs).size ≤ limits.maxFrameSize := by
  have hname : (BackplaneWireFormat.ofWire command.wireFormat).name.utf8ByteSize ≤ 6 := by
    cases command.wireFormat <;> decide
  have htraceparent : ∀ value ∈ stamp.traceparent.map string, value.size ≤ 332 := by
    intro value hvalue
    obtain ⟨traceparent, hmem, rfl⟩ := Option.mem_map.mp hvalue
    exact size_string_of_le (utf8ByteSize_traceparent stamp traceparent hmem).le
  have hfields : List.Forall₂ (· ≤ ·) (((envelopeOf stamp command).entries libs).map optionalSize)
      [6 * 16 + 1 + 4, 6 * 10 + 218 + 4, 6 * 14 + 218 + 4, 6 * 6 + 198500 + 4, 6 * 10 + 56066 + 4,
        6 * 7 + limits.maxOutboundMessageSize + 4, 6 * 11 + 38 + 4, 6 * 11 + 332 + 4] :=
    .cons (optionalSize_some_le "protocol_version" (show (int 4).size ≤ 1 by decide)) <|
    .cons (optionalSize_some_le "message_id" (size_uuidJson_le stamp.messageId)) <|
    .cons (optionalSize_some_le "origin_node_id" (size_uuidJson_le stamp.nodeId)) <|
    .cons (optionalSize_some_le "target" (size_toJson_le h.owner h.target)) <|
    .cons (optionalSize_some_le "exclusions" (size_uuids_le h.exclusions)) <|
    .cons (optionalSize_some_le "message" h.size) <|
    .cons (optionalSize_some_le "wire_format" (size_string_of_le hname)) <|
    .cons (optionalSize_le "traceparent" htraceparent) .nil
  have hsum := hfields.sum_le_sum
  have hrecord := size_record_le ((envelopeOf stamp command).entries libs)
  simp only [List.sum_cons, List.sum_nil] at hsum
  rw [BackplaneEnvelope.toJson, Limits.maxFrameSize, backplaneFrameOverheadBytes]
  omega

/-- Nodes that iterate a map in another order write as many bytes. -/
theorem WsMessageBody.size_toJson_eq (libs libs' : Libraries) (body : WsMessageBody) :
    (body.toJson libs).size = (body.toJson libs').size := by
  by_cases hempty : body.metadata = ∅
  · rw [toJson, toJson, entries, entries, if_pos hempty, if_pos hempty]
  · have hsplit (libs : Libraries) : body.toJson libs =
        .object (present ((body.entries libs).take 12) ++
          [("metadata", body.metadataJson libs)]) := by
      rw [toJson, entries, if_neg hempty]
      exact congrArg object (List.filterMap_append (l := (body.entries libs).take 12))
    have hperm : (libs.iterate body.metadata).Perm (libs'.iterate body.metadata) := by
      rw [← Multiset.coe_eq_coe, libs.iterate_entries, libs'.iterate_entries]
    rw [hsplit libs, hsplit libs']
    apply size_object_congr
    exact size_object_perm (hperm.map _)

/-! ## Receiving -/

structure SameBase64 (libs libs' : Libraries) : Prop where
  encode : libs'.encodeBase64 = libs.encodeBase64
  decode : libs'.decodeBase64 = libs.decodeBase64

theorem WsMessageBody.Valid.receiver {libs' : Libraries} (h : body.Valid libs)
    (hsame : SameBase64 libs libs') : body.Valid libs' := by
  have hcontent : body.validateContent libs' = body.validateContent libs := by
    simp only [validateContent, hsame.encode, hsame.decode]
  exact { h with content := hcontent.trans h.content }

theorem validateNamespace_ok {name : String} (h : isCanonicalNamespace name = true) :
    validateNamespace name = .ok () := by
  rw [validateNamespace, mapError_ok_iff, validateBroadcastNamespace, ensure_ok_iff]
  exact ⟨h, h⟩

/-- An admitted target that selects something passes the checks of a receiver. -/
theorem validateDecodedTarget_ok (h : prepared.command.Admitted libs limits)
    (htargets : prepared.hasNoTargets = false) :
    validateDecodedTarget limits (.ofBroadcast prepared.command.target) = .ok () := by
  have hname := validateNamespace_ok h.owner
  have htarget := h.target
  unfold PreparedBroadcast.hasNoTargets at htargets
  cases hcase : prepared.command.target with
  | namespaceName name =>
    rw [hcase] at hname
    exact hname
  | room name roomName =>
    rw [hcase] at hname htarget
    simp only [ofBroadcast, validateDecodedTarget, bind_ok_iff,
      validateDecodedRoom, ensure_ok_iff]
    exact ⟨(), hname, htarget⟩
  | rooms name roomNames =>
    rw [hcase] at hname htarget htargets
    simp only [ofBroadcast, validateDecodedTarget, bind_ok_iff,
      validateDecodedRoom, ensure_ok_iff, forM_ok_iff]
    refine ⟨(), hname, (), ⟨?_, htarget.1, htarget.2.1.isChain⟩, htarget.2.2⟩
    rintro rfl
    cases htargets
  | principal name principalId =>
    rw [hcase] at hname
    simp only [ofBroadcast, validateDecodedTarget, bind_ok_iff, mapError_ok_iff]
    exact ⟨(), hname, principalId.valid⟩
  | namespaceConnections name ids =>
    rw [hcase] at hname htarget htargets
    simp only [ofBroadcast, validateDecodedTarget, bind_ok_iff, ensure_ok_iff]
    refine ⟨(), hname, ?_, htarget.1, htarget.2.isChain⟩
    rintro rfl
    cases htargets

theorem BackplaneEnvelope.validate_ok_iff {envelope : BackplaneEnvelope} :
    envelope.validate peer limits = .ok () ↔
      envelope.protocolVersion = backplaneProtocolVersion ∧
      (envelope.messageId ≠ Uuid.nil ∧ envelope.originNodeId ≠ Uuid.nil) ∧
      envelope.message.validateCommon peer.toLibraries = .ok () ∧
      (∃ frame, envelope.message.toFrame peer.toLibraries envelope.wireFormat.toWire = .ok frame ∧
        frame.len ≤ limits.maxOutboundMessageSize ∧
        validateDecodedTarget limits envelope.target = .ok () ∧
        (envelope.exclusions.length ≤ maxBroadcastExclusions ∧ envelope.exclusions.Nodup) ∧
        ∀ traceparent ∈ envelope.traceparent, traceparent.utf8ByteSize ≤ maxTraceparentBytes ∧
          peer.acceptsTraceparent traceparent = true) := by
  simp only [validate, bind_ok_iff, mapError_ok_iff, ensure_ok_iff, Option.all_eq_true,
    Bool.and_eq_true, decide_eq_true_eq, Option.mem_def, Unique.exists_iff,
    PUnit.default_eq_unit]

/-- The envelope of an admitted broadcast passes the checks of a receiver. -/
theorem validate_envelopeOf (h : prepared.command.Admitted libs limits)
    (htargets : prepared.hasNoTargets = false) (hsame : SameBase64 libs peer.toLibraries)
    (stamp : Stamp)
    (htrace : ∀ traceparent ∈ stamp.traceparent, peer.acceptsTraceparent traceparent = true) :
    (envelopeOf stamp prepared.command).validate peer limits = .ok () := by
  have hvalid := h.message.receiver hsame
  obtain ⟨frame, hframe⟩ : ∃ frame, prepared.command.message.toFrame peer.toLibraries
      (BackplaneWireFormat.ofWire prepared.command.wireFormat).toWire = .ok frame :=
    ⟨_, WsMessageBody.toFrame_ok_iff.mpr ⟨hvalid, rfl⟩⟩
  have hlen : frame.len ≤ limits.maxOutboundMessageSize := by
    rw [WsMessageBody.len_of_toFrame hframe, WsMessageBody.size_toJson_eq _ libs]
    exact h.size
  rw [BackplaneEnvelope.validate_ok_iff]
  refine ⟨rfl, ⟨stamp.messageId_ne, stamp.nodeId_ne⟩,
    WsMessageBody.validateCommon_ok_iff.mpr hvalid, frame, hframe, hlen,
    validateDecodedTarget_ok h htargets, ⟨h.exclusions, h.sorted.imp ne_of_lt⟩, ?_⟩
  intro traceparent hmem
  have hsize := utf8ByteSize_traceparent stamp traceparent hmem
  exact ⟨hsize.trans_le (by decide), htrace traceparent hmem⟩

/-- A frame for every broadcast that was admitted and selects something. What is asked of the
receiver's libraries: the Base64 of the sender, UUIDs that read back, a propagator that accepts the
context of the sender's span, and `serde_json` reading the envelope that it wrote. -/
theorem broadcast_reaches_peers (libs : Libraries) (limits : Limits) (command : BroadcastMessage)
    (prepared : PreparedBroadcast) (hprepared : prepareBroadcast libs limits command = .ok prepared)
    (htargets : prepared.hasNoTargets = false) (stamp : Stamp) :
    ∃ bytes, encode libs limits stamp prepared.command = .ok bytes ∧
      ∀ peer : BackplaneLibraries, SameBase64 libs peer.toLibraries → peer.ReadsUuids →
        (∀ traceparent ∈ stamp.traceparent, peer.acceptsTraceparent traceparent = true) →
        peer.Reads ((envelopeOf stamp prepared.command).toJson libs) →
        ∃ envelope, decode peer limits bytes = .ok envelope ∧
          envelope.broadcast = prepared.command := by
  have hadmitted := prepareBroadcast_ok hprepared
  have hsize := size_envelope_le hadmitted stamp
  refine ⟨utf8 ((envelopeOf stamp prepared.command).toJson libs).print, ?_, ?_⟩
  · simp only [encode, bind_ok_iff, ensure_ok_iff, length_utf8]
    exact ⟨(), hsize, rfl⟩
  · intro peer hsame huuid htrace hreads
    refine ⟨envelopeOf stamp prepared.command, ?_, ?_⟩
    · have hread := BackplaneEnvelope.ofJson_toJson libs (envelopeOf stamp prepared.command) huuid
        hadmitted.message.card
      have hparsed :
          (peer.parse (utf8 ((envelopeOf stamp prepared.command).toJson libs).print)).bind
            (BackplaneEnvelope.ofJson peer) = some (envelopeOf stamp prepared.command) := by
        rw [hreads, Option.bind_some, hread]
      rw [decode, hparsed]
      simp only [bind_ok_iff, ensure_ok_iff, length_utf8]
      refine ⟨(), ?_, (), hsize, (), validate_envelopeOf hadmitted htargets hsame stamp htrace, rfl⟩
      have hpos : 0 < ((envelopeOf stamp prepared.command).toJson libs).size :=
        size_object_pos _
      rwa [← List.length_pos_iff, length_utf8]
    · rw [BackplaneEnvelope.broadcast, envelopeOf, toBroadcast_ofBroadcast,
        BackplaneWireFormat.toWire_ofWire]

/-! ### An announcement -/

/-- The digits without the hyphens. -/
def Uuid.read (text : String) : Option Uuid :=
  let value := Hex.value ((text.toList.filter (· ≠ '-')).map Hex.charDigit)
  some ⟨value % 340282366920938463463374607431768211456, Nat.mod_lt _ (by decide)⟩

theorem Uuid.read_text (id : Uuid) : Uuid.read id.text = some id := by
  have hpart (width n : Nat) :
      (Hex.text width n).toList.filter (· ≠ '-') = (Hex.text width n).toList := by
    refine List.filter_eq_self.mpr fun c hc => ?_
    rw [decide_eq_true_eq]
    rintro rfl
    exact Hex.dash_notMem_text width n hc
  have hdash : "-".toList.filter (· ≠ '-') = [] := rfl
  have hdigits : (id.text.toList.filter (· ≠ '-')).map Hex.charDigit = Hex.digits 32 id.val := by
    simp only [Uuid.text, String.toList_append, List.filter_append, hpart, hdash, List.append_nil,
      List.map_append, Hex.charDigit_text]
    rw [Hex.digits_append 20 12 id.val, Hex.digits_append 16 4 (id.val / 16 ^ 12),
      Hex.digits_append 12 4 (id.val / 16 ^ 12 / 16 ^ 4),
      Hex.digits_append 8 4 (id.val / 16 ^ 12 / 16 ^ 4 / 16 ^ 4)]
    simp only [Nat.div_div_eq_div_mul, ← Nat.pow_add]
  have hbits : 16 ^ 32 = 340282366920938463463374607431768211456 := by decide
  have hvalue : Hex.value ((id.text.toList.filter (· ≠ '-')).map Hex.charDigit) %
      340282366920938463463374607431768211456 = id.val := by
    rw [hdigits, Hex.value_digits, hbits, Nat.mod_eq_of_lt id.isLt, Nat.mod_eq_of_lt id.isLt]
  exact congrArg some (Fin.ext hvalue)

noncomputable def knowingFrame (value : Json) : BackplaneLibraries where
  toLibraries := knowing value
  parseUuid := Uuid.read
  acceptsTraceparent _ := true

def announcement : BroadcastMessage where
  target := .namespaceName "chat"
  message := greetingEnvelope
  wireFormat := .text
  exclude := []

def announcementStamp : Stamp where
  messageId := ⟨1, by decide⟩
  nodeId := ⟨2, by decide⟩
  span := ⟨⟨1, by decide⟩, ⟨1, by decide⟩, 1⟩
  messageId_ne := by decide
  nodeId_ne := by decide

theorem announcement_reaches_peers :
    let libs := knowing .null
    let peer := knowingFrame ((envelopeOf announcementStamp announcement).toJson libs)
    let limits : Limits := ⟨(greetingEnvelope.toJson libs).size, 0⟩
    ∃ bytes, encode libs limits announcementStamp announcement = .ok bytes ∧
      ∃ envelope, decode peer limits bytes = .ok envelope ∧ envelope.broadcast = announcement := by
  intro libs peer limits
  have hprepared : prepareBroadcast libs limits announcement =
      .ok ⟨announcement, .text (greetingEnvelope.toJson libs).print⟩ := by
    have hframe : greetingEnvelope.toFrame libs .text =
        .ok (.text (greetingEnvelope.toJson libs).print) :=
      WsMessageBody.toFrame_ok_iff.mpr ⟨greetingEnvelope_valid libs, rfl⟩
    have hchat : isCanonicalNamespace "chat" = true := by decide
    simp only [prepareBroadcast, encodeOutboundApplicationFrame, validateBroadcastNamespace,
      bind_ok_iff, mapError_ok_iff, ensure_ok_iff]
    exact ⟨_, ⟨_, hframe, (), (WsMessageBody.len_of_toFrame hframe).le, rfl⟩, (), ⟨hchat, hchat⟩, _,
      rfl, (), Nat.zero_le _, rfl⟩
  obtain ⟨bytes, hencode, hdecode⟩ :=
    broadcast_reaches_peers libs limits announcement _ hprepared rfl announcementStamp
  exact ⟨bytes, hencode, hdecode peer ⟨rfl, rfl⟩ Uuid.read_text (fun _ _ => rfl) (knowing_reads _)⟩

end Lily.Websocket.Wire
