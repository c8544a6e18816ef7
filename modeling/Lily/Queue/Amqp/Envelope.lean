import Lily.Queue.Amqp.Metadata

/-!
# Transport admission

A delivery is admitted when its body fits, its metadata leaves room for a handoff,
and its headers carry Lily's envelope: an event identity, a schema version and a
content kind, each in canonical form.

How the `uuid` crate reads and writes a UUID is a parameter.
-/

namespace Lily.Queue.Amqp

def maxQueueContentKindBytes : Nat := 64

/-- What is used of the `uuid` crate. -/
class UuidCrate where
  Uuid : Type
  parseStr : String → Option Uuid
  isNil : Uuid → Bool
  hyphenated : Uuid → String

/-- A text that is read as a UUID other than the nil one, and is how that one is written. -/
def isCanonicalUuid [UuidCrate] (text : String) : Bool :=
  match UuidCrate.parseStr text with
  | none => false
  | some id => !UuidCrate.isNil id && UuidCrate.hyphenated id == text

namespace Hyphenated

def isLowerHex (c : Char) : Bool := c.isDigit || ('a' ≤ c && c ≤ 'f')

/-- A UUID is its own text, in groups of 8, 4, 4, 4 and 12 digits. -/
scoped instance : UuidCrate where
  Uuid := String
  parseStr text :=
    let groups := text.toList.splitOn '-'
    if groups.map List.length = [8, 4, 4, 4, 12] ∧ groups.all (·.all isLowerHex) then some text
    else none
  isNil id := id.toList.all fun c => c = '0' || c = '-'
  hyphenated id := id

end Hyphenated

/-- `str::parse::<u16>`; a plus sign is allowed and leading zeros are. -/
def parseU16 (text : String) : Option Nat :=
  let digits := match text.toList with
    | '+' :: rest => rest
    | chars => chars
  if digits.isEmpty || !digits.all Char.isDigit then none
  else
    let value := digits.foldl (fun value c => value * 10 + (c.toNat - '0'.toNat)) 0
    if value < 2 ^ 16 then some value else none

def isContentKindChar (c : Char) : Bool := c.isLower || c.isDigit

def validContentKindToken (value : String) : Bool :=
  1 ≤ value.utf8ByteSize && value.utf8ByteSize ≤ maxQueueContentKindBytes &&
    match value.toList with
    | [] => false
    | first :: rest =>
      isContentKindChar first &&
        rest.all fun c => isContentKindChar c || c == '.' || c == '_' || c == '+' || c == '-'

def boundedHeaderText (headers : FieldTable) (key : String) (maxBytes : Nat) : Option String :=
  match headers.lookup key with
  | some (.longString value) => if value.len ≤ maxBytes then value.asStr else none
  | some (.shortString value) => if value.utf8ByteSize ≤ maxBytes then some value else none
  | _ => none

structure CanonicalEnvelope where
  eventId : String
  schemaVersion : String
  contentKind : String

variable [UuidCrate] (bodyLen maxMessageSizeBytes : Nat) (properties : BasicProperties)

/-- A header that has to be present as bounded text. -/
def requireText (key : String) (maxBytes : Nat) (missing : String) : Except String String :=
  match properties.headers.bind fun headers => boundedHeaderText headers key maxBytes with
  | some text => .ok text
  | none => .error missing

def canonicalEnvelope : Except String CanonicalEnvelope := do
  let eventId ← requireText properties "x-lily-event-id" 36 "x-lily-event-id is missing"
  let schemaVersion ← requireText properties "x-lily-schema-version" 5
    "x-lily-schema-version is missing"
  let contentKind ← requireText properties "x-lily-content-kind" maxQueueContentKindBytes
    "x-lily-content-kind is missing"
  if eventId.utf8ByteSize ≠ 36 || !isCanonicalUuid eventId then
    .error "x-lily-event-id is not a canonical UUID"
  else
    match (parseU16 schemaVersion).filter (· ≠ 0) with
    | none => .error "x-lily-schema-version must be a positive u16"
    | some version =>
      if toString version ≠ schemaVersion then
        .error "x-lily-schema-version is not canonical decimal"
      else if !validContentKindToken contentKind then
        .error "x-lily-content-kind is not canonical"
      else .ok ⟨eventId, schemaVersion, contentKind⟩

def validateDeliveryEnvelope : Except String Unit :=
  match canonicalEnvelope properties with
  | .error error => .error error
  | .ok _ => (canonicalRetryCount properties.headers).map fun _ => ()

inductive TransportAdmissionFailure where
  | payloadTooLarge
  | metadataBoundsExceeded
  | invalidEnvelope

def isErr : Except String Unit → Bool
  | .error _ => true
  | .ok () => false

def transportAdmissionFailure : Option TransportAdmissionFailure :=
  if maxMessageSizeBytes < bodyLen then some .payloadTooLarge
  else if isErr (validateHandoffMetadataHeadroom properties) then some .metadataBoundsExceeded
  else if isErr (validateDeliveryEnvelope properties) then some .invalidEnvelope
  else none

/-- What an admitted delivery has passed. -/
theorem transportAdmissionFailure_none {bodyLen maxMessageSizeBytes : Nat}
    {properties : BasicProperties}
    (h : transportAdmissionFailure bodyLen maxMessageSizeBytes properties = none) :
    validateHandoffMetadataHeadroom properties = .ok () ∧
      (∃ count, canonicalRetryCount properties.headers = .ok count) := by
  have hok {result : Except String Unit} (hresult : ¬ isErr result = true) : result = .ok () := by
    cases result with
    | error error => exact absurd rfl hresult
    | ok => rfl
  unfold transportAdmissionFailure at h
  split_ifs at h with hbody hmetadata henvelope
  refine ⟨hok hmetadata, ?_⟩
  have hvalid := hok henvelope
  unfold validateDeliveryEnvelope at hvalid
  cases hcanonical : canonicalEnvelope properties with
  | error error => simp [hcanonical] at hvalid
  | ok envelope =>
    cases hcount : canonicalRetryCount properties.headers with
    | error error => simp [hcanonical, hcount, Except.map] at hvalid
    | ok count => exact ⟨count, rfl⟩

end Lily.Queue.Amqp
