import Lily.Collection.Total

/-!
# AMQP properties and the bounds on them

The header values of AMQP are a tree of scalars, arrays and tables. Admission walks
that tree with two budgets: the number of values met so far, and the bytes of keys
and values. Every overrun is reported with one and the same code, so the order in
which a table is walked does not matter and a table is a finite map.

Sums that the source checks against overflow of the machine word are plain sums here:
they are bounded by the element budget long before they could overflow.
-/

namespace Lily.Queue.Amqp

/-- The bytes of a long string, which need not be text. -/
inductive LongString where
  | utf8 (text : String)
  | binary (bytes : List UInt8)

def LongString.len : LongString → Nat
  | .utf8 text => text.utf8ByteSize
  | .binary bytes => bytes.length

/-- `str::from_utf8`. -/
def LongString.asStr : LongString → Option String
  | .utf8 text => some text
  | .binary _ => none

inductive AMQPValue where
  | boolean (value : Bool)
  | shortShortInt (value : Int)
  | shortShortUInt (value : Nat)
  | shortInt (value : Int)
  | shortUInt (value : Nat)
  | longInt (value : Int)
  | longUInt (value : Nat)
  | longLongInt (value : Int)
  | float (bits : Nat)
  | double (bits : Nat)
  | decimalValue (scale value : Nat)
  | shortString (value : String)
  | longString (value : LongString)
  | byteArray (bytes : List UInt8)
  | timestamp (value : Nat)
  | void
  | fieldArray (values : List AMQPValue)
  | fieldTable (entries : List (String × AMQPValue))

abbrev FieldTable := AList fun _ : String => AMQPValue

structure BasicProperties where
  contentType : Option String := none
  contentEncoding : Option String := none
  headers : Option FieldTable := none
  deliveryMode : Option Nat := none
  priority : Option Nat := none
  correlationId : Option String := none
  replyTo : Option String := none
  expiration : Option String := none
  messageId : Option String := none
  timestamp : Option Nat := none
  kind : Option String := none
  userId : Option String := none
  appId : Option String := none
  clusterId : Option String := none

def BasicProperties.withHeaders (properties : BasicProperties) (headers : FieldTable) :
    BasicProperties :=
  { properties with headers := some headers }

def maxAmqpHeaderEntries : Nat := 64
def maxAmqpHeaderKeyBytes : Nat := 128
def maxAmqpValueBytes : Nat := 8 * 1024
def maxAmqpMetadataBytes : Nat := 32 * 1024
def maxAmqpNestingDepth : Nat := 4
def maxAmqpNestedElements : Nat := 256

def maxW3cTraceparentBytes : Nat := 55
def maxW3cTracestateBytes : Nat := 512
def maxRejectionCodeBytes : Nat := 64

def frameworkHandoffHeaders : List String :=
  ["x-retry-count", "x-lily-failure-delivery-attempt", "x-lily-rejection-code", "traceparent",
    "tracestate"]

def boundsExceeded : String := "amqp_metadata_bounds_exceeded"

def checkedMetadataAdd (total amount : Nat) : Except String Nat :=
  if maxAmqpMetadataBytes < total + amount then .error boundsExceeded else .ok (total + amount)

/-- `u8::is_ascii_graphic` on every byte; a character outside ASCII has none. -/
def isAsciiGraphic (c : Char) : Bool := 0x21 ≤ c.toNat && c.toNat ≤ 0x7e

def validateAmqpKey (key : String) : Except String Unit :=
  if key.isEmpty || maxAmqpHeaderKeyBytes < key.utf8ByteSize || !key.toList.all isAsciiGraphic then
    .error boundsExceeded
  else .ok ()

/-- The size of a value without parts. -/
def scalarSize : AMQPValue → Nat
  | .boolean _ | .shortShortInt _ | .shortShortUInt _ => 1
  | .shortInt _ | .shortUInt _ => 2
  | .longInt _ | .longUInt _ | .float _ => 4
  | .longLongInt _ | .double _ | .timestamp _ => 8
  | .decimalValue _ _ => 5
  | .shortString value => value.utf8ByteSize
  | .longString value => value.len
  | .byteArray bytes => bytes.length
  | .void | .fieldArray _ | .fieldTable _ => 0

/-- The last check of a value, on its own size. -/
def checkedSize : Except String (Nat × Nat) → Except String (Nat × Nat)
  | .error error => .error error
  | .ok (size, elements) =>
    if maxAmqpValueBytes < size then .error boundsExceeded else .ok (size, elements)

mutual

/-- Returns the size of the value and the elements counted so far. -/
def amqpValueSize (value : AMQPValue) (depth elements : Nat) : Except String (Nat × Nat) :=
  if maxAmqpNestedElements < elements + 1 then .error boundsExceeded
  else
    match value with
    | .fieldArray values =>
      if maxAmqpNestingDepth < depth then .error boundsExceeded
      else checkedSize (amqpArraySize values (depth + 1) (elements + 1))
    | .fieldTable entries =>
      if maxAmqpNestingDepth < depth then .error boundsExceeded
      else checkedSize (amqpTableSize entries (depth + 1) (elements + 1))
    | value => checkedSize (.ok (scalarSize value, elements + 1))

def amqpArraySize (values : List AMQPValue) (depth elements : Nat) : Except String (Nat × Nat) :=
  match values with
  | [] => .ok (0, elements)
  | value :: rest =>
    match amqpValueSize value depth elements with
    | .error error => .error error
    | .ok (size, elements) =>
      match amqpArraySize rest depth elements with
      | .error error => .error error
      | .ok (restSize, elements) => .ok (size + restSize, elements)

def amqpTableSize (entries : List (String × AMQPValue)) (depth elements : Nat) :
    Except String (Nat × Nat) :=
  match entries with
  | [] => .ok (0, elements)
  | (key, value) :: rest =>
    match validateAmqpKey key with
    | .error error => .error error
    | .ok () =>
      match amqpValueSize value depth elements with
      | .error error => .error error
      | .ok (size, elements) =>
        match amqpTableSize rest depth elements with
        | .error error => .error error
        | .ok (restSize, elements) => .ok (key.utf8ByteSize + size + restSize, elements)

end

/-- The loop over the headers, with the aggregate and the elements counted so far. -/
def headerFootprint :
    List (Sigma fun _ : String => AMQPValue) → Nat → Nat → Except String Nat
  | [], aggregate, _ => .ok aggregate
  | ⟨key, value⟩ :: rest, aggregate, elements => do
    validateAmqpKey key
    let aggregate ← checkedMetadataAdd aggregate key.utf8ByteSize
    let (size, elements) ← amqpValueSize value 1 elements
    let aggregate ← checkedMetadataAdd aggregate size
    headerFootprint rest aggregate elements

variable (properties : BasicProperties)

def BasicProperties.texts : List String :=
  [properties.contentType, properties.contentEncoding, properties.correlationId,
    properties.replyTo, properties.expiration, properties.messageId, properties.kind,
    properties.userId, properties.appId, properties.clusterId].filterMap id

def textFootprint : List String → Nat → Except String Nat
  | [], aggregate => .ok aggregate
  | text :: rest, aggregate =>
    if maxAmqpValueBytes < text.utf8ByteSize then .error boundsExceeded
    else do
      let aggregate ← checkedMetadataAdd aggregate text.utf8ByteSize
      textFootprint rest aggregate

def fixedFootprint (present : Bool) (size aggregate : Nat) : Except String Nat :=
  if present then checkedMetadataAdd aggregate size else .ok aggregate

structure AmqpMetadataFootprint where
  headerEntries : Nat
  aggregateBytes : Nat

/-- The entries of the header table, which may be missing. -/
def BasicProperties.entries : List (Sigma fun _ : String => AMQPValue) :=
  (properties.headers.map AList.entries).getD []

def amqpMetadataFootprint : Except String AmqpMetadataFootprint :=
  if maxAmqpHeaderEntries < properties.entries.length then .error boundsExceeded
  else do
    let aggregate ← headerFootprint properties.entries 0 0
    let aggregate ← textFootprint properties.texts aggregate
    let aggregate ← fixedFootprint properties.deliveryMode.isSome 1 aggregate
    let aggregate ← fixedFootprint properties.priority.isSome 1 aggregate
    let aggregate ← fixedFootprint properties.timestamp.isSome 8 aggregate
    return ⟨properties.entries.length, aggregate⟩

def validateAmqpMetadata : Except String Unit :=
  (amqpMetadataFootprint properties).map fun _ => ()

def isFrameworkHandoffHeader (key : String) : Bool := frameworkHandoffHeaders.contains key

def applicationHeaders (entries : List (Sigma fun _ : String => AMQPValue)) : FieldTable :=
  entries.foldl (fun projected entry =>
    if isFrameworkHandoffHeader entry.1 then projected
    else projected.insert entry.1 entry.2) ∅

def repeated (c : Char) (n : Nat) : AMQPValue :=
  .longString (.utf8 (String.ofList (.replicate n c)))

def i32Max : Int := 2 ^ 31 - 1

def projectedHandoffProperties : BasicProperties :=
  let projected := applicationHeaders properties.entries
  let projected := projected.insert "x-retry-count" (.longInt i32Max)
  let projected := projected.insert "x-lily-failure-delivery-attempt" (.longInt i32Max)
  let projected := projected.insert "x-lily-rejection-code" (repeated 'X' maxRejectionCodeBytes)
  let projected := projected.insert "traceparent" (repeated '0' maxW3cTraceparentBytes)
  let projected := projected.insert "tracestate" (repeated 'x' maxW3cTracestateBytes)
  properties.withHeaders projected

/-- The bounds that both the received and the projected metadata have to meet. -/
def validateHandoffMetadataHeadroom : Except String Unit :=
  match validateAmqpMetadata properties with
  | .error error => .error error
  | .ok () => validateAmqpMetadata (projectedHandoffProperties properties)

def maxQueueRetryAttempts : Nat := 100

/-- A missing count is a first delivery; a malformed one is an error. -/
def canonicalRetryCount (headers : Option FieldTable) : Except String Nat :=
  match headers.bind fun headers => headers.lookup "x-retry-count" with
  | none => .ok 0
  | some (.longInt value) =>
    if 0 ≤ value ∧ value.toNat ≤ maxQueueRetryAttempts then .ok value.toNat
    else .error "x-retry-count is outside the canonical retry range"
  | some _ => .error "x-retry-count is not a canonical LongInt"

end Lily.Queue.Amqp
