import Mathlib.Algebra.Order.Ring.Int

/-!
# Queue definitions

The configuration of one RabbitMQ queue, with the defaults of the configuration file,
and the identities that RabbitMQ accepts in it. A reference to a protected value is not
an identity.
-/

namespace Lily.Config

inductive RabbitMqExchangeKind where
  | direct
  deriving DecidableEq

inductive RabbitMqQueueType where
  | classic
  | quorum
  deriving DecidableEq

inductive RabbitMqTopologyOwnership where
  | frameworkManaged
  | external
  deriving DecidableEq

structure QueueRetentionConfig where
  mainMaxMessages : Nat
  mainMaxBytes : Nat
  retryBucketMaxMessages : Nat
  retryBucketMaxBytes : Nat
  deadLetterMaxMessages : Nat
  deadLetterMaxBytes : Nat

/-- The bounds with their field names, in the order in which they are checked. -/
def QueueRetentionConfig.limits (retention : QueueRetentionConfig) : List (String × Nat) :=
  [("main_max_messages", retention.mainMaxMessages),
    ("main_max_bytes", retention.mainMaxBytes),
    ("retry_bucket_max_messages", retention.retryBucketMaxMessages),
    ("retry_bucket_max_bytes", retention.retryBucketMaxBytes),
    ("dead_letter_max_messages", retention.deadLetterMaxMessages),
    ("dead_letter_max_bytes", retention.deadLetterMaxBytes)]

structure QueueDefinition where
  name : String := ""
  exchangeName : String := ""
  routingKey : String := ""
  exchangeKind : RabbitMqExchangeKind := .direct
  queueType : RabbitMqQueueType := .classic
  topologyOwnership : RabbitMqTopologyOwnership := .frameworkManaged
  concurrency : Nat := 1
  prefetchCount : Nat := 10
  deliveryBufferCapacity : Option Nat := none
  retryAttempts : Nat := 0
  retryBackoffMillis : Option Nat := some 1000
  maxRetryBackoffMillis : Option Nat := some 60000
  retryJitterRatio : Float := 0.0
  deliveryExecutionTimeoutMillis : Option Nat := some 30000
  settlementTimeoutMillis : Option Nat := some 5000
  durable : Bool := true
  maxMessageSizeBytes : Nat := 1024 * 1024
  retention : Option QueueRetentionConfig := none
  deadLetterExchange : Option String := none
  deadLetterRoutingKey : Option String := none
  messageTtlMs : Option Nat := none
  exclusive : Bool := false
  autoDelete : Bool := false
  singleActiveConsumer : Bool := false
  maxPriority : Option Nat := none

structure RabbitMqTopologyConfig where
  queues : List QueueDefinition

/-! ## Identities -/

/-- `char::is_whitespace`. -/
def isWhitespace (c : Char) : Bool :=
  (0x09 ≤ c.toNat && c.toNat ≤ 0x0d) || (0x2000 ≤ c.toNat && c.toNat ≤ 0x200a) ||
    [0x20, 0x85, 0xa0, 0x1680, 0x2028, 0x2029, 0x202f, 0x205f, 0x3000].contains c.toNat

/-- `char::is_control`. -/
def isControl (c : Char) : Bool := c.toNat ≤ 0x1f || (0x7f ≤ c.toNat && c.toNat ≤ 0x9f)

/-- `str::trim`. -/
def trim (chars : List Char) : List Char :=
  ((chars.dropWhile isWhitespace).reverse.dropWhile isWhitespace).reverse

inductive ConfigReference where
  | secret (key : String)
  | file (path : String)

/-- `str::strip_prefix`. -/
def stripStart (expected chars : List Char) : Option (List Char) :=
  if expected.isPrefixOf chars then some (chars.drop expected.length) else none

/-- `str::strip_suffix`. -/
def stripEnd (expected chars : List Char) : Option (List Char) :=
  if expected.isSuffixOf chars then some (chars.take (chars.length - expected.length)) else none

/-- The text after a scheme, unless it is empty or padded. -/
def referenceTarget (chars : List Char) : Option String :=
  if chars.isEmpty || trim chars ≠ chars then none else some (String.ofList chars)

def parseConfigReference (value : String) : Option ConfigReference := do
  let expression ← stripStart "$\x7b".toList value.toList
  let expression ← stripEnd "\x7d".toList expression
  match stripStart "secret:".toList expression with
  | some key => (referenceTarget key).map .secret
  | none =>
    let path ← stripStart "file:".toList expression
    (referenceTarget path).map .file

def maxIdentityBytes : Nat := 200

def identityIsValid (value : String) : Bool :=
  (1 ≤ value.utf8ByteSize && value.utf8ByteSize ≤ maxIdentityBytes) &&
    trim value.toList == value.toList && !value.toList.any isControl &&
    (parseConfigReference value).isNone

end Lily.Config
