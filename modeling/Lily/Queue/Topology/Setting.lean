import Lily.Config.Topology.Plan
import Lily.Queue.Amqp.Metadata

/-!
# Consumer settings

The consumer turns every accepted queue plan into a runtime setting, with a validator of
its own, and into the topology that its retry engine publishes to. Durations are given
in milliseconds. An error of the validator is a text about one queue; the queue's name
is kept apart from the text, since it is printed in escaped form.
-/

namespace Lily.Queue.Topology

open Config hiding maxQueueRetryAttempts
open Amqp (maxQueueRetryAttempts)
open Validation

def maxQueueConcurrency : Nat := 1024
def maxQueuePrefetch : Nat := 4096
def maxQueueMessageSizeBytes : Nat := 16 * 1024 * 1024
def maxQueueTransportIdentityBytes : Nat := 200

def queueTransportIdentityIsValid (value : String) : Bool :=
  (1 ≤ value.utf8ByteSize && value.utf8ByteSize ≤ maxQueueTransportIdentityBytes) &&
    Config.trim value.toList == value.toList && !value.toList.any Config.isControl

inductive MessageBrokerError where
  | configuration (subject queue text : String)
  | topology (error : RabbitMqTopologyPlanError)

structure QueueRetentionSetting where
  mainMaxMessages : Nat
  mainMaxBytes : Nat
  retryBucketMaxMessages : Nat
  retryBucketMaxBytes : Nat
  deadLetterMaxMessages : Nat
  deadLetterMaxBytes : Nat

structure QueueRuntimeSetting where
  exchangeName : String
  routingKey : String
  exchangeKind : RabbitMqExchangeKind
  queueType : RabbitMqQueueType
  topologyOwnership : RabbitMqTopologyOwnership
  concurrency : Nat
  prefetchCount : Nat
  deliveryBufferCapacity : Nat
  maxMessageSizeBytes : Nat
  retention : QueueRetentionSetting
  retryAttempts : Nat
  retryBackoff : Nat
  maxRetryBackoff : Nat
  deliveryExecutionTimeout : Nat
  settlementTimeout : Nat
  durable : Bool
  deadLetterExchange : Option String
  deadLetterRoutingKey : Option String
  messageTtlMs : Option Nat
  exclusive : Bool
  autoDelete : Bool
  singleActiveConsumer : Bool
  maxPriority : Option Nat

section Definition

variable (definition : QueueDefinition)

/-- A check of the validator, with its text about the queue. -/
def ensureQueue (p : Prop) [Decidable p] (text : String) : Except MessageBrokerError Unit :=
  ensure p (.configuration "queue" definition.name text)

def ensureQuorumQueue (p : Prop) [Decidable p] (text : String) : Except MessageBrokerError Unit :=
  ensure p (.configuration "quorum queue" definition.name text)

def validateQuorumQueue : Except MessageBrokerError Unit :=
  if definition.queueType = .quorum then do
    ensureQuorumQueue definition definition.durable "must be durable"
    ensureQuorumQueue definition (¬ definition.exclusive) "cannot be exclusive"
    ensureQuorumQueue definition (¬ definition.autoDelete) "cannot be auto-delete"
    ensureQuorumQueue definition (definition.maxPriority = none) "cannot declare max_priority"
  else .ok ()

def requireRetention : Except MessageBrokerError QueueRetentionConfig :=
  match definition.retention with
  | some retention => .ok retention
  | none => .error (.configuration "queue" definition.name
      "must define explicit main/retry-bucket/dead-letter retention bounds")

/-- The optional identities of a definition with their field names. -/
def deadLetterIdentities : List (String × Option String) :=
  [("dead_letter_exchange", definition.deadLetterExchange),
    ("dead_letter_routing_key", definition.deadLetterRoutingKey)]

/-- The setting of a definition that passed every check. -/
def runtimeSetting (retention : QueueRetentionConfig) : QueueRuntimeSetting where
  exchangeName := definition.exchangeName
  routingKey := definition.routingKey
  exchangeKind := definition.exchangeKind
  queueType := definition.queueType
  topologyOwnership := definition.topologyOwnership
  concurrency := definition.concurrency
  prefetchCount := definition.prefetchCount
  deliveryBufferCapacity := definition.deliveryBufferCapacity.getD definition.prefetchCount
  maxMessageSizeBytes := definition.maxMessageSizeBytes
  retention := {
    mainMaxMessages := retention.mainMaxMessages
    mainMaxBytes := retention.mainMaxBytes
    retryBucketMaxMessages := retention.retryBucketMaxMessages
    retryBucketMaxBytes := retention.retryBucketMaxBytes
    deadLetterMaxMessages := retention.deadLetterMaxMessages
    deadLetterMaxBytes := retention.deadLetterMaxBytes }
  retryAttempts := definition.retryAttempts
  retryBackoff := definition.retryBackoffMillis.getD 1000
  maxRetryBackoff := definition.maxRetryBackoffMillis.getD 60000
  deliveryExecutionTimeout := definition.deliveryExecutionTimeoutMillis.getD 30000
  settlementTimeout := definition.settlementTimeoutMillis.getD 5000
  durable := definition.durable
  deadLetterExchange := definition.deadLetterExchange
  deadLetterRoutingKey := definition.deadLetterRoutingKey
  messageTtlMs := definition.messageTtlMs
  exclusive := definition.exclusive
  autoDelete := definition.autoDelete
  singleActiveConsumer := definition.singleActiveConsumer
  maxPriority := definition.maxPriority

def QueueRuntimeSetting.fromDefinition : Except MessageBrokerError QueueRuntimeSetting := do
  let bufferCapacity := definition.deliveryBufferCapacity.getD definition.prefetchCount
  let retryBackoff := definition.retryBackoffMillis.getD 1000
  let maxRetryBackoff := definition.maxRetryBackoffMillis.getD 60000
  let executionTimeout := definition.deliveryExecutionTimeoutMillis.getD 30000
  let settlementTimeout := definition.settlementTimeoutMillis.getD 5000
  ensureQueue definition (queueTransportIdentityIsValid definition.name ∧
      queueTransportIdentityIsValid definition.exchangeName ∧
      queueTransportIdentityIsValid definition.routingKey)
    "name, exchange_name and routing_key must contain 1..=200 trimmed, control-free bytes"
  ensureQueue definition
    (1 ≤ definition.maxPriority.getD 1 ∧ definition.maxPriority.getD 1 ≤ 16)
    "max_priority must be between 1 and 16"
  validateQuorumQueue definition
  ensureQueue definition (1 ≤ definition.concurrency ∧ definition.concurrency ≤ maxQueueConcurrency)
    "concurrency must be between 1 and 1024"
  ensureQueue definition
    (1 ≤ definition.prefetchCount ∧ definition.prefetchCount ≤ maxQueuePrefetch)
    "prefetch_count must be between 1 and 4096"
  ensureQueue definition (¬ (bufferCapacity = 0 ∨ definition.prefetchCount < bufferCapacity))
    s!"delivery_buffer_capacity must be between 1 and prefetch_count ({definition.prefetchCount})"
  ensureQueue definition (1 ≤ definition.maxMessageSizeBytes ∧
      definition.maxMessageSizeBytes ≤ maxQueueMessageSizeBytes)
    "max_message_size_bytes must be between 1 and 16777216"
  let retention ← requireRetention definition
  ensureAll (fun limit : String × Nat => ¬ (limit.2 = 0 ∨ Config.i64Max < limit.2))
    (fun limit => .configuration "queue" definition.name
      ("retention." ++ limit.1 ++ " must be between 1 and 9223372036854775807")) retention.limits
  ensureQueue definition (definition.retryAttempts ≤ maxQueueRetryAttempts)
    "retry_attempts must be at most 100"
  ensureQueue definition (definition.retryJitterRatio.isFinite ∧
      0.0 ≤ definition.retryJitterRatio ∧ definition.retryJitterRatio ≤ 0.5)
    "retry_jitter_ratio must be finite and between 0.0 and 0.5"
  ensureAll (fun field : String × Option String =>
      ∀ value ∈ field.2, queueTransportIdentityIsValid value)
    (fun field => .configuration "queue" definition.name
      (field.1 ++ " must contain 1..=200 trimmed, control-free bytes"))
    (deadLetterIdentities definition)
  ensureQueue definition (definition.messageTtlMs ≠ some 0)
    "message_ttl_ms must be greater than zero"
  ensureQueue definition ((100 ≤ retryBackoff ∧ retryBackoff ≤ 300000) ∧
      retryBackoff ≤ maxRetryBackoff ∧ maxRetryBackoff ≤ 900000)
    ("retry backoff must satisfy 100 <= retry_backoff_millis <= max_retry_backoff_millis" ++
      " <= 900000")
  ensureQueue definition (100 ≤ executionTimeout ∧ executionTimeout ≤ 900000)
    "delivery_execution_timeout_millis must be between 100 and 900000"
  ensureQueue definition (1 ≤ settlementTimeout ∧ settlementTimeout ≤ 60000)
    "settlement_timeout_millis must be between 1 and 60000"
  return runtimeSetting definition retention

end Definition

/-! ## The topology of one queue -/

structure RetryBucket where
  delay : Nat
  queue : String
  routingKey : String

structure QueueTopology where
  mainExchange : String
  mainExchangeKind : RabbitMqExchangeKind
  mainQueue : String
  routingKey : String
  queueType : RabbitMqQueueType
  ownership : RabbitMqTopologyOwnership
  singleActiveConsumer : Bool
  maxPriority : Option Nat
  retryExchange : String
  retryBuckets : List RetryBucket
  retryBucketDelaysByAttempt : List (List Nat)
  deadLetterExchange : String
  deadLetterQueue : String
  deadLetterRoutingKey : String

def QueueTopology.fromPlan (plan : RabbitMqQueueTopologyPlan) : QueueTopology where
  mainExchange := plan.exchangeName
  mainExchangeKind := plan.exchangeKind
  mainQueue := plan.mainQueueName
  routingKey := plan.routingKey
  queueType := plan.systemQueueType
  ownership := plan.topologyOwnership
  singleActiveConsumer := plan.definition.singleActiveConsumer
  maxPriority := plan.definition.maxPriority
  retryExchange := plan.retryExchangeName
  retryBuckets := plan.retryBuckets.map fun bucket =>
    ⟨bucket.delayMillis, bucket.queueName, bucket.routingKey⟩
  retryBucketDelaysByAttempt := (List.range plan.definition.retryAttempts).map fun index =>
    (plan.retryBucketDelays (index + 1)).getD []
  deadLetterExchange := plan.deadLetterExchangeName
  deadLetterQueue := plan.deadLetterQueueName
  deadLetterRoutingKey := plan.deadLetterRoutingKey

/-- `u32::to_be_bytes`. -/
def toBeBytes (value : Nat) : List UInt8 :=
  [.ofNat (value / 2 ^ 24), .ofNat (value / 2 ^ 16), .ofNat (value / 2 ^ 8), .ofNat value]

/-- FNV-1a over the event id and the attempt. -/
def stableRetryBucketHash (eventId : String) (retryAttempt : Nat) : UInt64 :=
  (eventId.toUTF8.toList ++ toBeBytes retryAttempt).foldl
    (fun hash byte => (hash ^^^ byte.toUInt64) * 0x100000001b3) 0xcbf29ce484222325

def QueueTopology.retryBucket (topology : QueueTopology) (eventId : String) (retryAttempt : Nat) :
    Option RetryBucket :=
  if retryAttempt = 0 then none
  else do
    let candidates ← topology.retryBucketDelaysByAttempt[retryAttempt - 1]?
    if candidates.isEmpty then none
    else
      let delay ←
        candidates[(stableRetryBucketHash eventId retryAttempt).toNat % candidates.length]?
      topology.retryBuckets.find? fun bucket => bucket.delay = delay

/-! ## The settings of a consumer -/

structure QueueRuntimePlan where
  setting : QueueRuntimeSetting
  topology : QueueTopology

structure MessageBrokerSetting where
  confirmTimeout : Nat
  queues : AList fun _ : String => QueueRuntimePlan
  topologyPlan : RabbitMqTopologyPlan

namespace MessageBrokerSetting

def registerQueue (queues : AList fun _ : String => QueueRuntimePlan)
    (accepted : RabbitMqQueueTopologyPlan) :
    Except MessageBrokerError (AList fun _ : String => QueueRuntimePlan) := do
  let setting ← QueueRuntimeSetting.fromDefinition accepted.definition
  let topology := QueueTopology.fromPlan accepted
  ensure (accepted.definition.name ∉ queues)
    (.configuration "duplicate queue configuration" accepted.definition.name "")
  return queues.insert accepted.definition.name ⟨setting, topology⟩

def fromTopologyPlan (confirmTimeout : Nat) (topologyPlan : RabbitMqTopologyPlan) :
    Except MessageBrokerError MessageBrokerSetting := do
  let queues ← topologyPlan.queues.foldlM registerQueue ∅
  return ⟨confirmTimeout, queues, topologyPlan⟩

def fromDefinitions (confirmTimeout : Nat) (definitions : List QueueDefinition) :
    Except MessageBrokerError MessageBrokerSetting :=
  match RabbitMqTopologyPlan.compile ⟨definitions⟩ with
  | .error error => .error (.topology error)
  | .ok topologyPlan => fromTopologyPlan confirmTimeout topologyPlan

variable (setting : MessageBrokerSetting) (name : String)

def queuePlan : Except MessageBrokerError QueueRuntimePlan :=
  match setting.queues.lookup name with
  | some plan => .ok plan
  | none => .error (.configuration "queue" name
      "has handler metadata but no [[rabbitmq.topology.queues]] configuration")

def queue : Except MessageBrokerError QueueRuntimeSetting :=
  (setting.queuePlan name).map QueueRuntimePlan.setting

def topology : Except MessageBrokerError QueueTopology :=
  (setting.queuePlan name).map QueueRuntimePlan.topology

end MessageBrokerSetting

end Lily.Queue.Topology
