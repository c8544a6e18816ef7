import Lily.Collection.OrderedSet
import Lily.Config.Topology.Definition
import Lily.Control.Validation
import Mathlib.Data.List.AList

/-!
# The topology compiler

A configuration is compiled definition by definition: each is validated, expanded into
its exchanges, queues and retry buckets, and registered against everything compiled
before it. The plan is the authority that publishers, consumers and the topology
bootstrap share.
-/

namespace Lily.Config

open Validation

def maxQueueConcurrency : Nat := 1024
def maxQueuePrefetch : Nat := 4096
def maxQueueMessageSizeBytes : Nat := 16 * 1024 * 1024
def maxQueueRetryAttempts : Nat := 100
def maxRetryBucketsPerQueue : Nat := 32
def maxRetryBucketsPerTopology : Nat := 4096
def i64Max : Nat := 2 ^ 63 - 1
def u64Max : Nat := 2 ^ 64 - 1
def usizeMax : Nat := 2 ^ 64 - 1

inductive RabbitMqTopologyPlanError where
  | duplicateQueueName (name : String)
  | invalidIdentity (queue field : String)
  | invalidDerivedIdentity (queue resource : String)
  | missingRetention (queue : String)
  | invalidRetention (queue field : String)
  | invalidQueuePolicy (queue field : String)
  | retryBucketLimitExceeded (queue : String) (count maximum : Nat)
  | topologyRetryBucketLimitExceeded (count maximum : Nat)
  | externalDestinationRequired (queue field : String)
  | physicalQueueNameCollision (name : String)
  | exchangeContractConflict (name : String)

/-! ## Validating one definition -/

section Definition

variable (definition : QueueDefinition)

def QueueDefinition.identities : List (String × Option String) :=
  [("name", some definition.name), ("exchange_name", some definition.exchangeName),
    ("routing_key", some definition.routingKey),
    ("dead_letter_exchange", definition.deadLetterExchange),
    ("dead_letter_routing_key", definition.deadLetterRoutingKey)]

/-- The destinations that an operator has to name. -/
def QueueDefinition.destinations : List (String × Bool) :=
  [("dead_letter_exchange", definition.deadLetterExchange.isSome),
    ("dead_letter_routing_key", definition.deadLetterRoutingKey.isSome)]

/-- A typed policy, reported by its field. -/
def ensurePolicy (p : Prop) [Decidable p] (field : String) :
    Except RabbitMqTopologyPlanError Unit :=
  ensure p (.invalidQueuePolicy definition.name field)

/-- Lily cannot create the destinations of a topology that it does not own. -/
def validateDestinations : Except RabbitMqTopologyPlanError Unit :=
  if definition.topologyOwnership = .external then
    ensureAll (fun field : String × Bool => field.2)
      (fun field => .externalDestinationRequired definition.name field.1) definition.destinations
  else .ok ()

def validateRetention : Except RabbitMqTopologyPlanError Unit :=
  match definition.retention with
  | none => .error (.missingRetention definition.name)
  | some retention =>
    ensureAll (fun limit : String × Nat => ¬ (limit.2 = 0 ∨ i64Max < limit.2))
      (fun limit => .invalidRetention definition.name limit.1) retention.limits

def validateQueueType : Except RabbitMqTopologyPlanError Unit :=
  match definition.queueType with
  | .classic =>
    ensurePolicy definition (∀ priority ∈ definition.maxPriority, 1 ≤ priority ∧ priority ≤ 16)
      "max_priority"
  | .quorum => do
    ensurePolicy definition definition.durable "durable"
    ensurePolicy definition (¬ definition.autoDelete) "auto_delete"
    ensurePolicy definition (definition.maxPriority = none) "max_priority"

def QueueDefinition.bufferCapacity : Nat :=
  definition.deliveryBufferCapacity.getD definition.prefetchCount

def QueueDefinition.baseMillis : Nat := definition.retryBackoffMillis.getD 1000

def QueueDefinition.capMillis : Nat := definition.maxRetryBackoffMillis.getD 60000

def validateDefinition : Except RabbitMqTopologyPlanError Unit := do
  ensureAll (fun field : String × Option String => ∀ value ∈ field.2, identityIsValid value)
    (fun field => .invalidIdentity definition.name field.1) definition.identities
  ensurePolicy definition (¬ definition.exclusive) "exclusive"
  validateDestinations definition
  ensurePolicy definition
    (1 ≤ definition.concurrency ∧ definition.concurrency ≤ maxQueueConcurrency) "concurrency"
  ensurePolicy definition
    (1 ≤ definition.prefetchCount ∧ definition.prefetchCount ≤ maxQueuePrefetch) "prefetch_count"
  ensurePolicy definition
    (¬ (definition.bufferCapacity = 0 ∨ definition.prefetchCount < definition.bufferCapacity))
    "delivery_buffer_capacity"
  ensurePolicy definition (1 ≤ definition.maxMessageSizeBytes ∧
    definition.maxMessageSizeBytes ≤ maxQueueMessageSizeBytes) "max_message_size_bytes"
  ensurePolicy definition (definition.retryAttempts ≤ maxQueueRetryAttempts) "retry_attempts"
  ensurePolicy definition (definition.retryJitterRatio.isFinite ∧
    0.0 ≤ definition.retryJitterRatio ∧ definition.retryJitterRatio ≤ 0.5) "retry_jitter_ratio"
  ensurePolicy definition ((100 ≤ definition.baseMillis ∧ definition.baseMillis ≤ 300000) ∧
    definition.baseMillis ≤ definition.capMillis ∧ definition.capMillis ≤ 900000) "retry_backoff"
  ensurePolicy definition (100 ≤ definition.deliveryExecutionTimeoutMillis.getD 30000 ∧
    definition.deliveryExecutionTimeoutMillis.getD 30000 ≤ 900000)
    "delivery_execution_timeout_millis"
  ensurePolicy definition (1 ≤ definition.settlementTimeoutMillis.getD 5000 ∧
    definition.settlementTimeoutMillis.getD 5000 ≤ 60000) "settlement_timeout_millis"
  ensurePolicy definition (definition.messageTtlMs ≠ some 0) "message_ttl_ms"
  validateRetention definition
  validateQueueType definition

end Definition

/-! ## Expanding one definition -/

structure RabbitMqRetryBucketPlan where
  queueName : String
  routingKey : String
  delayMillis : Nat
  queueType : RabbitMqQueueType

structure RabbitMqQueueTopologyPlan where
  definition : QueueDefinition
  exchangeName : String
  exchangeKind : RabbitMqExchangeKind
  mainQueueName : String
  routingKey : String
  retryExchangeName : String
  retryBuckets : List RabbitMqRetryBucketPlan
  retryBucketDelaysByAttempt : List (List Nat)
  deadLetterExchangeName : String
  deadLetterQueueName : String
  deadLetterRoutingKey : String
  systemQueueType : RabbitMqQueueType
  topologyOwnership : RabbitMqTopologyOwnership

/-- `f64::round() as u64` for a nonnegative number whose fraction is exact. -/
def roundToU64 (x : Float) : Nat :=
  let whole := x.toUInt64
  if 0.5 ≤ x - whole.toFloat then whole.toNat + 1 else whole.toNat

/-- `Ord::clamp`. -/
def clamp (value low high : Nat) : Nat :=
  if value < low then low else if high < value then high else value

/-- Keep the first occurrence of each value. -/
def pushNew (candidates : List Nat) (candidate : Nat) : List Nat :=
  if candidates.contains candidate then candidates else candidates ++ [candidate]

def nominalDelay (definition : QueueDefinition) (retryCount : Nat) : Nat :=
  let exponent := min (retryCount - 1) 31
  min (min (definition.baseMillis * 2 ^ exponent) u64Max) definition.capMillis

/-- The delays of one retry: the nominal one, and with jitter one below and one above. -/
def attemptDelays (definition : QueueDefinition) (retryCount : Nat) : List Nat :=
  let nominal := nominalDelay definition retryCount
  let spread := roundToU64 ((UInt64.ofNat nominal).toFloat * definition.retryJitterRatio)
  let candidates := [nominal - spread, nominal, min (nominal + spread) u64Max]
  (candidates.map fun candidate => clamp candidate definition.baseMillis definition.capMillis).foldl
    pushNew []

def retryBucketDelaysByAttempt (definition : QueueDefinition) : List (List Nat) :=
  (List.range definition.retryAttempts).map fun index => attemptDelays definition (index + 1)

def retryBucketDelays (routes : List (List Nat)) : List Nat := Collection.orderedSet routes.flatten

def validateDerivedIdentity (definition : QueueDefinition) (resource value : String) :
    Except RabbitMqTopologyPlanError Unit :=
  ensure (identityIsValid value) (.invalidDerivedIdentity definition.name resource)

def retryBucketPlan (definition : QueueDefinition) (delayMillis : Nat) :
    RabbitMqRetryBucketPlan where
  queueName := definition.name ++ ".retry.v2." ++ toString delayMillis ++ "ms"
  routingKey := definition.name ++ ".retry." ++ toString delayMillis ++ "ms"
  delayMillis
  queueType := definition.queueType

/-- The plan of a definition, before any of its names is checked. -/
def queueTopologyPlan (definition : QueueDefinition) : RabbitMqQueueTopologyPlan where
  definition
  exchangeName := definition.exchangeName
  exchangeKind := definition.exchangeKind
  mainQueueName := definition.name
  routingKey := definition.routingKey
  retryExchangeName := definition.exchangeName ++ ".retry.v2"
  retryBuckets :=
    (retryBucketDelays (retryBucketDelaysByAttempt definition)).map (retryBucketPlan definition)
  retryBucketDelaysByAttempt := retryBucketDelaysByAttempt definition
  deadLetterExchangeName :=
    definition.deadLetterExchange.getD (definition.exchangeName ++ ".dlx.v2")
  deadLetterQueueName := definition.name ++ ".dlq.v2"
  deadLetterRoutingKey := definition.deadLetterRoutingKey.getD definition.name
  systemQueueType := definition.queueType
  topologyOwnership := definition.topologyOwnership

def RabbitMqRetryBucketPlan.identities (bucket : RabbitMqRetryBucketPlan) :
    List (String × String) :=
  [("retry_bucket.queue_name", bucket.queueName), ("retry_bucket.routing_key", bucket.routingKey)]

def RabbitMqQueueTopologyPlan.compile (definition : QueueDefinition) :
    Except RabbitMqTopologyPlanError RabbitMqQueueTopologyPlan := do
  let plan := queueTopologyPlan definition
  let validate := fun name : String × String => validateDerivedIdentity definition name.1 name.2
  validate ("retry_exchange_name", plan.retryExchangeName)
  ensure (plan.retryBuckets.length ≤ maxRetryBucketsPerQueue)
    (.retryBucketLimitExceeded definition.name plan.retryBuckets.length maxRetryBucketsPerQueue)
  (plan.retryBuckets.flatMap RabbitMqRetryBucketPlan.identities).forM validate
  validate ("dead_letter_exchange_name", plan.deadLetterExchangeName)
  validate ("dead_letter_queue_name", plan.deadLetterQueueName)
  validate ("dead_letter_routing_key", plan.deadLetterRoutingKey)
  return plan

variable (plan : RabbitMqQueueTopologyPlan) (retryAttempt : Nat)

/-- The delays of one retry; there are none for the zeroth and beyond the last. -/
def RabbitMqQueueTopologyPlan.retryBucketDelays : Option (List Nat) :=
  if retryAttempt = 0 then none else plan.retryBucketDelaysByAttempt[retryAttempt - 1]?

/-! ## Compiling a configuration -/

structure RabbitMqTopologyPlan where
  queues : List RabbitMqQueueTopologyPlan

/-- The kind and the owner that each exchange was registered with. -/
abbrev ExchangeContracts :=
  AList fun _ : String => RabbitMqExchangeKind × RabbitMqTopologyOwnership

/-- The accumulators of the compiler. -/
structure Compilation where
  logicalQueues : List String := []
  physicalQueues : List String := []
  exchanges : ExchangeContracts := ∅
  queues : List RabbitMqQueueTopologyPlan := []
  retryBucketCount : Nat := 0

def registerPhysicalQueue (queues : List String) (name : String) :
    Except RabbitMqTopologyPlanError (List String) :=
  if name ∈ queues then .error (.physicalQueueNameCollision name) else .ok (name :: queues)

def registerExchange (exchanges : ExchangeContracts) (name : String) (kind : RabbitMqExchangeKind)
    (ownership : RabbitMqTopologyOwnership) :
    Except RabbitMqTopologyPlanError ExchangeContracts := do
  ensure (∀ accepted ∈ exchanges.lookup name, accepted = (kind, ownership))
    (.exchangeContractConflict name)
  return exchanges.insert name (kind, ownership)

/-- The exchanges of one queue; without retries there is no retry exchange. -/
def registerExchanges (exchanges : ExchangeContracts) (queue : RabbitMqQueueTopologyPlan) :
    Except RabbitMqTopologyPlanError ExchangeContracts := do
  let exchanges ← registerExchange exchanges queue.exchangeName queue.exchangeKind
    queue.topologyOwnership
  let exchanges ← registerExchange exchanges queue.deadLetterExchangeName .direct
    queue.topologyOwnership
  if queue.retryBuckets.isEmpty then return exchanges
  else registerExchange exchanges queue.retryExchangeName .direct queue.topologyOwnership

def RabbitMqQueueTopologyPlan.physicalQueueNames : List String :=
  plan.mainQueueName :: plan.retryBuckets.map (·.queueName) ++ [plan.deadLetterQueueName]

/-- `usize::checked_add`, with the bound that the topology has on its buckets. -/
def addRetryBuckets (count amount : Nat) : Except RabbitMqTopologyPlanError Nat := do
  ensure (count + amount ≤ usizeMax)
    (.topologyRetryBucketLimitExceeded usizeMax maxRetryBucketsPerTopology)
  ensure (count + amount ≤ maxRetryBucketsPerTopology)
    (.topologyRetryBucketLimitExceeded (count + amount) maxRetryBucketsPerTopology)
  return count + amount

def compileDefinition (state : Compilation) (definition : QueueDefinition) :
    Except RabbitMqTopologyPlanError Compilation := do
  ensure (definition.name ∉ state.logicalQueues) (.duplicateQueueName definition.name)
  validateDefinition definition
  let queue ← RabbitMqQueueTopologyPlan.compile definition
  let retryBucketCount ← addRetryBuckets state.retryBucketCount queue.retryBuckets.length
  let exchanges ← registerExchanges state.exchanges queue
  let physicalQueues ← queue.physicalQueueNames.foldlM registerPhysicalQueue state.physicalQueues
  return {
    logicalQueues := definition.name :: state.logicalQueues
    physicalQueues
    exchanges
    queues := state.queues ++ [queue]
    retryBucketCount }

def RabbitMqTopologyPlan.compile (config : RabbitMqTopologyConfig) :
    Except RabbitMqTopologyPlanError RabbitMqTopologyPlan := do
  let state ← config.queues.foldlM compileDefinition {}
  return ⟨state.queues⟩

end Lily.Config
