import Lily.Config.Topology.Accepted
import Lily.Queue.Topology.Setting

/-!
# Where a handoff goes

The bootstrap declares the exchanges, queues and bindings of an accepted plan. A direct
exchange delivers a message to every queue that is bound to it with the message's
routing key; a message that expires in a retry bucket is published again to the
bucket's dead-letter exchange and key, which are those of the main queue.
-/

namespace Lily.Queue.Topology

open Config Validation

structure ExchangeSpec where
  name : String
  kind : RabbitMqExchangeKind
  ownership : RabbitMqTopologyOwnership

structure QueueSpec where
  name : String
  queueType : RabbitMqQueueType
  ownership : RabbitMqTopologyOwnership
  durable : Bool
  exclusive : Bool
  autoDelete : Bool
  maxMessages : Nat
  maxBytes : Nat
  deadLetterExchange : Option String
  deadLetterRoutingKey : Option String
  messageTtlMillis : Option Nat
  singleActiveConsumer : Bool
  maxPriority : Option Nat

structure BindingSpec where
  queue : String
  exchange : String
  routingKey : String
  ownership : RabbitMqTopologyOwnership

structure TopologyMaterialization where
  exchanges : List ExchangeSpec := []
  queues : List QueueSpec := []
  bindings : List BindingSpec := []

section QueuePlan

variable (queue : RabbitMqQueueTopologyPlan) (retention : QueueRetentionConfig)

def mainQueueSpec : QueueSpec where
  name := queue.mainQueueName
  queueType := queue.systemQueueType
  ownership := queue.topologyOwnership
  durable := queue.definition.durable
  exclusive := queue.definition.exclusive
  autoDelete := queue.definition.autoDelete
  maxMessages := retention.mainMaxMessages
  maxBytes := retention.mainMaxBytes
  deadLetterExchange := some queue.deadLetterExchangeName
  deadLetterRoutingKey := some queue.deadLetterRoutingKey
  messageTtlMillis := queue.definition.messageTtlMs
  singleActiveConsumer := queue.definition.singleActiveConsumer
  maxPriority := queue.definition.maxPriority

variable (bucket : RabbitMqRetryBucketPlan)

def retryBucketSpec : QueueSpec where
  name := bucket.queueName
  queueType := bucket.queueType
  ownership := queue.topologyOwnership
  durable := true
  exclusive := false
  autoDelete := false
  maxMessages := retention.retryBucketMaxMessages
  maxBytes := retention.retryBucketMaxBytes
  deadLetterExchange := some queue.exchangeName
  deadLetterRoutingKey := some queue.routingKey
  messageTtlMillis := some bucket.delayMillis
  singleActiveConsumer := false
  maxPriority := none

def deadLetterQueueSpec : QueueSpec where
  name := queue.deadLetterQueueName
  queueType := queue.systemQueueType
  ownership := queue.topologyOwnership
  durable := true
  exclusive := false
  autoDelete := false
  maxMessages := retention.deadLetterMaxMessages
  maxBytes := retention.deadLetterMaxBytes
  deadLetterExchange := none
  deadLetterRoutingKey := none
  messageTtlMillis := none
  singleActiveConsumer := false
  maxPriority := none

def queueSpecs : List QueueSpec :=
  mainQueueSpec queue retention :: queue.retryBuckets.map (retryBucketSpec queue retention) ++
    [deadLetterQueueSpec queue retention]

def mainBinding : BindingSpec :=
  ⟨queue.mainQueueName, queue.exchangeName, queue.routingKey, queue.topologyOwnership⟩

def retryBinding : BindingSpec :=
  ⟨bucket.queueName, queue.retryExchangeName, bucket.routingKey, queue.topologyOwnership⟩

def deadLetterBinding : BindingSpec :=
  ⟨queue.deadLetterQueueName, queue.deadLetterExchangeName, queue.deadLetterRoutingKey,
    queue.topologyOwnership⟩

def queueBindings : List BindingSpec :=
  mainBinding queue :: queue.retryBuckets.map (retryBinding queue) ++ [deadLetterBinding queue]

end QueuePlan

namespace TopologyMaterialization

def pushExchange (exchanges : List ExchangeSpec) (exchange : ExchangeSpec) : List ExchangeSpec :=
  if exchanges.all fun known => known.name ≠ exchange.name then exchanges ++ [exchange]
  else exchanges

/-- The exchanges of one queue, in the order in which they are pushed. -/
def exchangeSpecs (queue : RabbitMqQueueTopologyPlan) : List ExchangeSpec :=
  ⟨queue.exchangeName, queue.exchangeKind, queue.topologyOwnership⟩ ::
    (if queue.retryBuckets.isEmpty then []
      else [⟨queue.retryExchangeName, .direct, queue.topologyOwnership⟩]) ++
    [⟨queue.deadLetterExchangeName, .direct, queue.topologyOwnership⟩]

/-- A plan without retention makes the bootstrap panic with this text. -/
def pushQueuePlan (materialized : TopologyMaterialization) (queue : RabbitMqQueueTopologyPlan) :
    Except String TopologyMaterialization :=
  match queue.definition.retention with
  | none => .error "accepted topology plan has explicit retention"
  | some retention => .ok {
      exchanges := (exchangeSpecs queue).foldl pushExchange materialized.exchanges
      queues := materialized.queues ++ queueSpecs queue retention
      bindings := materialized.bindings ++ queueBindings queue }

def fromPlan (plan : RabbitMqTopologyPlan) : Except String TopologyMaterialization :=
  plan.queues.foldlM pushQueuePlan {}

variable (topology : TopologyMaterialization) (exchange routingKey : String)

/-- The queues that a message published to a direct exchange is delivered to. -/
def route : List String :=
  (topology.bindings.filter fun binding =>
    binding.exchange = exchange ∧ binding.routingKey = routingKey).map BindingSpec.queue

/-- The queues that a message which expires in a queue is delivered to. -/
def expire (queue : String) : List String :=
  (topology.queues.filter fun spec => spec.name = queue).flatMap fun spec =>
    match spec.messageTtlMillis, spec.deadLetterExchange, spec.deadLetterRoutingKey with
    | some _, some exchange, some routingKey => topology.route exchange routingKey
    | _, _, _ => []

end TopologyMaterialization

end Lily.Queue.Topology
