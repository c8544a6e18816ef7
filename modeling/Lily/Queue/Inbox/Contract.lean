import Lily.Config.Topology.Definition
import Lily.Queue.Outbox.Postgresql
import Lily.Queue.Settlement.Plan
import Lily.Transaction.Once

/-!
# Transactional deliveries

What the two inbox stores have in common: the identity of a delivery, what a handler may
do inside its transaction, and what an execution reports. The value that a handler
returns is left out.
-/

namespace Lily.Queue.Inbox

open Outbox (Uuid OutboxMessage TransactionalInboxConfig)
open Settlement (FailureClass)

def maxTransactionalHandlerIdentityBytes : Nat := 512
def maxOutboxMessageBytes : Nat := 16 * 1024 * 1024

/-- One event for one logical handler. -/
structure InboxKey where
  handlerIdentity : String
  eventId : Uuid
  deriving DecidableEq

def handlerIdentityIsValid (value : String) : Bool :=
  (1 ≤ value.utf8ByteSize && value.utf8ByteSize ≤ maxTransactionalHandlerIdentityBytes) &&
    Config.trim value.toList == value.toList && !value.toList.any Config.isControl

def InboxKey.isValid (key : InboxKey) : Bool :=
  handlerIdentityIsValid key.handlerIdentity && key.eventId != 0

inductive InboxState where
  | processing
  | completed
  deriving DecidableEq

structure QueueHandlerError where
  failureClass : FailureClass
  code : String

def QueueHandlerError.retryable (code : String) : QueueHandlerError := ⟨.retryable, code⟩

def QueueHandlerError.permanent (code : String) : QueueHandlerError := ⟨.permanent, code⟩

inductive TransactionalExecution where
  | applied
  | alreadyCompleted
  | inProgress

structure OutboxRecord where
  recordId : Uuid
  sourceHandler : String
  sourceEventId : Uuid
  message : OutboxMessage

/-- The writes of a handler: its own, of which nothing is assumed, and outbox rows. -/
inductive Effect (ω : Type) where
  | work (write : ω)
  | outbox (record : OutboxRecord)

def maxOutboxBytes (config : TransactionalInboxConfig) : Nat :=
  min config.relayMaxInFlightBytes maxOutboxMessageBytes

/-- `enqueue` refuses a message that no relay would take. -/
def enqueued {ω : Type} (config : TransactionalInboxConfig) (key : InboxKey) (recordId : Uuid)
    (message : OutboxMessage) : Except String (Effect ω) :=
  if maxOutboxBytes config < message.body.length then .error "QUEUE_OUTBOX_POLICY_BYTES_EXCEEDED"
  else .ok (.outbox ⟨recordId, key.handlerIdentity, key.eventId, message⟩)

end Lily.Queue.Inbox
