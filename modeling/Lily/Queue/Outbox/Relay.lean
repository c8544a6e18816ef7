import Lily.Queue.Outbox.Postgresql
import Lily.Transition.Interleaving

/-!
# The relay workers

A worker claims a batch under the token it drew when it started, publishes the records
one by one, and marks or releases each of them. It is modelled by the point it has
reached, together with the records it still has to process. Workers are told apart by
their tokens, which are random and therefore distinct; a restarted worker is another
one.

A statement may also fail before it runs, or run without its answer arriving. A worker
may be stopped at any point. Application transactions add records, and time passes, in
between as they like; both are moves of whichever worker comes next. Record ids are
random, so that an id is not used again after its record was cleaned up.
-/

namespace Lily.Queue.Outbox

open Transition

structure RelayRecord where
  recordId : Uuid
  claimToken : Uuid
  message : OutboxMessage
  publishAttempts : Nat
  deriving DecidableEq

def RelayRecord.ofRow (row : OutboxRow) : RelayRecord :=
  ⟨row.recordId, row.claimToken.getD 0, row.message, row.publishAttempts⟩

/-- Where a worker is, with the records it still holds. -/
inductive Phase where
  | idle
  | polled
  | batch (records : List RelayRecord)
  | publishing (record : RelayRecord) (rest : List RelayRecord)
  | confirmed (record : RelayRecord) (rest : List RelayRecord)
  | failing (record : RelayRecord) (rest : List RelayRecord) (code : String)
  | stopped (failure : Option String)
  deriving DecidableEq

/-- The table, the time, and every record id that was ever used. -/
structure Store where
  clock : Nat
  rows : List OutboxRow
  issued : List Uuid

/-- What can go wrong with a statement. -/
inductive Fault where
  | none
  | lost
  | unacknowledged
  deriving DecidableEq

variable {α : Type} (fault : Fault) (rows : List OutboxRow)
  (result : List OutboxRow × Except PostgresReliabilityError α)

/-- Run a statement under a fault: the rows afterwards, and the answer that arrives. -/
def Fault.run : List OutboxRow × Except PostgresReliabilityError α :=
  match fault with
  | .none => result
  | .lost => (rows, .error .database)
  | .unacknowledged => (result.1, .error .database)

inductive PublishOutcome where
  | confirmed
  | failed (code : String)
  | timedOut
  deriving DecidableEq

/-- What the store, the broker or the surroundings do next. -/
inductive Event where
  | elapse (millis : Nat)
  | enqueue (recordId : Uuid) (message : OutboxMessage) (age : Nat)
  | cleanup (locked : List Uuid) (fault : Fault)
  | claim (locked lockedLater : List Uuid) (fault : Fault)
  | count (fault : Fault)
  | begin (fault : Fault)
  | publish (outcome : PublishOutcome)
  | mark (fault : Fault)
  | recordFailure (fault : Fault)
  | cancel
  | crash
  deriving DecidableEq

/-- What the database and the broker did for a worker. -/
inductive Entry where
  | claimed (rows : List OutboxRow)
  | began (recordId : Uuid)
  | published (recordId : Uuid) (outcome : PublishOutcome)
  | marked (recordId : Uuid) (claimToken : Option Uuid)
  | released (recordId : Uuid)
  deriving DecidableEq

/-- A statement that ran leaves an entry if it succeeded. -/
def Fault.entries (entry : α → Entry) : List Entry :=
  match fault with
  | .lost => []
  | .none | .unacknowledged =>
    match result.2 with
    | .error _ => []
    | .ok value => [entry value]

section Worker

variable (config : TransactionalInboxConfig)

/-- The loop over a batch ends where the next poll begins. -/
def afterRecord : List RelayRecord → Phase
  | [] => .idle
  | rest => .batch rest

def exhausted : Phase := .stopped (some "QUEUE_OUTBOX_RELAY_ATTEMPTS_EXHAUSTED")

def afterClaim : Except PostgresReliabilityError (List OutboxRow) → Phase
  | .error (.outboxRecordTooLarge _ _) => .stopped (some "QUEUE_OUTBOX_RELAY_RECORD_TOO_LARGE")
  | .error _ => .idle
  | .ok [] => .polled
  | .ok rows =>
    if config.relayBatchSize < rows.length ∨
        config.relayMaxInFlightBytes < (rows.map OutboxRow.bodyBytes).sum then
      .stopped (some "QUEUE_OUTBOX_RELAY_STORAGE_BOUND_VIOLATION")
    else .batch (rows.map RelayRecord.ofRow)

variable (record : RelayRecord) (rest : List RelayRecord)

def afterBegin :
    Except PostgresReliabilityError Nat → Phase
  | .ok attempt =>
    if attempt = 0 ∨ config.relayMaxPublishAttempts < attempt then
      .stopped (some "QUEUE_OUTBOX_RELAY_ATTEMPT_CONTRACT_VIOLATION")
    else .publishing { record with publishAttempts := attempt } rest
  | .error .outboxClaimLost => afterRecord rest
  | .error error => .stopped (some error.code)

def afterMark :
    Except PostgresReliabilityError Unit → Phase
  | .ok () => afterRecord rest
  | .error _ =>
    if record.publishAttempts = config.relayMaxPublishAttempts then exhausted
    else afterRecord rest

def afterFailure : Phase :=
  if record.publishAttempts = config.relayMaxPublishAttempts then exhausted else afterRecord rest

/-- The backoff doubles with every attempt, up to its maximum. -/
def retryAfter (publishAttempts : Nat) : Nat :=
  min (config.relayRetryInitialBackoffMillis * 2 ^ min (publishAttempts - 1) 31)
    config.relayRetryMaxBackoffMillis

def act (token : Uuid) (event : Event) (outbox : Store) (phase : Phase) : Turn Store Phase Entry :=
  match event, phase with
  | .elapse millis, phase => ⟨{ outbox with clock := outbox.clock + millis }, phase, []⟩
  | .enqueue recordId message age, phase =>
    if recordId ∈ outbox.issued then ⟨outbox, phase, []⟩
    else
      ⟨{ outbox with
          rows := outbox.rows ++ [insertedRow recordId message (outbox.clock - age)]
          issued := recordId :: outbox.issued }, phase, []⟩
  | .cleanup locked fault, .idle =>
    let result := fault.run outbox.rows
      (cleanup config outbox.clock locked outbox.rows, (.ok () : Except _ Unit))
    ⟨{ outbox with rows := result.1 }, .idle, []⟩
  | .claim locked lockedLater fault, .idle =>
    let result := claimOutboxBatch config outbox.clock token locked lockedLater outbox.rows
    let reply := fault.run outbox.rows result
    ⟨{ outbox with rows := reply.1 }, afterClaim config reply.2, fault.entries result .claimed⟩
  | .count fault, .polled =>
    let reply := fault.run outbox.rows
      (outbox.rows, .ok (exhaustedOutboxCount config outbox.rows))
    ⟨outbox, match reply.2 with
      | .ok (_ + 1) => exhausted
      | _ => .idle, []⟩
  | .begin fault, .batch (record :: rest) =>
    let result := beginOutboxPublish config record.recordId record.claimToken outbox.clock
      outbox.rows
    let reply := fault.run outbox.rows result
    ⟨{ outbox with rows := reply.1 }, afterBegin config record rest reply.2,
      fault.entries result fun _ => .began record.recordId⟩
  | .publish outcome, .publishing record rest =>
    ⟨outbox, match outcome with
      | .confirmed => .confirmed record rest
      | .failed code => .failing record rest code
      | .timedOut => .failing record rest "QUEUE_OUTBOX_RELAY_PUBLISH_TIMEOUT",
      [.published record.recordId outcome]⟩
  | .mark fault, .confirmed record rest =>
    let result := markOutboxDelivered record.recordId record.claimToken outbox.clock outbox.rows
    let reply := fault.run outbox.rows result
    ⟨{ outbox with rows := reply.1 }, afterMark config record rest reply.2,
      fault.entries result fun _ => .marked record.recordId
        ((outbox.rows.find? fun row => row.recordId = record.recordId).bind (·.claimToken))⟩
  | .recordFailure fault, .failing record rest code =>
    let result := recordOutboxFailure record.recordId record.claimToken outbox.clock
      (retryAfter config record.publishAttempts) code outbox.rows
    let reply := fault.run outbox.rows result
    ⟨{ outbox with rows := reply.1 }, afterFailure config record rest,
      fault.entries result fun _ => .released record.recordId⟩
  | .cancel, .idle => ⟨outbox, .stopped none, []⟩
  | .cancel, .batch _ => ⟨outbox, .stopped none, []⟩
  | .crash, _ => ⟨outbox, .stopped none, []⟩
  | _, phase => ⟨outbox, phase, []⟩

def relay : Machine Uuid Store Phase Event Entry := ⟨act config⟩

end Worker

/-- No record yet, and every worker about to poll. -/
def initial : World Uuid Store Phase Entry := ⟨⟨0, [], []⟩, fun _ => .idle, []⟩

end Lily.Queue.Outbox
