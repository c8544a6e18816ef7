import Lily.Lease.Fenced
import Mathlib.Data.List.Sort
import Mathlib.Algebra.BigOperators.Group.List.Basic

/-!
# The outbox table of PostgreSQL

The statements of the store on the rows of `lily_queue.outbox`. An `UPDATE` maps over the
rows, a `SELECT` filters and sorts them. Each statement is atomic and runs at one time;
what the store answers is returned beside the rows. `SKIP LOCKED` leaves out the rows
that other transactions have locked, which is any set of record ids here.

Times are in milliseconds. A UUID is its number, and the nil UUID is zero. The columns
for the source of a record are not read by these statements and are left out.
-/

namespace Lily.Queue.Outbox

abbrev Uuid := Nat

/-- The bounds of the inbox and of the relay. -/
structure TransactionalInboxConfig where
  inboxLockTimeoutMillis : Nat := 30000
  outboxClaimLeaseMillis : Nat := 30000
  relayBatchSize : Nat := 100
  relayMaxInFlightBytes : Nat := 8 * 1024 * 1024
  relayMaxPublishAttempts : Nat := 5
  relayRetryInitialBackoffMillis : Nat := 250
  relayRetryMaxBackoffMillis : Nat := 30000
  inboxRetentionSecs : Nat := 7 * 24 * 60 * 60
  outboxRetentionSecs : Nat := 7 * 24 * 60 * 60
  deriving DecidableEq

structure OutboxMessage where
  eventId : Uuid
  exchangeName : String
  routingKey : String
  schemaVersion : Nat
  contentKind : String
  contentType : String
  body : List UInt8
  traceparent : Option String
  deriving DecidableEq

structure OutboxRow where
  recordId : Uuid
  message : OutboxMessage
  availableAt : Nat
  claimToken : Option Uuid
  claimedUntil : Option Nat
  publishAttempts : Nat
  lastFailureCode : Option String
  createdAt : Nat
  deliveredAt : Option Nat
  deriving DecidableEq

inductive PostgresReliabilityError where
  | invalidContract (code : String)
  | outboxRecordTooLarge (bytes maximum : Nat)
  | outboxClaimLost
  | database

def PostgresReliabilityError.code : PostgresReliabilityError → String
  | .invalidContract code => code
  | .outboxRecordTooLarge _ _ => "QUEUE_OUTBOX_RELAY_RECORD_TOO_LARGE"
  | .outboxClaimLost => "QUEUE_POSTGRES_OUTBOX_CLAIM_LOST"
  | .database => "QUEUE_POSTGRES_STORAGE_FAILED"

def i64Max : Nat := 2 ^ 63 - 1

/-- `UPDATE … SET … WHERE …`. -/
def update (rows : List OutboxRow) (p : OutboxRow → Bool) (f : OutboxRow → OutboxRow) :
    List OutboxRow :=
  rows.map fun row => if p row then f row else row

/-- A row as `INSERT` makes it, in a transaction that began at the given time. -/
def insertedRow (recordId : Uuid) (message : OutboxMessage) (began : Nat) : OutboxRow where
  recordId
  message
  availableAt := began
  claimToken := none
  claimedUntil := none
  publishAttempts := 0
  lastFailureCode := none
  createdAt := began
  deliveredAt := none

/-! ## Claiming a batch -/

section Claim

variable (config : TransactionalInboxConfig) (now : Nat)

variable (claimOwner : Uuid) (row : OutboxRow)

def claimable : Bool :=
  row.deliveredAt.isNone && decide (row.availableAt ≤ now) &&
    row.claimedUntil.all (fun limit => limit ≤ now) &&
    decide (row.publishAttempts < config.relayMaxPublishAttempts)

def OutboxRow.bodyBytes : Nat := row.message.body.length

/-- `ORDER BY created_at, record_id`. -/
def OutboxRow.Before (a b : OutboxRow) : Prop :=
  a.createdAt < b.createdAt ∨ a.createdAt = b.createdAt ∧ a.recordId ≤ b.recordId

instance : DecidableRel OutboxRow.Before := fun a b =>
  inferInstanceAs (Decidable (a.createdAt < b.createdAt ∨
    a.createdAt = b.createdAt ∧ a.recordId ≤ b.recordId))

/-- The claimable rows that nobody else has locked, oldest first. -/
def candidates (locked : List Uuid) (rows : List OutboxRow) : List OutboxRow :=
  (rows.filter fun row => claimable config now row && !locked.contains row.recordId).insertionSort
    OutboxRow.Before

/-- The rows with the bytes of all rows up to them, `SUM(…) OVER (ORDER BY …)`. -/
def ranked (retained : Nat) : List OutboxRow → List (OutboxRow × Nat)
  | [] => []
  | row :: rest => (row, retained + row.bodyBytes) :: ranked (retained + row.bodyBytes) rest

def bounded (rows : List OutboxRow) : List OutboxRow :=
  ((ranked 0 rows).filter fun entry => entry.2 ≤ config.relayMaxInFlightBytes).map Prod.fst

def leased : OutboxRow :=
  { row with
    claimToken := some claimOwner
    claimedUntil := some (now + config.outboxClaimLeaseMillis) }

/-- The two queries of a claim may meet different locks. -/
def claimOutboxBatch (locked lockedLater : List Uuid) (rows : List OutboxRow) :
    List OutboxRow × Except PostgresReliabilityError (List OutboxRow) :=
  if claimOwner = 0 then (rows, .error (.invalidContract "QUEUE_OUTBOX_CLAIM_TOKEN_INVALID"))
  else if i64Max < config.relayBatchSize then
    (rows, .error (.invalidContract "QUEUE_OUTBOX_BATCH_SIZE_INVALID"))
  else if i64Max < config.relayMaxInFlightBytes then
    (rows, .error (.invalidContract "QUEUE_OUTBOX_BATCH_BYTES_INVALID"))
  else if i64Max < config.outboxClaimLeaseMillis then
    (rows, .error (.invalidContract "QUEUE_OUTBOX_CLAIM_LEASE_INVALID"))
  else
    let oldest := (candidates config now locked rows).head?
    match oldest.filter fun row => config.relayMaxInFlightBytes < row.bodyBytes with
    | some row =>
      (rows, .error (.outboxRecordTooLarge row.bodyBytes config.relayMaxInFlightBytes))
    | none =>
      let claimed :=
        bounded config ((candidates config now lockedLater rows).take config.relayBatchSize)
      (update rows (fun row => (claimed.map OutboxRow.recordId).contains row.recordId)
          (leased config now claimOwner),
        .ok (claimed.map (leased config now claimOwner)))

end Claim

/-! ## The fenced statements -/

section Fenced

variable (config : TransactionalInboxConfig) (recordId claimToken : Uuid) (now : Nat)

/-- The rows a fenced statement looks at: the record, under this token, undelivered. -/
def owned (row : OutboxRow) : Bool :=
  row.recordId = recordId && row.claimToken = some claimToken && row.deliveredAt.isNone

/-- The rows of which a publish may be started under this token. -/
def admitted (row : OutboxRow) : Bool :=
  owned recordId claimToken row && decide (row.publishAttempts < config.relayMaxPublishAttempts)

def attempted (row : OutboxRow) : OutboxRow :=
  { row with
    publishAttempts := row.publishAttempts + 1
    claimedUntil := some (now + config.outboxClaimLeaseMillis) }

variable (retryAfter : Nat) (failureCode : String) (rows : List OutboxRow)

def beginOutboxPublish : List OutboxRow × Except PostgresReliabilityError Nat :=
  if i64Max < config.outboxClaimLeaseMillis then
    (rows, .error (.invalidContract "QUEUE_OUTBOX_CLAIM_LEASE_INVALID"))
  else
    (update rows (admitted config recordId claimToken) (attempted config now),
      match (rows.filter (admitted config recordId claimToken)).head? with
      | some row => .ok (row.publishAttempts + 1)
      | none => .error .outboxClaimLost)

/-- The answer of a statement that has to affect one row. -/
def affectedOne (p : OutboxRow → Bool) : Except PostgresReliabilityError Unit :=
  if (rows.filter p).length = 1 then .ok () else .error .outboxClaimLost

/-- The rows whose publish has been started under this token. -/
def started (row : OutboxRow) : Bool :=
  owned recordId claimToken row && decide (0 < row.publishAttempts)

def markOutboxDelivered : List OutboxRow × Except PostgresReliabilityError Unit :=
  (update rows (started recordId claimToken) fun row =>
      { row with
        deliveredAt := some now
        claimToken := none
        claimedUntil := none
        lastFailureCode := none },
    affectedOne rows (started recordId claimToken))

def failureCodeIsValid (code : String) : Bool :=
  code.utf8ByteSize ≤ 64 &&
    match code.toList with
    | [] => false
    | first :: rest =>
      first.isAlphanum &&
        rest.all fun c => c.isAlphanum || c == '_' || c == '-' || c == '.'

def recordOutboxFailure : List OutboxRow × Except PostgresReliabilityError Unit :=
  if !failureCodeIsValid failureCode then
    (rows, .error (.invalidContract "QUEUE_OUTBOX_FAILURE_CODE_INVALID"))
  else if i64Max < retryAfter then
    (rows, .error (.invalidContract "QUEUE_OUTBOX_RETRY_DELAY_INVALID"))
  else
    (update rows (started recordId claimToken) fun row =>
        { row with
          availableAt := now + retryAfter
          claimToken := none
          claimedUntil := none
          lastFailureCode := some failureCode },
      affectedOne rows (started recordId claimToken))

end Fenced

/-! ## Counting and cleanup -/

def exhaustedOutboxCount (config : TransactionalInboxConfig) (rows : List OutboxRow) : Nat :=
  (rows.filter fun row =>
    row.deliveredAt.isNone && decide (config.relayMaxPublishAttempts ≤ row.publishAttempts)).length

/-- Delivered rows past their retention. -/
def expired (config : TransactionalInboxConfig) (now : Nat) (row : OutboxRow) : Bool :=
  row.deliveredAt.any fun delivered => delivered + config.outboxRetentionSecs * 1000 < now

/-- `ORDER BY delivered_at, record_id`. -/
def OutboxRow.DeliveredBefore (a b : OutboxRow) : Prop :=
  a.deliveredAt.getD 0 < b.deliveredAt.getD 0 ∨
    a.deliveredAt.getD 0 = b.deliveredAt.getD 0 ∧ a.recordId ≤ b.recordId

instance : DecidableRel OutboxRow.DeliveredBefore := fun a b =>
  inferInstanceAs (Decidable (a.deliveredAt.getD 0 < b.deliveredAt.getD 0 ∨
    a.deliveredAt.getD 0 = b.deliveredAt.getD 0 ∧ a.recordId ≤ b.recordId))

/-- One pass deletes one batch of them. -/
def cleanup (config : TransactionalInboxConfig) (now : Nat) (locked : List Uuid)
    (rows : List OutboxRow) : List OutboxRow :=
  let batch := ((rows.filter fun row => expired config now row &&
    !locked.contains row.recordId).insertionSort OutboxRow.DeliveredBefore).take
      config.relayBatchSize
  rows.filter fun row => !(batch.map OutboxRow.recordId).contains row.recordId

end Lily.Queue.Outbox
