import Lily.Queue.Inbox.Contract
import Lily.Transition.Interleaving

/-!
# The inbox of PostgreSQL

One transaction for each delivery: an advisory lock that is only tried for, the claim of
the inbox row, the handler, the completion of the row, and the commit. The transactions
under way are kept by the database, so that one may outlive its client; if the client
had already asked for the commit, it may then still be committed.

The table is a function of its primary key. `NOW()` is the time at which the transaction
began. A claim that meets a row which another transaction has written waits for that
transaction. The advisory key is a hash, of which nothing is assumed here.
-/

namespace Lily.Queue.Inbox.Postgresql

open Transition
open Outbox (Uuid OutboxMessage TransactionalInboxConfig i64Max)

structure InboxRow where
  state : InboxState
  lockToken : Uuid
  lockedUntil : Nat
  completedAt : Option Nat

def InboxRow.finished (row : InboxRow) : Bool := row.state == .completed

abbrev Server (ω : Type) := Once.Server InboxKey InboxRow Uuid (Effect ω)

abbrev Tx (ω : Type) := Once.Tx InboxKey InboxRow (Effect ω)

/-- An execution is named by the lock token it draws, which is also its transaction. -/
structure Database (ω : Type) where
  clock : Nat
  server : Server ω
  advisory : Int → Option Uuid

/-- Where an execution is. -/
inductive Phase where
  | idle
  | opened (key : InboxKey) (began : Nat)
  | locked (key : InboxKey) (began : Nat)
  | body (key : InboxKey) (began : Nat) (aborted : Bool)
  | completing (key : InboxKey) (began : Nat) (aborted : Bool)
  | finalizing (key : InboxKey) (execution : TransactionalExecution)
  | committing (key : InboxKey) (execution : TransactionalExecution)
  | abandoned
  | done

/-- How a client loses its transaction. -/
inductive Interruption where
  | storage
  | join
  | crash

inductive CommitAnswer where
  | acknowledged
  | lost
  | failed

inductive Event (ω : Type) where
  | elapse (millis : Nat)
  | cleanup (keys : List InboxKey)
  | start (key : InboxKey) (admitted : Bool)
  | tryLock
  | claim
  | work (write : ω)
  | enqueue (recordId : Uuid) (message : OutboxMessage)
  | statementFails
  | finish (result : Except QueueHandlerError Unit)
  | complete
  | finalize
  | commit (answer : CommitAnswer)
  | interrupt (interruption : Interruption)
  | reap (commits : Bool)

/-- What an execution notes beside what happens to its transaction: that it found the
advisory lock taken, and its result. -/
inductive Note where
  | refused
  | returned (key : InboxKey) (result : Except QueueHandlerError TransactionalExecution)

abbrev Entry (ω : Type) := Once.Entry InboxKey Uuid (Effect ω) Note

def storageFailed : QueueHandlerError := .retryable "QUEUE_POSTGRES_STORAGE_FAILED"

section Execution

variable {ω : Type} (config : TransactionalInboxConfig) (advisoryKey : InboxKey → Int)

/-- What an interrupted execution returns to its caller, if it still has one. -/
def Interruption.entries (key : InboxKey) : Interruption → List (Entry ω)
  | .storage => [.noted (.returned key (.error storageFailed))]
  | .join =>
    [.noted (.returned key
      (.error (.retryable "QUEUE_POSTGRES_TRANSACTION_OWNER_JOIN_FAILED")))]
  | .crash => []

/-- Completed rows past their retention. -/
def expired (database : Database ω) (key : InboxKey) : Bool :=
  (database.server.docs key).any fun row =>
    row.finished && row.completedAt.any fun completed =>
      completed + config.inboxRetentionSecs * 1000 < database.clock

/-- Delete a batch of rows, each of them only if it is expired. -/
def cleanup (database : Database ω) : List InboxKey → Database ω × List (Entry ω)
  | [] => (database, [])
  | key :: keys =>
    if expired config database key then
      let rest := cleanup { database with server := database.server.remove key } keys
      (rest.1, .marked (.removed key) :: rest.2)
    else cleanup database keys

/-- The row a claim writes: a new one, or one whose lock has run out. -/
def claimedRow (token : Uuid) (began : Nat) : Option InboxRow → Option InboxRow
  | none => some ⟨.processing, token, began + config.inboxLockTimeoutMillis, none⟩
  | some row =>
    if row.state = .processing ∧ row.lockedUntil ≤ began then
      some { row with
        lockToken := token
        lockedUntil := began + config.inboxLockTimeoutMillis }
    else none

/-- What a claim that wrote nothing has found. -/
def unclaimed : Option InboxRow → TransactionalExecution
  | some row => if row.state = .completed then .alreadyCompleted else .inProgress
  | none => .inProgress

/-- The transaction and its advisory lock are gone. -/
def Database.rollback (database : Database ω) (token : Uuid) : Database ω :=
  { database with
    server := database.server.release token
    advisory := fun key => if database.advisory key = some token then none
      else database.advisory key }

def Database.commit (database : Database ω) (token : Uuid) (tx : Tx ω) : Database ω :=
  { database.rollback token with server := database.server.commit token tx }

/-- Roll back and return an error. -/
def failed (database : Database ω) (token : Uuid) (key : InboxKey) (error : QueueHandlerError) :
    Turn (Database ω) Phase (Entry ω) :=
  ⟨database.rollback token, .done, [.noted (.returned key (.error error))]⟩

def start (token : Uuid) (key : InboxKey) (admitted : Bool) (database : Database ω) :
    Turn (Database ω) Phase (Entry ω) :=
  if !key.isValid then
    ⟨database, .done,
      [.noted (.returned key (.error (.permanent "QUEUE_POSTGRES_INBOX_IDENTITY_INVALID")))]⟩
  else if !admitted then
    ⟨database, .done,
      [.noted (.returned key
        (.error (.retryable "QUEUE_POSTGRES_TRANSACTION_ADMISSION_CLOSED")))]⟩
  else
    ⟨{ database with server := database.server.begin token key }, .opened key database.clock, []⟩

/-- `pg_try_advisory_xact_lock`. -/
def tryLock (token : Uuid) (key : InboxKey) (began : Nat) (database : Database ω) :
    Turn (Database ω) Phase (Entry ω) :=
  match database.advisory (advisoryKey key) with
  | none =>
    ⟨{ database with
        advisory := Function.update database.advisory (advisoryKey key) (some token) },
      .locked key began, []⟩
  | some _ => ⟨database, .finalizing key .inProgress, [.noted .refused]⟩

def claim (token : Uuid) (key : InboxKey) (began : Nat) (tx : Tx ω) (database : Database ω) :
    Turn (Database ω) Phase (Entry ω) :=
  if i64Max < config.inboxLockTimeoutMillis then failed database token key storageFailed
  else if (database.server.writer key).isSome then ⟨database, .locked key began, []⟩
  else
    match claimedRow config token began (database.server.docs key) with
    | some row =>
      ⟨{ database with server := database.server.write token tx row }, .body key began false, []⟩
    | none => ⟨database, .finalizing key (unclaimed (database.server.docs key)), []⟩

/-- A statement of the handler, which the database refuses after an earlier error. -/
def perform (token : Uuid) (aborted : Bool) (effect : Effect ω)
    (tx : Tx ω) (phase : Phase) (database : Database ω) : Turn (Database ω) Phase (Entry ω) :=
  if aborted then ⟨database, phase, []⟩
  else
    ⟨{ database with server := database.server.perform token tx effect }, phase,
      [.marked (.performed token effect)]⟩

/-- `complete_inbox`: the row has to be in processing under the token of this claim. -/
def complete (token : Uuid) (key : InboxKey) (began : Nat) (aborted : Bool)
    (tx : Tx ω) (database : Database ω) : Turn (Database ω) Phase (Entry ω) :=
  match tx.doc with
  | some row =>
    if !aborted && row.state == .processing && row.lockToken == token then
      ⟨{ database with
          server := database.server.write token tx
            { row with state := .completed, completedAt := some began } },
        .finalizing key .applied, []⟩
    else failed database token key storageFailed
  | none => failed database token key storageFailed

def commit (token : Uuid) (key : InboxKey) (execution : TransactionalExecution)
    (tx : Tx ω) (answer : CommitAnswer) (database : Database ω) :
    Turn (Database ω) Phase (Entry ω) :=
  match answer with
  | .acknowledged =>
    ⟨database.commit token tx, .done,
      (tx.marks token).map .marked ++ [.noted (.returned key (.ok execution))]⟩
  | .lost =>
    ⟨database.commit token tx, .done,
      (tx.marks token).map .marked ++ [.noted (.returned key (.error storageFailed))]⟩
  | .failed => failed database token key storageFailed

/-- What becomes of a transaction whose client is gone. -/
def reap (token : Uuid) (commits : Bool) (tx : Tx ω)
    (database : Database ω) : Turn (Database ω) Phase (Entry ω) :=
  if commits && tx.requested then
    ⟨database.commit token tx, .done, (tx.marks token).map .marked⟩
  else ⟨database.rollback token, .done, []⟩

/-- The delivery an execution with an open transaction works on. -/
def Phase.key : Phase → Option InboxKey
  | .opened key _ | .locked key _ | .body key _ _ | .completing key _ _ | .finalizing key _
  | .committing key _ => some key
  | .idle | .abandoned | .done => none

def act (token : Uuid) (event : Event ω) (database : Database ω) (phase : Phase) :
    Turn (Database ω) Phase (Entry ω) :=
  match event, phase, database.server.live token with
  | .elapse millis, phase, _ =>
    ⟨{ database with clock := database.clock + millis }, phase, []⟩
  | .cleanup keys, phase, _ =>
    let result := cleanup config database (keys.take config.relayBatchSize)
    ⟨result.1, phase, result.2⟩
  | .start key admitted, .idle, _ => start token key admitted database
  | .tryLock, .opened key began, _ => tryLock advisoryKey token key began database
  | .claim, .locked key began, some tx => claim config token key began tx database
  | .work write, .body key began aborted, some tx =>
    perform token aborted (.work write) tx (.body key began aborted) database
  | .enqueue recordId message, .body key began aborted, some tx =>
    match enqueued config key recordId message with
    | .ok effect => perform token aborted effect tx (.body key began aborted) database
    | .error _ => ⟨database, .body key began aborted, []⟩
  | .statementFails, .body key began _, _ => ⟨database, .body key began true, []⟩
  | .finish (.ok ()), .body key began aborted, _ => ⟨database, .completing key began aborted, []⟩
  | .finish (.error error), .body key _ _, _ => failed database token key error
  | .complete, .completing key began aborted, some tx =>
    complete token key began aborted tx database
  | .finalize, .finalizing key execution, some tx =>
    ⟨{ database with server := database.server.request token tx }, .committing key execution, []⟩
  | .commit answer, .committing key execution, some tx =>
    commit token key execution tx answer database
  | .interrupt interruption, phase, some _ =>
    match phase.key with
    | some key => ⟨database, .abandoned, interruption.entries key⟩
    | none => ⟨database, phase, []⟩
  | .reap commits, .abandoned, some tx => reap token commits tx database
  | _, phase, _ => ⟨database, phase, []⟩

def executions : Machine Uuid (Database ω) Phase (Event ω) (Entry ω) :=
  ⟨act config advisoryKey⟩

end Execution

/-- The table may hold rows in processing, whoever left them there. -/
def initial {ω : Type} (processing : InboxKey → Option (Uuid × Nat)) :
    World Uuid (Database ω) Phase (Entry ω) where
  shared :=
    { clock := 0
      server :=
        { docs := fun key => (processing key).map fun lock => ⟨.processing, lock.1, lock.2, none⟩
          writer := fun _ => none
          live := fun _ => none
          begun := []
          effects := [] }
      advisory := fun _ => none }
  locals _ := .idle
  log := []

end Lily.Queue.Inbox.Postgresql
