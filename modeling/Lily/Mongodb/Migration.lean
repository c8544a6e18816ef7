import Lily.Config.Topology.Definition
import Lily.Control.Validation
import Lily.Transition.Reactive
import Mathlib.Data.List.Sort

/-!
# Migrations of a MongoDB schema under a lease

Any number of runners apply the plan of their namespace to one database. A runner is one call of
`apply`: it takes the lease of its namespace, reads the history once, and then for each migration
that is missing runs the steps and writes the history row, with statements in between that renew the
lease. A heartbeat renews it at the same time.

Each statement is one move of the server. A call that fails, is cancelled or crashes may leave its
statement in flight; it is then kept with the orphans, which reach the server at any later time or
never.
-/

namespace Lily.Mongodb.Migration

open Transition Validation

def maxMigrations : Nat := 1000
def maxStepsPerMigration : Nat := 1000
def lockLeaseMillis : Nat := 360000

inductive MongoRepositoryError where
  | invalidConfiguration (message : String)
  | migrationLockUnavailable
  | migrationLockLost
  | migrationHistoryDiverged (version : Int)
  | migrationChecksumMismatch (version : Int)
  | duplicateKey
  | bson
  | operation (message : String)
  deriving DecidableEq

/-! ## Plans -/

inductive MongoMigrationStep where
  | ensureCollection (name : String)
  | ensureIndex (collection name : String) (keys : List (String × String)) (unique : Bool)
  | runCommand (command : String)
  deriving DecidableEq

structure MongoMigration where
  version : Int
  name : String
  steps : List MongoMigrationStep
  deriving DecidableEq

def validateMigration (migration : MongoMigration) : Except MongoRepositoryError Unit := do
  ensure (0 < migration.version)
    (.invalidConfiguration "MongoDB migration version must be positive")
  ensure (!(Config.trim migration.name.toList).isEmpty && migration.name.utf8ByteSize ≤ 128)
    (.invalidConfiguration "MongoDB migration name must contain 1 to 128 characters")
  ensure (!migration.steps.isEmpty && migration.steps.length ≤ maxStepsPerMigration)
    (.invalidConfiguration "MongoDB migration must contain between 1 and 1000 steps")

def validatePlan (migrations : List MongoMigration) : Except MongoRepositoryError Unit := do
  ensure (migrations.length ≤ maxMigrations)
    (.invalidConfiguration "MongoDB migration plan exceeds the supported bound")
  let _ ← migrations.foldlM (fun previous migration => do
    validateMigration migration
    ensure (previous < migration.version)
      (.invalidConfiguration "MongoDB migration versions must be unique and strictly increasing")
    return migration.version) 0

inductive MigrationNamespace where
  | legacyApplication
  | component (name : String)
  deriving DecidableEq

inductive RowId where
  | version (version : Int)
  | compound (component : String) (version : Int)
  deriving DecidableEq

structure Row where
  id : RowId
  component : Option String
  version : Int
  name : String
  checksum : String

namespace MigrationNamespace

def lockId : MigrationNamespace → String
  | legacyApplication => "global"
  | component name => "component:" ++ name

def historyFilter : MigrationNamespace → Row → Bool
  | legacyApplication, row => row.component.isNone
  | component name, row => row.component == some name

def applyHistoryIdentity (version : Int) : MigrationNamespace → RowId × Option String
  | legacyApplication => (.version version, none)
  | component name => (.compound name version, some name)

end MigrationNamespace

/-- What the runners are given: the plan of each namespace, and the namespace of each runner. The
digest of a migration is the hash function's to say, and may fail. -/
structure Deployment where
  plan : MigrationNamespace → List MongoMigration
  valid : ∀ space, validatePlan (plan space) = .ok ()
  space : Nat → MigrationNamespace
  checksum : MongoMigration → Option String

variable (d : Deployment)

def Deployment.historyRow (space : MigrationNamespace) (migration : MongoMigration) : Option Row :=
  (d.checksum migration).map fun checksum =>
    ⟨(space.applyHistoryIdentity migration.version).1,
      (space.applyHistoryIdentity migration.version).2, migration.version, migration.name, checksum⟩

/-! ## Runners -/

/-- What a runner waits for. A step is one call for the runner and may take the server any time, so
its start and its end are apart; the start is the runner's own. -/
inductive Statement where
  | acquireLock
  | renewLock
  | releaseLock
  | find
  | beginStep (migration : MongoMigration) (step : MongoMigrationStep)
  | endStep (migration : MongoMigration) (step : MongoMigrationStep)
  | insertOne (migration : MongoMigration)

structure MongoMigrationReport where
  previouslyApplied : Nat
  newlyApplied : List Int

/-- Where a runner is. -/
inductive Phase where
  | idle
  | acquiring
  | reading
  | working (todo : List Statement) (report : MongoMigrationReport)
  | failed (error : MongoRepositoryError)
  | releasing (result : Except MongoRepositoryError MongoMigrationReport)
  | done (result : Except MongoRepositoryError MongoMigrationReport)
  | crashed

inductive Heartbeat where
  | off
  | sleeping
  | renewing
  | failed (error : MongoRepositoryError)

/-- A process that applies migrations, with the task that renews its lock. -/
structure Runner where
  phase : Phase := .idle
  heartbeat : Heartbeat := .off

/-- The statements of the two loops of `apply_locked`, in order. -/
def statements (migrations : List MongoMigration) : List Statement :=
  migrations.flatMap fun migration =>
    (migration.steps.flatMap fun step =>
      [.renewLock, .beginStep migration step, .endStep migration step, .renewLock]) ++
    [.renewLock, .insertOne migration]

/-- The rows are compared in the order of their versions. -/
def Deployment.checkHistory (i : Nat) (rows : List Row) : Except MongoRepositoryError Unit := do
  ensure (rows.length ≤ maxMigrations)
    (.invalidConfiguration "MongoDB migration history exceeds the supported bound")
  (rows.insertionSort fun a b => a.version ≤ b.version).forM fun row =>
    match (d.plan (d.space i)).find? (·.version == row.version) with
    | none => .error (.migrationHistoryDiverged row.version)
    | some migration =>
      match d.checksum migration with
      | none => .error .bson
      | some checksum =>
        ensure (checksum = row.checksum) (.migrationChecksumMismatch row.version)

def Deployment.pending (i : Nat) (rows : List Row) : List MongoMigration :=
  (d.plan (d.space i)).filter fun migration => !(rows.map Row.version).contains migration.version

def Phase.statement : Phase → Option Statement
  | acquiring => some .acquireLock
  | reading => some .find
  | working (statement :: _) _ => some statement
  | releasing _ => some .releaseLock
  | _ => none

/-- Where a call goes on with what it waited for. -/
def Phase.next (i : Nat) : Phase → Except MongoRepositoryError (List Row) → Phase
  | acquiring, .ok _ => reading
  | acquiring, .error error => done (.error error)
  | reading, .ok rows =>
    match d.checkHistory i rows with
    | .ok () => working (statements (d.pending i rows)) ⟨rows.length, []⟩
    | .error error => failed error
  | reading, .error error => failed error
  | working (.insertOne migration :: todo) report, .ok _ =>
    working todo { report with newlyApplied := report.newlyApplied ++ [migration.version] }
  | working (_ :: todo) report, .ok _ => working todo report
  | working _ _, .error error => failed error
  | releasing result, .ok _ => done result
  | releasing (.ok _), .error error => done (.error error)
  | releasing (.error error), .error _ => done (.error error)
  | phase, _ => phase

/-! ## The database -/

structure Lease where
  owner : Nat
  leaseUntil : Nat

/-- `now` is the server's clock. `renewedAt` is not part of the program: it is when a runner last
took or renewed its lease, and nothing once the lease was released. -/
structure Database where
  now : Nat := 0
  locks : String → Option Lease := fun _ => none
  history : List Row := []
  renewedAt : Nat → Option Nat := fun _ => none

/-- Steps that have run, and rows that were written. -/
inductive Action where
  | stepDone (i : Nat) (migration : MongoMigration) (step : MongoMigrationStep)
  | recorded (i : Nat) (migration : MongoMigration)
  deriving DecidableEq

namespace Database

variable (i : Nat) (lease : Option Lease) (b : Database)

def rows (space : MigrationNamespace) : List Row :=
  b.history.filter space.historyFilter

def lock (space : MigrationNamespace) : Option Lease := b.locks space.lockId

def setLock : Database :=
  { b with
    locks := Function.update b.locks (d.space i).lockId lease
    renewedAt := Function.update b.renewedAt i (lease.map fun _ => b.now) }

def canAcquire : Bool :=
  match b.lock (d.space i) with
  | none => true
  | some lease => lease.leaseUntil ≤ b.now || lease.owner == i

/-- The server's own move, with what it logs and answers. -/
def execute (statement : Statement) (b : Database) :
    Database × List Action × Except MongoRepositoryError (List Row) :=
  match statement with
  | .acquireLock =>
    if b.canAcquire d i then (b.setLock d i (some ⟨i, b.now + lockLeaseMillis⟩), [], .ok [])
    else (b, [], .error .migrationLockUnavailable)
  | .renewLock =>
    match b.lock (d.space i) with
    | some lease =>
      if lease.owner = i ∧ b.now < lease.leaseUntil then
        (b.setLock d i (some ⟨i, b.now + lockLeaseMillis⟩), [], .ok [])
      else (b, [], .error .migrationLockLost)
    | none => (b, [], .error .migrationLockLost)
  | .releaseLock =>
    match b.lock (d.space i) with
    | some lease =>
      if lease.owner = i then (b.setLock d i none, [], .ok [])
      else (b, [], .error .migrationLockLost)
    | none => (b, [], .error .migrationLockLost)
  | .find => (b, [], .ok (b.rows (d.space i)))
  | .beginStep _ _ | .endStep _ _ => (b, [], .ok [])
  | .insertOne migration =>
    match d.historyRow (d.space i) migration with
    | none => (b, [], .error .bson)
    | some row =>
      if b.history.any (·.id == row.id) then (b, [], .error .duplicateKey)
      else ({ b with history := b.history ++ [row] }, [.recorded i migration], .ok [])

end Database

/-- Orphans are statements sent by runners that no longer wait for them. -/
structure State where
  database : Database := {}
  runners : Nat → Runner := fun _ => {}
  orphans : List (Nat × Statement) := []

/-! ## Moves -/

inductive Event where
  | tick (millis : Nat)
  | start (i : Nat)
  | reply (i : Nat)
  | fail (i : Nat) (error : MongoRepositoryError)
  | wake (i : Nat)
  | beat (i : Nat)
  | beatFail (i : Nat) (error : MongoRepositoryError)
  | notice (i : Nat)
  | stop (i : Nat)
  | crash (i : Nat)
  | land (k : Nat)

namespace State

variable (i : Nat) (error : MongoRepositoryError) (s : State)

def setPhase (phase : Phase) (s : State) : State :=
  { s with runners := Function.update s.runners i { s.runners i with phase } }

def setHeartbeat (heartbeat : Heartbeat) (s : State) : State :=
  { s with runners := Function.update s.runners i { s.runners i with heartbeat } }

/-- A call stops waiting for its statement; a step that has not begun never will. -/
def orphan : State :=
  match (s.runners i).phase.statement with
  | none | some (.beginStep _ _) => s
  | some statement => { s with orphans := s.orphans ++ [(i, statement)] }

/-- The same for the heartbeat. -/
def orphanBeat : State :=
  match (s.runners i).heartbeat with
  | .renewing => { s with orphans := s.orphans ++ [(i, .renewLock)] }
  | _ => s

def start : State :=
  match (s.runners i).phase with
  | .idle => s.setPhase i .acquiring
  | _ => s

def stepsDone : Statement → List Action
  | .endStep migration step => [.stepDone i migration step]
  | _ => []

/-- The heartbeat starts with the lease. -/
def answered (statement : Statement) (result : Except MongoRepositoryError (List Row))
    (s : State) : State :=
  match statement, result with
  | .acquireLock, .ok _ =>
    (s.setPhase i ((s.runners i).phase.next d i result)).setHeartbeat i .sleeping
  | _, _ => s.setPhase i ((s.runners i).phase.next d i result)

/-- The statement that a call waits for is executed and its answer arrives. -/
def reply : State × List Action :=
  match (s.runners i).phase.statement with
  | none => (s, [])
  | some statement =>
    ({ s with database := (s.database.execute d i statement).1 }.answered d i statement
        (s.database.execute d i statement).2.2,
      (s.database.execute d i statement).2.1 ++ stepsDone i statement)

/-- The call gets an error or is cancelled, whatever becomes of its statement. -/
def fail : State :=
  (s.orphan i).setPhase i ((s.runners i).phase.next d i (.error error))

def wake : State :=
  match (s.runners i).heartbeat with
  | .sleeping => s.setHeartbeat i .renewing
  | _ => s

def beat : State :=
  match (s.runners i).heartbeat with
  | .renewing =>
    { s with database := (s.database.execute d i .renewLock).1 }.setHeartbeat i
      (match (s.database.execute d i .renewLock).2.2 with
        | .ok _ => .sleeping
        | .error error => .failed error)
  | _ => s

def beatFail : State :=
  match (s.runners i).heartbeat with
  | .renewing => (s.orphanBeat i).setHeartbeat i (.failed error)
  | _ => s

/-- The heartbeat's end is seen before anything of `apply_locked`. -/
def notice : State :=
  match (s.runners i).heartbeat, (s.runners i).phase with
  | .failed error, .reading | .failed error, .working _ _ =>
    ((s.orphan i).setPhase i (.releasing (.error error))).setHeartbeat i .off
  | _, _ => s

/-- `apply_locked` has returned: the heartbeat is stopped, and its error counts if there is no
other. -/
def stop : State :=
  match (s.runners i).phase, (s.runners i).heartbeat with
  | .working [] _, .failed error =>
    (s.setPhase i (.releasing (.error error))).setHeartbeat i .off
  | .working [] report, _ =>
    ((s.setPhase i (.releasing (.ok report))).orphanBeat i).setHeartbeat i .off
  | .failed error, _ =>
    ((s.setPhase i (.releasing (.error error))).orphanBeat i).setHeartbeat i .off
  | _, _ => s

def crash : State :=
  (((s.orphan i).setPhase i .crashed).orphanBeat i).setHeartbeat i .off

def land (k : Nat) (s : State) : State × List Action :=
  match s.orphans[k]? with
  | none => (s, [])
  | some (i, statement) =>
    ({ s with
        database := (s.database.execute d i statement).1
        orphans := s.orphans.eraseIdx k },
      (s.database.execute d i statement).2.1)

end State

def act : Event → State → State × List Action
  | .tick millis, s =>
    ({ s with database := { s.database with now := s.database.now + millis } }, [])
  | .start i, s => (s.start i, [])
  | .reply i, s => s.reply d i
  | .fail i error, s => (s.fail d i error, [])
  | .wake i, s => (s.wake i, [])
  | .beat i, s => (s.beat d i, [])
  | .beatFail i error, s => (s.beatFail i error, [])
  | .notice i, s => (s.notice i, [])
  | .stop i, s => (s.stop i, [])
  | .crash i, s => (s.crash i, [])
  | .land k, s => s.land d k

def system : Reactive State Event Action := ⟨act d⟩

end Lily.Mongodb.Migration
