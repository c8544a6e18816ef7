import Lily.Queue.Outbox.Relay

/-!
# The supervisor of the relay workers

All workers of a process share one ledger of counters, with one word that says in which
state the relay is. The tasks of the workers and the calls of the supervisor are the
components of one machine, and every access to the ledger is a move of its own: a worker
that degrades and a supervisor that drains may meet between any two of them.

What the stores and the broker answer, and when a wait is over, is chosen by the moves. The
deadlines of a shutdown are not in the model: a task may be interrupted, and a drain may time
out, whenever it waits. Transactional runtimes appear as the outcome of their own drain.
-/

namespace Lily.Queue.Outbox.Supervisor

open Transition

inductive OutboxRelayState where
  | starting
  | ready
  | degraded
  | draining
  | stopped
  | failed
  deriving DecidableEq

structure RelayLedger where
  registered : UInt64 := 0
  ready : UInt64 := 0
  inFlight : UInt64 := 0
  delivered : UInt64 := 0
  publishFailures : UInt64 := 0
  exhausted : UInt64 := 0
  uncertainAfterPublish : UInt64 := 0
  degradedWorkers : UInt64 := 0
  state : OutboxRelayState := .starting
  lastFailureCode : Option String := none

/-- What others see of a worker: its tokens, its handle, and how its task ended. -/
structure RelayWorker where
  key : String
  config : TransactionalInboxConfig
  admission : Bool := false
  force : Bool := false
  handle : Bool := false
  readySent : Bool := false
  ended : Bool := false
  terminalState : OutboxRelayState := .starting

structure OutboxRelaySupervisor where
  workers : List RelayWorker := []
  workersLocked : Bool := false
  started : Bool := false
  admissionStopped : Bool := false
  ledger : RelayLedger := {}
  terminalFailure : Option String := none

namespace OutboxRelaySupervisor

variable (s : OutboxRelaySupervisor) (f : RelayLedger → RelayLedger)

def worker? (key : String) : Option RelayWorker :=
  s.workers.find? fun worker => worker.key = key

def modify (key : String) (f : RelayWorker → RelayWorker) : OutboxRelaySupervisor :=
  { s with workers := s.workers.map fun worker => if worker.key = key then f worker else worker }

def onLedger : OutboxRelaySupervisor :=
  { s with ledger := f s.ledger }

end OutboxRelaySupervisor

/-- What happens to the state word, and what an observer is told about it. -/
inductive Entry where
  | failureRecorded
  | promoted
  | emptyStarted
  | draining
  | drained (succeeded : Bool)
  | readiness (answer : Bool)
  deriving DecidableEq

/-! ## Access to the ledger -/

/-- The counters that workers add to and subtract from. -/
inductive Counter where
  | ready
  | inFlight
  | delivered
  | publishFailures
  | exhausted
  | uncertainAfterPublish

def Counter.add (n : UInt64) : Counter → RelayLedger → RelayLedger
  | .ready, l => { l with ready := l.ready + n }
  | .inFlight, l => { l with inFlight := l.inFlight + n }
  | .delivered, l => { l with delivered := l.delivered + n }
  | .publishFailures, l => { l with publishFailures := l.publishFailures + n }
  | .exhausted, l => { l with exhausted := l.exhausted + n }
  | .uncertainAfterPublish, l => { l with uncertainAfterPublish := l.uncertainAfterPublish + n }

@[simp] theorem Counter.add_state (n : UInt64) (counter : Counter) (l : RelayLedger) :
    (counter.add n l).state = l.state := by
  cases counter <;> rfl

/-- Who asks for the ready state: a worker that starts, or one that recovered. -/
inductive Promotion where
  | workerReady
  | recovered

/-- The states that `fetch_update` replaces. -/
def Promotion.accepts : Promotion → OutboxRelayState → Bool
  | .workerReady, .starting | .workerReady, .ready => true
  | .recovered, .starting | .recovered, .ready | .recovered, .degraded => true
  | _, _ => false

def degradationStorage : UInt8 := 1
def degradationPublisher : UInt8 := 2

/-- One access of a worker to what it shares, or to its own `degradation`. -/
inductive Access where
  | setLastFailureCode (code : String)
  | storeDegraded
  | addDegradation (cause : UInt8)
  | addDegradedWorker
  | clearDegradation (cause : UInt8)
  | subDegradedWorker
  | recoverUnlessExhausted
  | unlessDegraded (promotion : Promotion)
  | unlessExhausted (promotion : Promotion)
  | promote (promotion : Promotion)
  | increment (counter : Counter)
  | decrement (counter : Counter)
  | storeExhausted (count : UInt64)
  | sendReady
  | terminalFailure (code : String)
  | setTerminalFailure (code : String)
  | setTerminalState (state : OutboxRelayState)
  | notifyEnded

variable (cause : UInt8) (code : String)

def recordFailure : List Access := [.setLastFailureCode code, .storeDegraded]

def degrade : List Access :=
  recordFailure code ++ [.addDegradation cause]

def degradeStorage : List Access := degrade degradationStorage code
def degradePublisher : List Access := degrade degradationPublisher code
def recoverStorage : List Access := [.clearDegradation degradationStorage]
def recoverPublisher : List Access := [.clearDegradation degradationPublisher]
def recordWorkerReady : List Access := [.unlessDegraded .workerReady]
def recordRecovered : List Access := [.unlessDegraded .recovered]

/-- Where the task of a worker is, between its accesses. -/
inductive Point where
  | unspawned
  | top
  | polling
  | claiming
  | counting
  | waiting
  | batch (records : List RelayRecord)
  | beginning (record : RelayRecord) (rest : List RelayRecord)
  | publishing (record : RelayRecord) (rest : List RelayRecord)
  | marking (record : RelayRecord) (rest : List RelayRecord)
  | recording (record : RelayRecord) (rest : List RelayRecord)
  | published (rest : List RelayRecord)
  | returned (failure : Option String)
  | finished

/-- A task: its own flags, the accesses it is about to make, and where it goes from there. -/
structure WorkerTask where
  degradation : UInt8 := 0
  pending : List Access := []
  point : Point := .unspawned

/-- What an access does: to the supervisor, to the flags, and which accesses it adds. -/
structure Outcome where
  supervisor : OutboxRelaySupervisor
  degradation : UInt8
  added : List Access := []
  entries : List Entry := []

def Access.perform (key : String) (s : OutboxRelaySupervisor) (degradation : UInt8) :
    Access → Outcome
  | .setLastFailureCode code =>
    { supervisor := s.onLedger fun l => { l with lastFailureCode := some code }, degradation }
  | .storeDegraded =>
    { supervisor := s.onLedger fun l => { l with state := .degraded }
      degradation
      entries := [.failureRecorded] }
  | .addDegradation cause =>
    { supervisor := s
      degradation := degradation ||| cause
      added := if degradation = 0 then [.addDegradedWorker] else [] }
  | .addDegradedWorker =>
    { supervisor := s.onLedger fun l => { l with degradedWorkers := l.degradedWorkers + 1 }
      degradation }
  | .clearDegradation cause =>
    { supervisor := s
      degradation := degradation &&& ~~~cause
      added :=
        if degradation &&& cause ≠ 0 ∧ degradation &&& ~~~cause = 0 then [.subDegradedWorker]
        else [] }
  | .subDegradedWorker =>
    { supervisor := s.onLedger fun l => { l with degradedWorkers := l.degradedWorkers - 1 }
      degradation
      added := if s.ledger.degradedWorkers = 1 then [.recoverUnlessExhausted] else [] }
  | .recoverUnlessExhausted =>
    { supervisor := s
      degradation
      added := if s.ledger.exhausted = 0 then recordRecovered else [] }
  | .unlessDegraded promotion =>
    { supervisor := s
      degradation
      added := if s.ledger.degradedWorkers ≠ 0 then [] else [.unlessExhausted promotion] }
  | .unlessExhausted promotion =>
    { supervisor := s
      degradation
      added := if s.ledger.exhausted ≠ 0 then [] else [.promote promotion] }
  | .promote promotion =>
    if promotion.accepts s.ledger.state then
      { supervisor := s.onLedger fun l => { l with state := .ready }
        degradation
        entries := [.promoted] }
    else { supervisor := s, degradation }
  | .increment counter => { supervisor := s.onLedger (counter.add 1), degradation }
  | .decrement counter => { supervisor := s.onLedger (counter.add (-1)), degradation }
  | .storeExhausted count =>
    { supervisor := s.onLedger fun l => { l with exhausted := count }, degradation }
  | .sendReady =>
    { supervisor := s.modify key fun worker => { worker with readySent := true }, degradation }
  | .terminalFailure code =>
    { supervisor := s
      degradation
      added := if degradation = 0 then degradeStorage code else recordFailure code }
  | .setTerminalFailure code =>
    { supervisor := { s with terminalFailure := some code }, degradation }
  | .setTerminalState state =>
    { supervisor := s.modify key fun worker => { worker with terminalState := state }
      degradation }
  | .notifyEnded =>
    { supervisor := s.modify key fun worker => { worker with ended := true }, degradation }

/-! ## The task of a worker -/

inductive Operation where
  | register (key : String) (config : TransactionalInboxConfig)
  | start
  | stopAdmission
  | requestForce
  | drain (force : Bool)
  | isReady

/-- What the environment chooses: the answers of stores and broker, the end of a wait, the
calls that are made. `tick` is for moves without a choice. -/
inductive Event where
  | tick
  | cleanup (answer : Except String Unit)
  | claim (answer : Except String (List RelayRecord))
  | count (answer : Except String UInt64)
  | begin (answer : Except String (Option Nat))
  | publish (outcome : PublishOutcome)
  | mark (answer : Except String Unit)
  | recordFailure (answer : Except String Unit)
  | elapsed
  | interrupt
  | panic
  | invoke (operation : Operation)
  | schema (answer : Except String Unit)
  | pick (key : String)
  | joined (runtimes : Except String Unit)
  | timeout

def outboxRecordTooLarge : String := "QUEUE_OUTBOX_RELAY_RECORD_TOO_LARGE"
def attemptsExhausted : String := "QUEUE_OUTBOX_RELAY_ATTEMPTS_EXHAUSTED"
def storageBoundViolation : String := "QUEUE_OUTBOX_RELAY_STORAGE_BOUND_VIOLATION"
def attemptContractViolation : String := "QUEUE_OUTBOX_RELAY_ATTEMPT_CONTRACT_VIOLATION"

/-- The accesses that a task makes next, and where it is then. -/
abbrev Plan := List Access × Point

/-- `run` returns: the guard of a ready worker is dropped. -/
def leave (failure : Option String) : Plan := ([.decrement .ready], .returned failure)

/-- `run` returns from within the loop over a batch. -/
def leaveBatch (failure : Option String) : Plan :=
  ([.decrement .inFlight, .decrement .ready], .returned failure)

def Plan.after (accesses : List Access) (plan : Plan) : Plan := (accesses ++ plan.1, plan.2)

variable (config : TransactionalInboxConfig) (record : RelayRecord) (rest : List RelayRecord)
  (answer : Except String Unit)

def afterClaim : Except String (List RelayRecord) → Plan
  | .error code =>
    if code = outboxRecordTooLarge then
      (leave (some outboxRecordTooLarge)).after (degradeStorage code)
    else (degradeStorage code, .waiting)
  | .ok [] => ([], .counting)
  | .ok records =>
    if config.relayBatchSize < records.length ∨
        config.relayMaxInFlightBytes < (records.map fun record => record.message.body.length).sum
    then (leave (some storageBoundViolation)).after (degradeStorage storageBoundViolation)
    else ([], .batch records)

def afterCount : Except String UInt64 → Plan
  | .error code => (degradeStorage code, .waiting)
  | .ok exhausted =>
    if exhausted = 0 then (.storeExhausted exhausted :: recoverStorage, .waiting)
    else
      (leave (some attemptsExhausted)).after
        (.storeExhausted exhausted :: degradeStorage attemptsExhausted)

def afterBegin : Except String (Option Nat) → Plan
  | .error code => (leaveBatch (some code)).after (degradeStorage code)
  | .ok none => ([.decrement .inFlight], .batch rest)
  | .ok (some attempt) =>
    if attempt = 0 ∨ config.relayMaxPublishAttempts < attempt then
      (leaveBatch (some attemptContractViolation)).after (degradeStorage attemptContractViolation)
    else ([], .publishing { record with publishAttempts := attempt } rest)

def afterPublish : PublishOutcome → Plan
  | .confirmed => ([], .marking record rest)
  | .failed code => (.increment .publishFailures :: degradePublisher code, .recording record rest)
  | .timedOut =>
    (.increment .publishFailures :: degradePublisher "QUEUE_OUTBOX_RELAY_PUBLISH_TIMEOUT",
      .recording record rest)

/-- A publish that was confirmed but not marked is counted as uncertain. -/
def afterMark : Except String Unit → Plan
  | .ok () => (.increment .delivered :: (recoverPublisher ++ recoverStorage), .published rest)
  | .error code =>
    if record.publishAttempts = config.relayMaxPublishAttempts then
      (leaveBatch (some attemptsExhausted)).after (degradeStorage code ++ recoverPublisher ++
        [.increment .exhausted, .increment .uncertainAfterPublish])
    else
      (degradeStorage code ++ recoverPublisher ++ [.increment .uncertainAfterPublish],
        .published rest)

def afterRecordFailure : Plan :=
  let recorded := match answer with
    | .error code => degradeStorage code
    | .ok () => recoverStorage
  if record.publishAttempts = config.relayMaxPublishAttempts then
    (leaveBatch (some attemptsExhausted)).after
      (recorded ++ .increment .exhausted :: degradePublisher attemptsExhausted)
  else (recorded, .published rest)

/-- The points at which a task waits, and the guards that are dropped if it is given up there. -/
def Point.guards : Point → Option (List Access)
  | .polling | .claiming | .counting | .waiting => some [.decrement .ready]
  | .beginning _ _ | .publishing _ _ | .recording _ _ =>
    some [.decrement .inFlight, .decrement .ready]
  | .marking _ _ =>
    some [.increment .uncertainAfterPublish, .decrement .inFlight, .decrement .ready]
  | _ => none

/-- What a task does next, if it can do anything. -/
def Point.next (worker : RelayWorker) : Event → Point → Option Plan
  | .tick, .unspawned =>
    if worker.handle then
      some (.setTerminalState .ready :: .increment .ready :: (recordWorkerReady ++ [.sendReady]),
        .top)
    else none
  | .tick, .top =>
    if worker.admission || worker.force then some (leave none) else some ([], .polling)
  | .cleanup (.ok ()), .polling => some ([], .claiming)
  | .cleanup (.error code), .polling => some (degradeStorage code, .claiming)
  | .claim answer, .polling | .claim answer, .claiming => some (afterClaim worker.config answer)
  | .count answer, .counting => some (afterCount answer)
  | .tick, .waiting => if worker.admission || worker.force then some (leave none) else none
  | .elapsed, .waiting =>
    if worker.admission || worker.force then some (leave none) else some ([], .top)
  | .tick, .batch [] => some ([], .top)
  | .tick, .batch (record :: rest) =>
    if worker.force then some ([], .top)
    else some ([.increment .inFlight], .beginning record rest)
  | .begin answer, .beginning record rest => some (afterBegin worker.config record rest answer)
  | .publish outcome, .publishing record rest => some (afterPublish record rest outcome)
  | .mark answer, .marking record rest => some (afterMark worker.config record rest answer)
  | .recordFailure answer, .recording record rest =>
    some (afterRecordFailure worker.config record rest answer)
  | .tick, .published rest =>
    some ([.decrement .inFlight], if worker.force then .top else .batch rest)
  | .tick, .returned none => some ([.setTerminalState .stopped, .notifyEnded], .finished)
  | .tick, .returned (some code) =>
    some ([.terminalFailure code, .setTerminalFailure code, .setTerminalState .failed,
      .notifyEnded], .finished)
  | .interrupt, point =>
    point.guards.map fun guards => (guards, .returned (some "QUEUE_OUTBOX_RELAY_INTERRUPTED"))
  | .panic, point =>
    point.guards.map fun guards => (guards, .returned (some "QUEUE_OUTBOX_RELAY_PANICKED"))
  | _, _ => none

def WorkerTask.act (key : String) (event : Event) (s : OutboxRelaySupervisor)
    (task : WorkerTask) : Turn OutboxRelaySupervisor WorkerTask Entry :=
  match task.pending with
  | access :: rest =>
    let outcome := access.perform key s task.degradation
    ⟨outcome.supervisor,
      { task with degradation := outcome.degradation, pending := outcome.added ++ rest },
      outcome.entries⟩
  | [] =>
    match (s.worker? key).bind fun worker => task.point.next worker event with
    | some plan => ⟨s, { task with pending := plan.1, point := plan.2 }, []⟩
    | none => ⟨s, task, []⟩

/-! ## The calls of the supervisor -/

/-- What follows after admission was stopped. -/
inductive After where
  | done
  | force
  | drain (force : Bool)

/-- Where a call is. Lists are the workers that a loop has not come to yet. -/
inductive Call where
  | returned (result : Except String Unit)
  | registering (key : String) (config : TransactionalInboxConfig)
  | preparing (key : String) (config : TransactionalInboxConfig)
  | locking (key : String) (config : TransactionalInboxConfig)
  | checking (key : String) (config : TransactionalInboxConfig)
  | inserting (key : String) (config : TransactionalInboxConfig)
  | counting (key : String)
  | inquiring (key : String)
  | starting
  | claimingStart
  | listingStart
  | startingWorkers (whole : Bool) (rest : List String)
  | awaiting (whole : Bool) (key : String) (rest : List String)
  | checkingEmpty
  | publishingReady
  | stopping (after : After)
  | listingStop (after : After)
  | publishingDraining (workers : List String) (after : After)
  | cancelling (rest : List String) (after : After)
  | listingForce (after : After)
  | forcing (rest : List String) (after : After)
  | listingDrain
  | joining (workers : List String)
  | publishingDrained (result : Except String Unit)
  | sampling
  | samplingReady (registered : UInt64)
  | samplingExhausted (registered ready : UInt64)
  | samplingState (registered ready exhausted : UInt64)

def admissionClosed : Except String Unit := .error "QUEUE_OUTBOX_RELAY_ADMISSION_CLOSED"

def Operation.enter : Operation → Call
  | .register key config => .registering key config
  | .start => .starting
  | .stopAdmission => .stopping .done
  | .requestForce => .stopping .force
  | .drain force => .stopping (.drain force)
  | .isReady => .sampling

/-- Where a call goes when admission has been stopped. -/
def After.enter : After → Call
  | .done => .returned (.ok ())
  | .force => .listingForce .done
  | .drain true => .listingForce (.drain true)
  | .drain false => .listingDrain

/-- Where a call goes when force has been requested. -/
def After.forced : After → Call
  | .drain _ => .listingDrain
  | _ => .returned (.ok ())

/-- The outcome of `reap`, for a task that has ended or was never spawned. -/
def OutboxRelaySupervisor.reap (s : OutboxRelaySupervisor) (worker : RelayWorker) :
    Except String Unit :=
  if worker.terminalState = .failed then
    .error (s.terminalFailure.getD "QUEUE_OUTBOX_RELAY_FAILED")
  else .ok ()

def RelayWorker.reapable (worker : RelayWorker) : Bool := !worker.handle || worker.ended

def firstError : List (Except String Unit) → Except String Unit
  | [] => .ok ()
  | .error code :: _ => .error code
  | .ok () :: rest => firstError rest

def Call.act (event : Event) (s : OutboxRelaySupervisor) (call : Call) :
    Turn OutboxRelaySupervisor Call Entry :=
  match event, call with
  | .invoke operation, .returned _ => ⟨s, operation.enter, []⟩
  -- register
  | .tick, .registering key config =>
    ⟨s, if s.admissionStopped then .returned admissionClosed else .preparing key config, []⟩
  | .schema (.error code), .preparing _ _ => ⟨s, .returned (.error code), []⟩
  | .schema (.ok ()), .preparing key config => ⟨s, .locking key config, []⟩
  | .tick, .locking key config =>
    if s.workersLocked then ⟨s, call, []⟩
    else ⟨{ s with workersLocked := true }, .checking key config, []⟩
  | .tick, .checking key config =>
    if s.admissionStopped then ⟨{ s with workersLocked := false }, .returned admissionClosed, []⟩
    else ⟨s, .inserting key config, []⟩
  | .tick, .inserting key config =>
    match s.worker? key with
    | some existing =>
      ⟨{ s with workersLocked := false },
        .returned (if existing.config ≠ config then .error "QUEUE_OUTBOX_RELAY_POLICY_CONFLICT"
          else .ok ()), []⟩
    | none => ⟨{ s with workers := s.workers ++ [{ key, config }] }, .counting key, []⟩
  | .tick, .counting key =>
    ⟨s.onLedger fun l => { l with registered := l.registered + 1 }, .inquiring key, []⟩
  | .tick, .inquiring key =>
    ⟨{ s with workersLocked := false },
      if s.started then .startingWorkers false [key] else .returned (.ok ()), []⟩
  -- start
  | .tick, .starting =>
    ⟨s, if s.admissionStopped then .returned admissionClosed else .claimingStart, []⟩
  | .tick, .claimingStart =>
    ⟨{ s with started := true }, if s.started then .returned (.ok ()) else .listingStart, []⟩
  | .tick, .listingStart =>
    if s.workersLocked then ⟨s, call, []⟩
    else ⟨s, .startingWorkers true (s.workers.map RelayWorker.key), []⟩
  | .pick key, .startingWorkers whole rest =>
    if key ∉ rest then ⟨s, call, []⟩
    else
      match s.worker? key with
      | none => ⟨s, call, []⟩
      | some worker =>
        if worker.handle then ⟨s, .startingWorkers whole (rest.erase key), []⟩
        else if worker.admission then
          ⟨s.modify key fun worker => { worker with terminalState := .stopped },
            .startingWorkers whole (rest.erase key), []⟩
        else
          ⟨s.modify key fun worker => { worker with handle := true },
            .awaiting whole key (rest.erase key), []⟩
  | .tick, .awaiting whole key rest =>
    match s.worker? key with
    | none => ⟨s, call, []⟩
    | some worker =>
      if worker.readySent then ⟨s, .startingWorkers whole rest, []⟩
      else if worker.ended then ⟨s, .returned (.error "QUEUE_OUTBOX_RELAY_START_FAILED"), []⟩
      else ⟨s, call, []⟩
  | .tick, .startingWorkers whole [] =>
    ⟨s, if whole then .checkingEmpty else .returned (.ok ()), []⟩
  | .tick, .checkingEmpty =>
    ⟨s, if s.ledger.registered = 0 then .publishingReady else .returned (.ok ()), []⟩
  | .tick, .publishingReady =>
    ⟨s.onLedger fun l => { l with state := .ready }, .returned (.ok ()), [.emptyStarted]⟩
  -- stop_admission
  | .tick, .stopping after =>
    ⟨{ s with admissionStopped := true },
      if s.admissionStopped then after.enter else .listingStop after, []⟩
  | .tick, .listingStop after =>
    if s.workersLocked then ⟨s, call, []⟩
    else ⟨s, .publishingDraining (s.workers.map RelayWorker.key) after, []⟩
  | .tick, .publishingDraining workers after =>
    ⟨s.onLedger fun l => { l with state := .draining }, .cancelling workers after, [.draining]⟩
  | .tick, .cancelling [] after => ⟨s, after.enter, []⟩
  | .tick, .cancelling (key :: rest) after =>
    ⟨s.modify key fun worker => { worker with admission := true }, .cancelling rest after, []⟩
  -- request_force
  | .tick, .listingForce after =>
    if s.workersLocked then ⟨s, call, []⟩
    else ⟨s, .forcing (s.workers.map RelayWorker.key) after, []⟩
  | .tick, .forcing [] after => ⟨s, after.forced, []⟩
  | .tick, .forcing (key :: rest) after =>
    ⟨s.modify key fun worker => { worker with admission := true, force := true },
      .forcing rest after, []⟩
  -- drain_before
  | .tick, .listingDrain =>
    if s.workersLocked then ⟨s, call, []⟩
    else ⟨s, .joining (s.workers.map RelayWorker.key), []⟩
  | .joined runtimes, .joining workers =>
    let reaped := workers.filterMap s.worker?
    if reaped.all RelayWorker.reapable then
      ⟨s, .publishingDrained (firstError (reaped.map s.reap ++ [runtimes])), []⟩
    else ⟨s, call, []⟩
  | .timeout, .joining _ => ⟨s, .returned (.error "transactional outbox drain"), []⟩
  | .tick, .publishingDrained result =>
    ⟨s.onLedger fun l => { l with state := if result.isOk then .stopped else .failed },
      .returned result, [.drained result.isOk]⟩
  -- is_ready, with one load at a time
  | .tick, .sampling => ⟨s, .samplingReady s.ledger.registered, []⟩
  | .tick, .samplingReady registered => ⟨s, .samplingExhausted registered s.ledger.ready, []⟩
  | .tick, .samplingExhausted registered ready =>
    ⟨s, .samplingState registered ready s.ledger.exhausted, []⟩
  | .tick, .samplingState registered ready exhausted =>
    ⟨s, .returned (.ok ()),
      [.readiness (exhausted == 0 && s.ledger.state == .ready && registered == ready)]⟩
  | _, call => ⟨s, call, []⟩

/-! ## The machine -/

inductive Component where
  | worker (key : String)
  | call (id : Nat)
  deriving DecidableEq

/-- What a component is doing. -/
inductive Local where
  | worker (task : WorkerTask)
  | call (call : Call)

def act : Component → Event → OutboxRelaySupervisor → Local →
    Turn OutboxRelaySupervisor Local Entry
  | .worker key, event, s, .worker task =>
    let turn := task.act key event s
    ⟨turn.shared, .worker turn.own, turn.emitted⟩
  | .call _, event, s, .call call =>
    let turn := call.act event s
    ⟨turn.shared, .call turn.own, turn.emitted⟩
  | _, _, s, own => ⟨s, own, []⟩

def relays : Machine Component OutboxRelaySupervisor Local Event Entry := ⟨act⟩

/-- A new supervisor: no worker has been registered, and no call been made. -/
def initial : World Component OutboxRelaySupervisor Local Entry where
  shared := {}
  locals
    | .worker _ => .worker {}
    | .call _ => .call (.returned (.ok ()))
  log := []

end Lily.Queue.Outbox.Supervisor
