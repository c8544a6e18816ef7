import Lily.Transition.Interleaving
import Lily.Queue.Settlement.Plan

/-!
# Materializing one delivery outcome

`materialize_delivery` and `materialize_broker_dead_letter` are asynchronous
functions with two kinds of suspension: the handoff and the settlement of the
original delivery. A materializer is modelled by the suspension it has reached
(`Phase`) and by what each poll makes of it. The future may be dropped wherever
it is suspended, and the lease it holds is then dropped with it.

Everything that another party can see is emitted as an `Action`: the claim of the
authority, the broker operations that were started, the provider's positive
answers, and the notifications of the observer.

An operation is started when its future is polled for the first time. A cancelled
token and an expired deadline are both noticed before that poll.
-/

namespace Lily.Queue.Settlement

inductive SettlementTerminal where
  | ackedSuccess
  | ackedRetry
  | ackedDeadLetter
  | nackRequeue
  | nackDeadLetter
  | unresolved
  deriving DecidableEq

inductive SettlementOperation where
  | handoff
  | ack
  | nackRequeue
  | nackDeadLetter
  deriving DecidableEq

inductive SettlementFailureKind where
  | adapterError
  | declined
  | panicked
  | timedOut
  | cancelled
  | receiptMismatch
  | authorityConsumed
  deriving DecidableEq

/-- `E` is the provider's error type. -/
structure SettlementFailure (E : Type) where
  kind : SettlementFailureKind
  operation : Option SettlementOperation
  source : Option E
  deriving DecidableEq

def SettlementFailure.adapter (operation : SettlementOperation) (source : E) :
    SettlementFailure E :=
  ⟨.adapterError, some operation, some source⟩

def SettlementFailure.classified (kind : SettlementFailureKind)
    (operation : Option SettlementOperation) : SettlementFailure E :=
  ⟨kind, operation, none⟩

/-- `observerFailure` stands for the optional marker without content. -/
structure SettlementReport (E : Type) where
  terminal : SettlementTerminal
  failure : Option (SettlementFailure E)
  secondaryFailure : Option (SettlementFailure E)
  observerFailure : Bool
  confirmedHandoff : Option HandoffReceipt
  deriving DecidableEq

/-! ## Observers -/

/-- How a callback of the observer ended. -/
inductive ObserverReply where
  | ok
  | failed
  | panicked
  deriving DecidableEq

/-- An observer with state `O`. A callback that fails or panics may have changed the
state already. -/
structure SettlementObserver (O : Type) where
  handoffConfirmed : O → HandoffReceipt → O × ObserverReply
  terminal : O → SettlementTerminal → O × ObserverReply

inductive Notification where
  | handoffConfirmed (receipt : HandoffReceipt)
  | terminal (terminal : SettlementTerminal)
  deriving DecidableEq

/-- What a materializer does that others can see. -/
inductive Action where
  | claimed
  | issued (operation : SettlementOperation)
  | received (receipt : HandoffReceipt)
  | accepted (operation : SettlementOperation)
  | observed (notification : Notification)
  deriving DecidableEq

/-! ## The lease -/

inductive SettlementAuthority where
  | available
  | consumed
  deriving DecidableEq

inductive LeaseState where
  | pending
  | originalSettlementStarted (operation : SettlementOperation)
  | terminal (terminal : SettlementTerminal)
  deriving DecidableEq

structure SettlementLease (O : Type) where
  observer : O
  state : LeaseState
  observerFailure : Bool
  confirmedHandoff : Option HandoffReceipt

namespace SettlementLease

variable (observer : SettlementObserver O)

/-- The lease of a successful claim. -/
def fresh (state : O) : SettlementLease O := ⟨state, .pending, false, none⟩

variable (lease : SettlementLease O) (terminal : SettlementTerminal)

/-- The unwinding of a panicking callback is caught, and is a failure like any other. -/
def record (result : O × ObserverReply) : SettlementLease O :=
  { lease with
    observer := result.1
    observerFailure := lease.observerFailure || decide (result.2 ≠ .ok) }

def observeHandoff (receipt : HandoffReceipt) : SettlementLease O :=
  lease.record (observer.handoffConfirmed lease.observer receipt)

def observeTerminal : SettlementLease O :=
  lease.record (observer.terminal lease.observer terminal)

def confirmHandoff (receipt : HandoffReceipt) : SettlementLease O × List Action :=
  (observeHandoff observer { lease with confirmedHandoff := some receipt } receipt,
    [.observed (.handoffConfirmed receipt)])

def beginOriginal (lease : SettlementLease O) (operation : SettlementOperation) :
    Except (SettlementFailure E) (SettlementLease O) :=
  if lease.state ≠ .pending then
    .error (.classified .authorityConsumed (some operation))
  else .ok { lease with state := .originalSettlementStarted operation }

def isTerminal : Bool :=
  match lease.state with
  | .terminal _ => true
  | _ => false

def finish : SettlementLease O × List Action :=
  if lease.isTerminal then (lease, [])
  else (observeTerminal observer { lease with state := .terminal terminal } terminal,
    [.observed (.terminal terminal)])

/-- The destructor of the lease does what `finish` does with an unresolved terminal. -/
def drop : SettlementLease O × List Action :=
  finish observer lease .unresolved

end SettlementLease

/-! ## Suspension points -/

/-- The call of `original_settlement` that is suspended, with the values its caller
still needs. -/
inductive CallSite (E : Type) where
  | requeueDeferred
  | success
  | handoffFailed (failure : SettlementFailure E)
  | handoffConfirmed (receipt : HandoffReceipt)
  | brokerDeadLetter

def CallSite.operation : CallSite E → SettlementOperation
  | .requeueDeferred => .nackRequeue
  | .success => .ack
  | .handoffFailed _ => .nackRequeue
  | .handoffConfirmed _ => .ack
  | .brokerDeadLetter => .nackDeadLetter

/-- `issued` says whether the awaited operation has been polled. -/
inductive Phase (O E : Type) where
  | created (observer : O)
  | claimed (lease : SettlementLease O)
  | handoff (lease : SettlementLease O) (plan : HandoffPlan) (issued : Bool)
  | original (lease : SettlementLease O) (site : CallSite E) (issued : Bool)
  | returned (observer : O) (report : SettlementReport E)
  | dropped (observer : O)

/-- The work a materializer was created for. -/
inductive Job where
  | delivery (outcome : ExecutionOutcome) (currentRetryCount retryAttempts : Nat)
  | brokerDeadLetter

/-- What one poll of a bounded operation meets after the cancellation check:
the deadline is compared before the operation is polled, and the timer after. -/
inductive Poll (T E : Type) where
  | deadlinePassed
  | pending
  | elapsed
  | value (value : T)
  | error (source : E)
  | panicked

def Poll.reaches : Poll T E → Bool
  | .deadlinePassed => false
  | _ => true

/-- One poll of `bounded_operation`; `none` is a suspension. -/
def boundedOperation (operation : SettlementOperation) (cancelled : Bool) (poll : Poll T E) :
    Option (Except (SettlementFailure E) T) :=
  if cancelled then some (.error (.classified .cancelled (some operation)))
  else
    match poll with
    | .pending => none
    | .value value => some (.ok value)
    | .error source => some (.error (.adapter operation source))
    | .panicked => some (.error (.classified .panicked (some operation)))
    | .deadlinePassed | .elapsed => some (.error (.classified .timedOut (some operation)))

/-- The start of an operation is visible once. -/
def issue (operation : SettlementOperation) (cancelled issued : Bool) (poll : Poll T E) :
    List Action :=
  if !issued && !cancelled && poll.reaches then [.issued operation] else []

/-- The operation has been polled by now. -/
def nowIssued (cancelled issued : Bool) (poll : Poll T E) : Bool :=
  issued || (!cancelled && poll.reaches)

/-- An operation that was declined is a failure of its own kind. -/
def acceptance (operation : SettlementOperation) :
    Except (SettlementFailure E) Bool → Except (SettlementFailure E) Unit
  | .ok true => .ok ()
  | .ok false => .error (.classified .declined (some operation))
  | .error failure => .error failure

section Program

variable (observer : SettlementObserver O)

/-- The report consumes the lease; its destructor then finds a terminal state. -/
def report (lease : SettlementLease O) (terminal : SettlementTerminal)
    (failure secondaryFailure : Option (SettlementFailure E)) : Phase O E × List Action :=
  let (lease, emitted) := lease.finish observer terminal
  (.returned lease.observer
    { terminal, failure, secondaryFailure
      observerFailure := lease.observerFailure
      confirmedHandoff := lease.confirmedHandoff },
    emitted)

/-- The report of each caller of `original_settlement`. -/
def conclude (lease : SettlementLease O) :
    CallSite E → Except (SettlementFailure E) Unit → Phase O E × List Action
  | .requeueDeferred, .ok () => report observer lease .nackRequeue none none
  | .success, .ok () => report observer lease .ackedSuccess none none
  | .handoffFailed failure, .ok () => report observer lease .nackRequeue (some failure) none
  | .handoffConfirmed .retryConfirmed, .ok () => report observer lease .ackedRetry none none
  | .handoffConfirmed .deadLetterConfirmed, .ok () =>
    report observer lease .ackedDeadLetter none none
  | .brokerDeadLetter, .ok () => report observer lease .nackDeadLetter none none
  | .handoffFailed failure, .error nackFailure =>
    report observer lease .unresolved (some failure) (some nackFailure)
  | _, .error failure => report observer lease .unresolved (some failure) none

/-- `original_settlement` up to its suspension. -/
def originalSettlement (lease : SettlementLease O) (site : CallSite E) : Phase O E × List Action :=
  match lease.beginOriginal site.operation with
  | .error failure => conclude observer lease site (.error failure)
  | .ok lease => (.original lease site false, [])

/-- From the claim to the first suspension. -/
def proceed (job : Job) (cancelled : Bool) (lease : SettlementLease O) : Phase O E × List Action :=
  match job with
  | .delivery outcome currentRetryCount retryAttempts =>
    if outcome = .frameworkCancelled ∨ cancelled = true then
      report observer lease .unresolved (some (.classified .cancelled none)) none
    else
      match outcome with
      | .requeueDeferred _ => originalSettlement observer lease .requeueDeferred
      | .failure failureClass code =>
        (.handoff lease
          (.forFailure failureClass code currentRetryCount retryAttempts) false, [])
      | _ => originalSettlement observer lease .success
  | .brokerDeadLetter =>
    if cancelled then
      report observer lease .unresolved (some (.classified .cancelled none)) none
    else originalSettlement observer lease .brokerDeadLetter

/-- What follows the handoff. A failure that leaves the delivery untouched is
answered by a requeue; a cancelled handoff is not. -/
def afterHandoff (lease : SettlementLease O) (plan : HandoffPlan) :
    Except (SettlementFailure E) HandoffReceipt → Phase O E × List Action
  | .ok receipt =>
    if receipt.destination = plan.destination then
      let (lease, observed) := lease.confirmHandoff observer receipt
      let (phase, emitted) := originalSettlement observer lease (.handoffConfirmed receipt)
      (phase, observed ++ emitted)
    else
      report observer lease .unresolved
        (some (.classified .receiptMismatch (some .handoff))) none
  | .error failure =>
    if failure.kind = .adapterError ∨ failure.kind = .panicked ∨ failure.kind = .timedOut then
      originalSettlement observer lease (.handoffFailed failure)
    else report observer lease .unresolved (some failure) none

def pollHandoff (cancelled : Bool) (lease : SettlementLease O) (plan : HandoffPlan)
    (issued : Bool) (poll : Poll HandoffReceipt E) : Phase O E × List Action :=
  let started := issue .handoff cancelled issued poll
  match boundedOperation .handoff cancelled poll with
  | none => (.handoff lease plan (nowIssued cancelled issued poll), started)
  | some (.ok receipt) =>
    let (phase, emitted) := afterHandoff observer lease plan (.ok receipt)
    (phase, started ++ .received receipt :: emitted)
  | some (.error failure) =>
    let (phase, emitted) := afterHandoff observer lease plan (.error failure)
    (phase, started ++ emitted)

def pollOriginal (cancelled : Bool) (lease : SettlementLease O) (site : CallSite E)
    (issued : Bool) (poll : Poll Bool E) : Phase O E × List Action :=
  let started := issue site.operation cancelled issued poll
  match boundedOperation site.operation cancelled poll with
  | none => (.original lease site (nowIssued cancelled issued poll), started)
  | some result =>
    let reply := match result with
      | .ok true => [.accepted site.operation]
      | _ => []
    let (phase, emitted) := conclude observer lease site (acceptance site.operation result)
    (phase, started ++ reply ++ emitted)

def dropFuture : Phase O E → Phase O E × List Action
  | .created state => (.dropped state, [])
  | .claimed lease | .handoff lease _ _ | .original lease _ _ =>
    let (lease, emitted) := lease.drop observer
    (.dropped lease.observer, emitted)
  | .returned state report => (.returned state report, [])
  | .dropped state => (.dropped state, [])

end Program

/-! ## Materializers that share one authority -/

/-- A program that settles a delivery, and whether it was cancelled. -/
structure Materializer (O E : Type) where
  cancelled : Bool
  phase : Phase O E

/-- What a materializer does next, with the answers it gets. -/
inductive Event (E : Type) where
  | cancel
  | claim
  | proceed
  | pollHandoff (poll : Poll HandoffReceipt E)
  | pollOriginal (poll : Poll Bool E)
  | drop

/-- The report of a materializer that finds the authority consumed. -/
def refusal : SettlementReport E :=
  ⟨.unresolved, some (.classified .authorityConsumed none), none, false, none⟩

/-- The answer of a materializer to an event. Events that do not fit its phase
change nothing. -/
def act (observer : SettlementObserver O) (job : Job) (event : Event E)
    (authority : SettlementAuthority) (m : Materializer O E) :
    Transition.Turn SettlementAuthority (Materializer O E) Action :=
  let continued (next : Phase O E × List Action) :
      Transition.Turn SettlementAuthority (Materializer O E) Action :=
    ⟨authority, { m with phase := next.1 }, next.2⟩
  match event, m.phase with
  | .cancel, _ => ⟨authority, { m with cancelled := true }, []⟩
  | .claim, .created state =>
    match authority with
    | .available => ⟨.consumed, { m with phase := .claimed (.fresh state) }, [.claimed]⟩
    | .consumed => continued (.returned state refusal, [])
  | .proceed, .claimed lease => continued (proceed observer job m.cancelled lease)
  | .pollHandoff poll, .handoff lease plan issued =>
    continued (pollHandoff observer m.cancelled lease plan issued poll)
  | .pollOriginal poll, .original lease site issued =>
    continued (pollOriginal observer m.cancelled lease site issued poll)
  | .drop, phase => continued (dropFuture observer phase)
  | _, _ => ⟨authority, m, []⟩

/-- Any number of materializers of one delivery. -/
def settlement (observer : SettlementObserver O) (jobs : ι → Job) :
    Transition.Machine ι SettlementAuthority (Materializer O E) (Event E) Action :=
  ⟨fun i event authority m => act observer (jobs i) event authority m⟩

/-- A new delivery, before any of its materializers is polled. -/
def initial (observers : ι → O) (cancelled : ι → Bool) :
    Transition.World ι SettlementAuthority (Materializer O E) Action :=
  ⟨.available, fun i => ⟨cancelled i, .created (observers i)⟩, []⟩

end Lily.Queue.Settlement
