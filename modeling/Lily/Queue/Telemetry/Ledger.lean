import Lily.Queue.Telemetry.Attempt

/-!
# The ledger of all attempts

`DeliveryTerminalLedger` has one atomic counter for each place where a delivery can end.
A commit touches two of them, one after the other, and guards of other deliveries may come
in between: every access to a counter is a move of its own. The counters are integers here,
so that a counter that underflows is seen; none is ever above the number of deliveries, so
that no `u64` wraps in a run of fewer than `2 ^ 64` of them.

A panic of a metrics exporter after a commit only takes away what comes after it, which is
the observation of the outcome and no counter.
-/

namespace Lily.Queue.Telemetry

open Transition

inductive Counter where
  | deliveries
  | ackedHandlerSuccess
  | ackedConfirmedHandoff
  | nackedOrRequeued
  | bufferedPendingRedelivery
  | unresolved
  | inFlight
  | retryConfirmed
  | deadLetterConfirmed
  | handlerSuccess
  deriving DecidableEq

/-- The counters, each by its name. -/
abbrev DeliveryTerminalLedger := Counter → Int

/-- One `fetch_add`, or `fetch_sub` for a negative amount. -/
structure Atomic where
  counter : Counter
  amount : Int
  deriving DecidableEq

def Atomic.effect (atomic : Atomic) : DeliveryTerminalLedger :=
  Pi.single atomic.counter atomic.amount

/-- `DeliveryTerminalLedger::begin`. -/
def beginAtomics : List Atomic := [⟨.deliveries, 1⟩, ⟨.inFlight, 1⟩]

def endIn (bucket : Counter) : List Atomic := [⟨.inFlight, -1⟩, ⟨bucket, 1⟩]

def LedgerCall.atomics : LedgerCall → List Atomic
  | .commitHandlerSuccess => [⟨.handlerSuccess, 1⟩]
  | .commitHandlerSuccessAck => endIn .ackedHandlerSuccess
  | .recordConfirmedHandoff .retry => [⟨.retryConfirmed, 1⟩]
  | .recordConfirmedHandoff .deadLetter => [⟨.deadLetterConfirmed, 1⟩]
  | .commitConfirmedHandoffAck => endIn .ackedConfirmedHandoff
  | .commitBrokerDeadLetter => endIn .nackedOrRequeued
  | .commitNackRequeue => endIn .nackedOrRequeued
  | .commitBufferedPendingRedelivery => endIn .bufferedPendingRedelivery
  | .commitUnresolved => endIn .unresolved
  | .recordTerminalObservation _ _ _ => []

/-- `u64::saturating_add`. -/
def saturatingAdd (a b : Int) : Int := min (a + b) (2 ^ 64 - 1)

/-- The test that a snapshot offers to its readers. -/
def isReconciled (ledger : DeliveryTerminalLedger) : Bool :=
  let unackedOrInFlight := saturatingAdd (ledger .unresolved) (ledger .inFlight)
  ledger .deliveries =
    saturatingAdd (saturatingAdd (saturatingAdd (saturatingAdd (ledger .ackedHandlerSuccess)
      (ledger .ackedConfirmedHandoff)) (ledger .nackedOrRequeued))
      (ledger .bufferedPendingRedelivery)) unackedOrInFlight

/-! ## Guards -/

/-- The methods of a guard. -/
inductive Method where
  | armForceRedelivery (token : Nat)
  | markSettlementStarted
  | recordHandlerSuccess
  | finishHandlerSuccessAck
  | recordConfirmedHandoff (retry : Bool)
  | finishConfirmedHandoffAck
  | finishBrokerDeadLetter
  | finishNackRequeue
  | finishBufferedPendingRedelivery
  | finishUnresolved
  | finishInterrupted

/-- A guard with what it has called so far, the force token it is armed with, and the accesses
to counters that its current method still has to make. -/
structure GuardTask where
  attempt : Option Attempt := none
  token : Option Nat := none
  dropped : Bool := false
  pending : List Atomic := []

/-- The counters, and the force tokens that have been cancelled. -/
structure Counters where
  ledger : DeliveryTerminalLedger := 0
  signalled : List Nat := []

inductive Event where
  | begin (eventId : Option String) (deliveryAttempt : Nat)
  | tick
  | call (method : Method)
  | drop
  | signal (token : Nat)

/-- What the log of a guard has. -/
inductive Entry where
  | counted (atomic : Atomic)
  | armed (token : Nat)
  | settlementStarted
  | signalled (token : Nat)
  | interrupted (outcome : DeliveryTerminalOutcome)
  deriving DecidableEq

variable (guard : DeliveryAttemptGuard) (forced : Bool)

/-- What a method does to its guard. `forced` says whether the armed token is cancelled. -/
def Method.run :
    Method → DeliveryAttemptGuard × List LedgerCall
  | .armForceRedelivery _ => (guard.armForceRedelivery, [])
  | .markSettlementStarted => (guard.markSettlementStarted, [])
  | .recordHandlerSuccess => guard.recordHandlerSuccess
  | .finishHandlerSuccessAck => guard.finishHandlerSuccessAck
  | .recordConfirmedHandoff retry => guard.recordConfirmedHandoff retry
  | .finishConfirmedHandoffAck => guard.finishConfirmedHandoffAck
  | .finishBrokerDeadLetter => guard.finishBrokerDeadLetter
  | .finishNackRequeue => guard.finishNackRequeue
  | .finishBufferedPendingRedelivery => guard.finishBufferedPendingRedelivery
  | .finishUnresolved => guard.finishUnresolved
  | .finishInterrupted => (guard.finishInterrupted forced).1

def Method.entries : Method → List Entry
  | .armForceRedelivery token => if guard.finished then [] else [.armed token]
  | .markSettlementStarted => if guard.finished then [] else [.settlementStarted]
  | .finishInterrupted => ((guard.finishInterrupted forced).2.map Entry.interrupted).toList
  | _ => []

/-- A method of a guard that is not in the middle of another one. -/
def GuardTask.call (task : GuardTask) (attempt : Attempt) (forced : Bool) (method : Method) :
    GuardTask :=
  let next := method.run attempt.guard forced
  { task with
    attempt := some (attempt.apply next)
    token := match method with
      | .armForceRedelivery token => if attempt.guard.finished then task.token else some token
      | _ => task.token
    pending := next.2.flatMap LedgerCall.atomics }

def act (_ : Nat) (event : Event) (s : Counters) (task : GuardTask) :
    Turn Counters GuardTask Entry :=
  let forced := task.token.any fun token => token ∈ s.signalled
  match event, task.pending, task.attempt with
  | .signal token, _, _ => ⟨{ s with signalled := token :: s.signalled }, task, [.signalled token]⟩
  | .begin eventId deliveryAttempt, [], none =>
    ⟨s, { task with
      attempt := some ⟨.start eventId deliveryAttempt, []⟩
      pending := beginAtomics }, []⟩
  | .tick, atomic :: rest, _ =>
    ⟨{ s with ledger := s.ledger + atomic.effect }, { task with pending := rest },
      [.counted atomic]⟩
  | .call method, [], some attempt =>
    if task.dropped then ⟨s, task, []⟩
    else ⟨s, task.call attempt forced method, method.entries attempt.guard forced⟩
  | .drop, [], some attempt =>
    if task.dropped then ⟨s, task, []⟩
    else
      ⟨s, { task.call attempt forced .finishInterrupted with dropped := true },
        Method.entries attempt.guard forced .finishInterrupted⟩
  | _, _, _ => ⟨s, task, []⟩

def guards : Machine Nat Counters GuardTask Event Entry := ⟨act⟩

def initial : World Nat Counters GuardTask Entry := ⟨{}, fun _ => {}, []⟩

end Lily.Queue.Telemetry
