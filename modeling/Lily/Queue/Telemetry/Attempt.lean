import Lily.Queue.Settlement.Materializer

/-!
# The evidence of one delivery attempt

`DeliveryAttemptGuard` owns the single terminal record of an attempt. Its methods
write to the shared ledger; here they return the writes as a list of `LedgerCall`,
in the order in which the source makes them. Metric exports are left out.

`deliverySettlementObserver` is the observer that the RabbitMQ engine passes to the
settlement coordinator. It forwards everything but an unresolved terminal, which is
left to the destructor of the guard.
-/

namespace Lily.Queue.Telemetry

open Settlement

inductive DeliveryTerminalOutcome where
  | handlerSuccess
  | retryConfirmed
  | deadLetterConfirmed
  | brokerDeadLettered
  | nackRequeue
  | bufferedPendingRedelivery
  | unresolved
  deriving DecidableEq

inductive ConfirmedHandoff where
  | retry
  | deadLetter

inductive LedgerCall where
  | commitHandlerSuccess
  | commitHandlerSuccessAck
  | recordConfirmedHandoff (handoff : ConfirmedHandoff)
  | commitConfirmedHandoffAck
  | commitBrokerDeadLetter
  | commitNackRequeue
  | commitBufferedPendingRedelivery
  | commitUnresolved
  | recordTerminalObservation (eventId : Option String) (deliveryAttempt : Nat)
      (outcome : DeliveryTerminalOutcome)

/-- `forceArmed` says whether the attempt holds a force-redelivery token. -/
structure DeliveryAttemptGuard where
  eventId : Option String
  deliveryAttempt : Nat
  handlerSuccessRecorded : Bool
  confirmedHandoff : Option ConfirmedHandoff
  forceArmed : Bool
  settlementStarted : Bool
  finished : Bool

namespace DeliveryAttemptGuard

def start (eventId : Option String) (deliveryAttempt : Nat) : DeliveryAttemptGuard :=
  ⟨eventId, deliveryAttempt, false, none, false, false, false⟩

variable (guard : DeliveryAttemptGuard) (commits : List LedgerCall)
  (outcome : DeliveryTerminalOutcome)

def armForceRedelivery : DeliveryAttemptGuard :=
  if guard.finished then guard else { guard with forceArmed := true }

def markSettlementStarted : DeliveryAttemptGuard :=
  if guard.finished then guard else { guard with settlementStarted := true }

def recordHandlerSuccess : DeliveryAttemptGuard × List LedgerCall :=
  if guard.finished then (guard, [])
  else if guard.handlerSuccessRecorded then (guard, [])
  else ({ guard with handlerSuccessRecorded := true }, [.commitHandlerSuccess])

/-- The common end of an attempt: nothing after the first end, and otherwise the
given commits followed by the terminal observation. -/
def finishWith : DeliveryAttemptGuard × List LedgerCall :=
  if guard.finished then (guard, [])
  else ({ guard with finished := true },
    commits ++ [.recordTerminalObservation guard.eventId guard.deliveryAttempt outcome])

/-- The success is counted here when the handler's own record is missing. -/
def finishHandlerSuccessAck : DeliveryAttemptGuard × List LedgerCall :=
  let success := if guard.handlerSuccessRecorded then [] else [.commitHandlerSuccess]
  let (next, calls) := guard.finishWith (success ++ [.commitHandlerSuccessAck]) .handlerSuccess
  (if guard.finished then next else { next with handlerSuccessRecorded := true }, calls)

def recordConfirmedHandoff (retry : Bool) : DeliveryAttemptGuard × List LedgerCall :=
  if guard.finished then (guard, [])
  else if guard.confirmedHandoff.isSome then (guard, [])
  else
    let handoff := if retry then .retry else .deadLetter
    ({ guard with confirmedHandoff := some handoff }, [.recordConfirmedHandoff handoff])

/-- Without a recorded handoff the attempt stays open for its destructor. -/
def finishConfirmedHandoffAck : DeliveryAttemptGuard × List LedgerCall :=
  match guard.confirmedHandoff with
  | none => (guard, [])
  | some .retry => guard.finishWith [.commitConfirmedHandoffAck] .retryConfirmed
  | some .deadLetter => guard.finishWith [.commitConfirmedHandoffAck] .deadLetterConfirmed

def finishBrokerDeadLetter : DeliveryAttemptGuard × List LedgerCall :=
  guard.finishWith [.commitBrokerDeadLetter] .brokerDeadLettered

def finishNackRequeue : DeliveryAttemptGuard × List LedgerCall :=
  guard.finishWith [.commitNackRequeue] .nackRequeue

def finishBufferedPendingRedelivery : DeliveryAttemptGuard × List LedgerCall :=
  guard.finishWith [.commitBufferedPendingRedelivery] .bufferedPendingRedelivery

def finishUnresolved : DeliveryAttemptGuard × List LedgerCall :=
  guard.finishWith [.commitUnresolved] .unresolved

/-- `forced` is the state of the armed token at this moment. The destructor is this
function with its result ignored. -/
def finishInterrupted (forced : Bool) :
    (DeliveryAttemptGuard × List LedgerCall) × Option DeliveryTerminalOutcome :=
  if guard.finished then ((guard, []), none)
  else if guard.forceArmed && forced && !guard.settlementStarted then
    (guard.finishBufferedPendingRedelivery, some .bufferedPendingRedelivery)
  else (guard.finishUnresolved, some .unresolved)

end DeliveryAttemptGuard

/-- A guard, with the calls on the ledger it has made. -/
structure Attempt where
  guard : DeliveryAttemptGuard
  calls : List LedgerCall

namespace Attempt

variable (attempt : Attempt)

/-- Continue an attempt with one method of its guard. -/
def apply (next : DeliveryAttemptGuard × List LedgerCall) : Attempt :=
  ⟨next.1, attempt.calls ++ next.2⟩

/-- The destructor of the guard. -/
def dropGuard (forced : Bool) : Attempt :=
  attempt.apply (attempt.guard.finishInterrupted forced).1

def outcomes : List DeliveryTerminalOutcome :=
  attempt.calls.filterMap fun
    | .recordTerminalObservation _ _ outcome => some outcome
    | _ => none

end Attempt

def deliverySettlementObserver : SettlementObserver Attempt where
  handoffConfirmed attempt receipt :=
    (attempt.apply (attempt.guard.recordConfirmedHandoff (receipt == .retryConfirmed)), .ok)
  terminal attempt terminal :=
    match terminal with
    | .ackedSuccess => (attempt.apply attempt.guard.finishHandlerSuccessAck, .ok)
    | .ackedRetry | .ackedDeadLetter =>
      (attempt.apply attempt.guard.finishConfirmedHandoffAck, .ok)
    | .nackRequeue => (attempt.apply attempt.guard.finishNackRequeue, .ok)
    | .nackDeadLetter => (attempt.apply attempt.guard.finishBrokerDeadLetter, .ok)
    | .unresolved => (attempt, .ok)

end Lily.Queue.Telemetry
