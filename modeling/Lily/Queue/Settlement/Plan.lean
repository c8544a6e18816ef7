import Mathlib.Algebra.Order.Ring.Int

/-!
# Delivery outcomes and handoff plans

The vocabulary of delivery settlement: what an execution ended with, where a
failed delivery is handed to, and the plan that the bounded retry policy makes
for it. Counters are natural numbers below `2 ^ 32` with the saturation of the
source written out.
-/

namespace Lily.Queue.Settlement

inductive FailureClass where
  | retryable
  | permanent
  deriving DecidableEq

/-- The result of executing a delivery, after the framework's own cleanup. -/
inductive ExecutionOutcome where
  | success
  | failure (failureClass : FailureClass) (code : String)
  | requeueDeferred (code : String)
  | frameworkCancelled
  deriving DecidableEq

inductive HandoffDestination where
  | retry
  | deadLetter
  deriving DecidableEq

def u32Max : Nat := 2 ^ 32 - 1

/-- `u32::saturating_add`. -/
def saturatingAdd (a b : Nat) : Nat := min (a + b) u32Max

structure HandoffPlan where
  destination : HandoffDestination
  failureClass : FailureClass
  failureCode : String
  currentRetryCount : Nat
  nextRetryCount : Nat
  deliveryAttempt : Nat

def HandoffPlan.forFailure (failureClass : FailureClass) (failureCode : String)
    (currentRetryCount retryAttempts : Nat) : HandoffPlan :=
  let retry := failureClass == .retryable && decide (currentRetryCount < retryAttempts)
  { destination := if retry then .retry else .deadLetter
    failureClass
    failureCode
    currentRetryCount
    nextRetryCount := if retry then saturatingAdd currentRetryCount 1 else currentRetryCount
    deliveryAttempt := saturatingAdd currentRetryCount 1 }

/-- Evidence of the provider that a handoff reached one destination. -/
inductive HandoffReceipt where
  | retryConfirmed
  | deadLetterConfirmed
  deriving DecidableEq

def HandoffReceipt.destination : HandoffReceipt → HandoffDestination
  | .retryConfirmed => .retry
  | .deadLetterConfirmed => .deadLetter

end Lily.Queue.Settlement
