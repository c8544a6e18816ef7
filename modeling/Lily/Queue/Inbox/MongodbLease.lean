import Lily.Queue.Inbox.Contract

/-!
# Waiting for the external lease

Before a delivery opens its MongoDB transaction it polls for a lease that another process may
hold. Times are milliseconds. What the storage answers in each round, and how long it takes,
is a list of rounds that bounds the polling; the ledger of telemetry is left out.
-/

namespace Lily.Queue.Inbox.MongodbLease

inductive MongoReliabilityError where
  | transactionDeadlineExceeded
  | transactionCancelled
  | other (failure : QueueHandlerError)

open MongoReliabilityError

def reliabilityAsHandler : MongoReliabilityError → QueueHandlerError
  | transactionDeadlineExceeded => .retryable "QUEUE_MONGODB_TRANSACTION_DEADLINE_EXCEEDED"
  | transactionCancelled => .retryable "QUEUE_MONGODB_TRANSACTION_CANCELLED"
  | other failure => failure

inductive ExternalLeaseAdmission where
  | acquired
  | alreadyCompleted
  | inProgress
  | contentionDeferred

/-- The delivery, with the time at which the first of its two tokens is cancelled. -/
structure TransactionExecutionContext where
  inboxLockTimeoutMillis : Nat
  bodyDeadline : Option Nat
  cancelledAt : Option Nat

structure Operation where
  duration : Nat
  result : Except MongoReliabilityError Bool

structure Round where
  acquireExternalLease : Operation
  inboxCompleted : Operation

variable (context : TransactionExecutionContext)

def pollInterval : Nat := min (max (context.inboxLockTimeoutMillis / 10) 1) 100

/-- `timeout_at` around a wait that prefers cancellation, with the time at which it is over.
The wait is polled before the timer, so one that ends at the deadline still counts. -/
def timeoutAt {α : Type} (now duration : Nat) (result : Except MongoReliabilityError α) :
    Option (Except MongoReliabilityError α) × Nat :=
  let (ready, answer) := match context.cancelledAt with
    | some cancelled => if cancelled ≤ now + duration then (max now cancelled, .error
        transactionCancelled) else (now + duration, result)
    | none => (now + duration, result)
  match context.bodyDeadline with
  | some deadline => if ready ≤ max now deadline then (some answer, ready)
    else (none, max now deadline)
  | none => (some answer, ready)

def runStorageUntil (now : Nat) (operation : Operation) : Except MongoReliabilityError Bool × Nat :=
  match timeoutAt context now operation.duration operation.result with
  | (some result, now) => (result, now)
  | (none, now) => (.error transactionDeadlineExceeded, now)

def storageFailure : MongoReliabilityError → Except QueueHandlerError ExternalLeaseAdmission
  | transactionDeadlineExceeded => .ok .contentionDeferred
  | error => .error (reliabilityAsHandler error)

inductive Poll where
  | leave (outcome : Except QueueHandlerError ExternalLeaseAdmission) (now : Nat)
  | sleep (now : Nat)

/-- One turn of the loop, up to its sleep. -/
def poll (round : Round) (now : Nat) : Poll :=
  if context.cancelledAt.any (· ≤ now) then
    .leave (.error (reliabilityAsHandler transactionCancelled)) now
  else if context.bodyDeadline.any (· ≤ now) then .leave (.ok .contentionDeferred) now
  else match runStorageUntil context now round.acquireExternalLease with
    | (.error error, now) => .leave (storageFailure error) now
    | (.ok true, now) => .leave (.ok .acquired) now
    | (.ok false, now) => match runStorageUntil context now round.inboxCompleted with
      | (.error error, now) => .leave (storageFailure error) now
      | (.ok true, now) => .leave (.ok .alreadyCompleted) now
      | (.ok false, now) =>
        if context.bodyDeadline.isNone then .leave (.ok .inProgress) now else .sleep now

/-- The outcome and its time, or `none` if the rounds are too few. -/
def awaitExternalLease : List Round → Nat →
    Option (Except QueueHandlerError ExternalLeaseAdmission × Nat)
  | [], _ => none
  | round :: rest, now => match poll context round now with
    | .leave outcome now => some (outcome, now)
    | .sleep now => match timeoutAt context now (pollInterval context) (.ok ()) with
      -- The error of the timer leaves the function at once, past the match below it.
      | (none, now) => some (.error (reliabilityAsHandler transactionDeadlineExceeded), now)
      | (some (.error error), now) => some (storageFailure error, now)
      | (some (.ok ()), now) => awaitExternalLease rest now

/-- The times at which the loop goes to sleep. -/
def sleeps : List Round → Nat → List Nat
  | [], _ => []
  | round :: rest, now => match poll context round now with
    | .leave _ _ => []
    | .sleep now => now :: match timeoutAt context now (pollInterval context) (.ok ()) with
      | (some (.ok ()), now) => sleeps rest now
      | _ => []

/-- No operation of the round fails. -/
def Round.Answers (round : Round) : Prop :=
  (∃ held, round.acquireExternalLease.result = .ok held) ∧
    ∃ completed, round.inboxCompleted.result = .ok completed

section Calm

variable {context} {deadline : Nat} (hdeadline : context.bodyDeadline = some deadline)
  (hcalm : context.cancelledAt = none)

include hdeadline hcalm

theorem timeoutAt_eq {α : Type} (now duration : Nat) (result : Except MongoReliabilityError α) :
    timeoutAt context now duration result =
      if now + duration ≤ max now deadline then (some result, now + duration)
      else (none, max now deadline) := by
  simp [timeoutAt, hdeadline, hcalm]

theorem poll_cases (now : Nat) {round : Round} (h : round.Answers) :
    (∃ admission now', poll context round now = .leave (.ok admission) now' ∧
      admission ≠ .inProgress ∧ now' ≤ max now deadline) ∨
    ∃ now', poll context round now = .sleep now' ∧ now < deadline ∧ now ≤ now' ∧
      now' ≤ deadline := by
  obtain ⟨⟨held, hheld⟩, completed, hcompleted⟩ := h
  simp only [poll, runStorageUntil, timeoutAt_eq hdeadline hcalm, hheld, hcompleted, hcalm,
    hdeadline, Option.any_none, Option.any_some, Bool.false_eq_true, if_false, decide_eq_true_eq,
    Option.isNone_some]
  cases held <;> cases completed <;> split_ifs <;> try (dsimp only; split_ifs)
  all_goals first
    | exact .inl ⟨_, _, rfl, nofun, by omega⟩
    | exact .inr ⟨_, rfl, by omega, by omega, by omega⟩

/-- A delivery whose storage answers leaves the loop by its deadline, and does so without a
handler failure exactly if the deadline never cuts a sleep short. -/
theorem contention_deferred_iff (rounds : List Round) (now : Nat)
    (hanswers : ∀ round ∈ rounds, round.Answers) (hrounds : deadline - now < rounds.length) :
    ∃ outcome left, awaitExternalLease context rounds now = some (outcome, left) ∧
      left ≤ max now deadline ∧
      ((outcome = .ok .acquired ∨ outcome = .ok .alreadyCompleted ∨
          outcome = .ok .contentionDeferred) ↔
        ∀ slept ∈ sleeps context rounds now, slept + pollInterval context ≤ deadline) := by
  induction rounds generalizing now with
  | nil => simp at hrounds
  | cons round rest ih =>
    rw [List.forall_mem_cons] at hanswers
    rw [List.length_cons] at hrounds
    have hpositive : 1 ≤ pollInterval context := by simp only [pollInterval]; omega
    obtain ⟨admission, left, heq, hadmission, hleft⟩ | ⟨slept, heq, hbefore, hle, hslept⟩ :=
      poll_cases hdeadline hcalm now hanswers.1
    · refine ⟨.ok admission, left, by simp [awaitExternalLease, heq], hleft, ?_⟩
      cases admission <;> simp [sleeps, heq] at hadmission ⊢
    simp only [awaitExternalLease, sleeps, heq, timeoutAt_eq hdeadline hcalm]
    split_ifs with hin
    · obtain ⟨outcome, left, hrun, hleft, hiff⟩ :=
        ih (slept + pollInterval context) hanswers.2 (by omega)
      refine ⟨outcome, left, hrun, by omega, ?_⟩
      rw [hiff, List.forall_mem_cons, and_iff_right (by omega)]
    · refine ⟨_, _, rfl, by omega, ?_⟩
      simp only [reduceCtorEq, or_self, List.mem_singleton, forall_eq, false_iff]
      omega

end Calm

def contended : Round := ⟨⟨0, .ok false⟩, ⟨0, .ok false⟩⟩

/-- The lease is held all the time, and the second sleep ends at the deadline. -/
theorem contention_deferred_at_deadline :
    awaitExternalLease ⟨100, some 20, none⟩ (List.replicate 21 contended) 0 =
        some (.ok .contentionDeferred, 20) ∧
      ∀ slept ∈ sleeps ⟨100, some 20, none⟩ (List.replicate 21 contended) 0, slept + 10 ≤ 20 := by
  have hrun : awaitExternalLease ⟨100, some 20, none⟩ (List.replicate 21 contended) 0 =
    some (.ok .contentionDeferred, 20) := rfl
  obtain ⟨outcome, left, heq, -, hiff⟩ := @contention_deferred_iff ⟨100, some 20, none⟩ 20 rfl rfl
    (List.replicate 21 contended) 0
    (fun round h => by rw [List.eq_of_mem_replicate h]; exact ⟨⟨_, rfl⟩, _, rfl⟩) (by decide)
  cases hrun.symm.trans heq
  exact ⟨hrun, hiff.mp (.inr (.inr rfl))⟩

/-- The lease is held all the time, and the deadline falls into the second sleep. -/
theorem contention_fails_asleep :
    awaitExternalLease ⟨100, some 15, none⟩ [contended, contended] 0 =
      some (.error (.retryable "QUEUE_MONGODB_TRANSACTION_DEADLINE_EXCEEDED"), 15) := rfl

end Lily.Queue.Inbox.MongodbLease
