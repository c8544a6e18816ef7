import Lily.Transition.Counting

/-!
# The admission of transactions

A transaction begins with a check of the admission, an increment of the counter and a second check;
if that fails, the increment is taken back. Every access to an atomic is a move of its own. A drain
reads the counter, and the tasks that it waits for besides can only make it fail.
-/

namespace Lily.Queue.Inbox.Tracker

open Transition Collection

/-- The count of the transactions, and whether more may begin. -/
structure TransactionTracker where
  accepting : Bool
  active : Nat := 0

/-- How far a call of `begin` has come. -/
inductive Call where
  | idle
  | checked
  | entered
  /-- The second check has failed, and `finish` is still to come. -/
  | refused
  | lease
  deriving DecidableEq

inductive Event where
  | begin | dropLease | stopTransactionAdmission

inductive Action where
  | granted | rejected | ended

variable (event : Event) (t : TransactionTracker)

def TransactionTracker.finish : TransactionTracker :=
  { t with active := t.active - 1 }

def TransactionTracker.begin : Call → Turn TransactionTracker Call Action
  | .idle => if t.accepting then ⟨t, .checked, []⟩ else ⟨t, .idle, [.rejected]⟩
  | .checked => ⟨{ t with active := t.active + 1 }, .entered, []⟩
  | .entered => if t.accepting then ⟨t, .lease, [.granted]⟩ else ⟨t, .refused, []⟩
  | .refused => ⟨t.finish, .idle, [.rejected]⟩
  | .lease => ⟨t, .lease, []⟩

def act : Event → TransactionTracker → Call → Turn TransactionTracker Call Action
  | .begin, t, call => t.begin call
  | .dropLease, t, .lease => ⟨t.finish, .idle, [.ended]⟩
  | .dropLease, t, call => ⟨t, call, []⟩
  | .stopTransactionAdmission, t, call => ⟨{ t with accepting := false }, call, []⟩

def tracker : Machine Nat TransactionTracker Call Event Action := ⟨fun _ => act⟩

def initial (accepting : Bool) : World Nat TransactionTracker Call Action :=
  ⟨{ accepting }, fun _ => .idle, []⟩

def Call.counted : Call → Bool
  | .idle | .checked => false
  | .entered | .refused | .lease => true

/-- The counter moves with the call that is counted. -/
theorem act_counted (call : Call) :
    (act event t call).shared.active =
      match call.counted, (act event t call).own.counted with
      | false, true => t.active + 1
      | true, false => t.active - 1
      | _, _ => t.active := by
  cases event with
  | begin =>
    cases call with
    | idle | entered =>
      simp only [act, TransactionTracker.begin]
      split <;> rfl
    | _ => rfl
  | _ => cases call <;> rfl

variable {w : World Nat TransactionTracker Call Action}

/-- Once the admission is closed it stays so, and nobody gets a lease. -/
theorem closed_run (hclosed : w.shared.accepting = false) (moves : List (Nat × Event)) :
    (tracker.run w moves).shared.accepting = false ∧
      (∀ i, (i, .granted) ∉ tracker.emitted w moves) ∧
      ∀ i, w.locals i ≠ .lease → (tracker.run w moves).locals i ≠ .lease := by
  induction moves generalizing w with
  | nil => exact ⟨hclosed, fun _ => List.not_mem_nil, fun _ hi => hi⟩
  | cons move rest ih =>
    obtain ⟨j, event⟩ := move
    have hact : ∀ call, (act event w.shared call).shared.accepting = false ∧
        .granted ∉ (act event w.shared call).emitted ∧
        (call ≠ .lease → (act event w.shared call).own ≠ .lease) := by
      intro call
      cases event <;> cases call <;>
        simp [act, TransactionTracker.begin, TransactionTracker.finish, hclosed]
    obtain ⟨hshared, hemitted, hown⟩ := hact (w.locals j)
    obtain ⟨hrun, hgranted, hkept⟩ := ih (w := tracker.step w (j, event)) hshared
    refine ⟨hrun, fun i hmem => ?_, fun i hi => hkept i ?_⟩
    · rcases List.mem_append.mp hmem with hnow | hlater
      · obtain ⟨action, haction, heq⟩ := List.mem_map.mp hnow
        cases heq
        exact hemitted haction
      · exact hgranted i hlater
    · obtain rfl | hij := eq_or_ne i j
      · rw [tracker.step_locals_self]
        exact hown hi
      · rwa [tracker.step_locals_other w j i event hij]

/-- The counter is the number of the live leases and of the calls between their increment and their
grant or decrement. If the admission was stopped and the counter is then read as zero, no lease is
live any more, and none will be granted. -/
theorem transactions_drained (accepting : Bool) (moves : List (Nat × Event)) :
    let w := tracker.run (initial accepting) moves
    (∃ leases begins, Tally (fun i => w.locals i = .lease) leases ∧
      Tally (fun i => w.locals i = .entered ∨ w.locals i = .refused) begins ∧
      w.shared.active = leases + begins) ∧
    (∀ i, w.locals i = .lease ∨ w.locals i = .refused → 0 < w.shared.active) ∧
    ∀ c, (c, .stopTransactionAdmission) ∈ moves → w.shared.active = 0 → ∀ more,
      (∀ i, (tracker.run w more).locals i ≠ .lease) ∧
        ∀ i, (i, .granted) ∉ tracker.emitted w more := by
  intro w
  have hcounted : Machine.Counted TransactionTracker.active Call.counted w :=
    tracker.run_induct (Tally.empty fun _ => Bool.false_ne_true)
      (fun w i event h => h.step tracker i event (act_counted event w.shared (w.locals i))) moves
  refine ⟨Tally.split hcounted (fun i => ?_) fun i hlease => by simp [hlease],
    fun i hi => hcounted.pos (i := i) ?_, fun c hstop hzero more => ?_⟩
  · cases w.locals i <;> simp [Call.counted]
  · rcases hi with hi | hi <;> rw [hi] <;> rfl
  · have hclosed : w.shared.accepting = false := by
      obtain ⟨before, after, rfl⟩ := List.append_of_mem hstop
      rw [show w = _ from tracker.run_append _ before _]
      exact (closed_run rfl after).1
    obtain ⟨-, hgranted, hkept⟩ := closed_run hclosed more
    refine ⟨fun i => hkept i fun hlease => ?_, hgranted⟩
    have hnone := hcounted.none hzero i
    rw [hlease] at hnone
    cases hnone

/-- A call that has failed its second check is counted until it has taken its increment back. -/
theorem refused_counted :
    let w := tracker.run (initial true)
      [(0, .begin), (0, .begin), (1, .stopTransactionAdmission), (0, .begin)]
    w.shared.active = 1 ∧ ∀ i, w.locals i ≠ .lease ∧ w.locals i ≠ .entered := by
  refine ⟨rfl, fun i => ?_⟩
  match i with
  | 0 | 1 => decide
  | i + 2 => exact ⟨nofun, nofun⟩

end Lily.Queue.Inbox.Tracker
