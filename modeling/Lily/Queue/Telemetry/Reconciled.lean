import Lily.Queue.Telemetry.Ledger
import Lily.Collection.Position
import Lily.Transition.Additive
import Mathlib.Algebra.BigOperators.Pi
import Mathlib.Algebra.BigOperators.Ring.Finset

/-!
# The ledger reconciles

Every counter is the sum of what the guards have added to it, so that the ledger balances as
soon as every guard does. What one guard adds follows from its flags: it counts its delivery
once and, when it is finished, ends it in one bucket.
-/

namespace Lily.Queue.Telemetry

open Transition

/-! ## Totals -/

def total (atomics : List Atomic) : DeliveryTerminalLedger := (atomics.map Atomic.effect).sum

@[simp] theorem total_nil : total [] = 0 := rfl

@[simp] theorem total_cons (atomic : Atomic) (rest : List Atomic) :
    total (atomic :: rest) = atomic.effect + total rest := List.sum_cons

@[simp] theorem total_append (before after : List Atomic) :
    total (before ++ after) = total before + total after := by
  rw [total, List.map_append, List.sum_append]
  rfl

theorem effect_apply (atomic : Atomic) (counter : Counter) :
    atomic.effect counter = if counter = atomic.counter then atomic.amount else 0 :=
  Pi.single_apply ..

variable {counter : Counter}

theorem total_eq_zero {atomics : List Atomic}
    (h : ∀ atomic ∈ atomics, atomic.counter ≠ counter) : total atomics counter = 0 := by
  induction atomics with
  | nil => rfl
  | cons atomic rest ih =>
    have hfirst := h atomic List.mem_cons_self
    rw [total_cons, Pi.add_apply, ih fun other hother => h other (List.mem_cons_of_mem _ hother),
      effect_apply, if_neg (Ne.symm hfirst), add_zero]

/-- The buckets in which a delivery can end. -/
def Counter.terminal : Counter → Bool
  | .ackedHandlerSuccess | .ackedConfirmedHandoff | .nackedOrRequeued
  | .bufferedPendingRedelivery | .unresolved => true
  | _ => false

/-- All that has ended, in whichever bucket. -/
def ended (ledger : DeliveryTerminalLedger) : Int :=
  ledger .ackedHandlerSuccess + ledger .ackedConfirmedHandoff + ledger .nackedOrRequeued +
    ledger .bufferedPendingRedelivery + ledger .unresolved

theorem ended_add (a b : DeliveryTerminalLedger) : ended (a + b) = ended a + ended b := by
  simp only [ended, Pi.add_apply]
  omega

/-- The accesses that put a delivery into a bucket. -/
def endings (atomics : List Atomic) : List Atomic :=
  atomics.filter fun atomic => atomic.counter.terminal

theorem ended_effect (counter : Counter) :
    ended (Atomic.effect ⟨counter, 1⟩) = if counter.terminal then 1 else 0 := by
  cases counter <;> rfl

/-! ## One guard -/

/-- No counter is below zero or above that of the deliveries, and no handoff acknowledged that was
not confirmed. -/
structure Safe (ledger : DeliveryTerminalLedger) : Prop where
  nonneg : ∀ counter, 0 ≤ ledger counter
  bounded : ∀ counter, ledger counter ≤ ledger .deliveries
  handoff : ledger .ackedConfirmedHandoff ≤ ledger .retryConfirmed + ledger .deadLetterConfirmed

theorem Safe.zero : Safe 0 := ⟨fun _ => le_refl _, fun _ => le_refl _, le_refl _⟩

theorem Safe.add {a b : DeliveryTerminalLedger} (ha : Safe a) (hb : Safe b) : Safe (a + b) where
  nonneg counter := Int.add_nonneg (ha.nonneg counter) (hb.nonneg counter)
  bounded counter := Int.add_le_add (ha.bounded counter) (hb.bounded counter)
  handoff := by
    have hleft := ha.handoff
    have hright := hb.handoff
    simp only [Pi.add_apply]
    omega

theorem effect_one (counter other : Counter) :
    Atomic.effect ⟨counter, 1⟩ other = if other = counter then 1 else 0 :=
  effect_apply ..

theorem effect_nonneg (counter other : Counter) : 0 ≤ Atomic.effect ⟨counter, 1⟩ other := by
  rw [effect_one]
  split_ifs
  · exact Int.one_nonneg
  · exact le_refl _

/-- A guard with one delivery counts once in a counter that it has not used. -/
theorem Safe.count {ledger : DeliveryTerminalLedger} (h : Safe ledger)
    (hdeliveries : ledger .deliveries = 1) (hzero : ledger counter = 0)
    (hacked : counter = .ackedConfirmedHandoff →
      ledger .retryConfirmed + ledger .deadLetterConfirmed = 1) :
    Safe (ledger + Atomic.effect ⟨counter, 1⟩) where
  nonneg other := Int.add_nonneg (h.nonneg other) (effect_nonneg counter other)
  bounded other := by
    have hdelivery := effect_nonneg counter .deliveries
    have hother := h.bounded other
    rw [Pi.add_apply, Pi.add_apply, effect_one counter other]
    split_ifs with heq
    · rw [heq, hzero, hdeliveries]
      omega
    · omega
  handoff := by
    have hretry := effect_nonneg counter .retryConfirmed
    have hdeadLetter := effect_nonneg counter .deadLetterConfirmed
    have hhandoff := h.handoff
    rw [Pi.add_apply, Pi.add_apply, Pi.add_apply, effect_one counter .ackedConfirmedHandoff]
    split_ifs with heq
    · have hconfirmed := hacked heq.symm
      rw [← heq] at hzero
      omega
    · omega

/-- What the guard of an attempt has issued by the end of a method. -/
structure Balanced (guard : DeliveryAttemptGuard) (atomics : List Atomic) : Prop where
  deliveries : total atomics .deliveries = 1
  inFlight : total atomics .inFlight = if guard.finished then 0 else 1
  endings : (endings atomics).length = if guard.finished then 1 else 0
  ended : ended (total atomics) = if guard.finished then 1 else 0
  handoff : total atomics .retryConfirmed + total atomics .deadLetterConfirmed =
    if guard.confirmedHandoff.isSome then 1 else 0
  success : total atomics .handlerSuccess = if guard.handlerSuccessRecorded then 1 else 0
  safe : ∀ executed, executed <+: atomics → Safe (total executed)

theorem safe_concat {atomics : List Atomic} {atomic : Atomic}
    (h : ∀ executed, executed <+: atomics → Safe (total executed))
    (hlast : Safe (total atomics + atomic.effect)) :
    ∀ executed, executed <+: atomics ++ [atomic] → Safe (total executed) := by
  intro executed hprefix
  rcases List.prefix_concat_iff.mp hprefix with rfl | hprefix
  · simpa using hlast
  · exact h executed hprefix

section Guard

variable {guard guard' : DeliveryAttemptGuard} {atomics : List Atomic} (h : Balanced guard atomics)

include h

theorem Balanced.flags (hfinished : guard'.finished = guard.finished)
    (hhandoff : guard'.confirmedHandoff = guard.confirmedHandoff)
    (hrecorded : guard'.handlerSuccessRecorded = guard.handlerSuccessRecorded) :
    Balanced guard' atomics := by
  obtain ⟨hdeliveries, hinFlight, hendings, hended, hconfirmed, hsuccess, hsafe⟩ := h
  exact ⟨hdeliveries, hfinished ▸ hinFlight, hfinished ▸ hendings, hfinished ▸ hended,
    hhandoff ▸ hconfirmed, hrecorded ▸ hsuccess, hsafe⟩

/-- What is counted apart from the ends of deliveries. -/
theorem Balanced.note (hcounter : counter = .handlerSuccess ∨ counter = .retryConfirmed ∨
      counter = .deadLetterConfirmed) (hzero : total atomics counter = 0)
    (hfinished : guard'.finished = guard.finished)
    (hhandoff : total (atomics ++ [⟨counter, 1⟩]) .retryConfirmed +
        total (atomics ++ [⟨counter, 1⟩]) .deadLetterConfirmed =
      if guard'.confirmedHandoff.isSome then 1 else 0)
    (hsuccess : total (atomics ++ [⟨counter, 1⟩]) .handlerSuccess =
      if guard'.handlerSuccessRecorded then 1 else 0) :
    Balanced guard' (atomics ++ [⟨counter, 1⟩]) := by
  have hother : counter ≠ .ackedConfirmedHandoff := by
    rcases hcounter with rfl | rfl | rfl <;> decide
  have hlast := (h.safe _ List.prefix_rfl).count h.deliveries hzero (absurd · hother)
  refine ⟨?_, ?_, ?_, ?_, hhandoff, hsuccess, safe_concat h.safe hlast⟩
  · rw [total_append, Pi.add_apply, h.deliveries]
    rcases hcounter with rfl | rfl | rfl <;> rfl
  · rw [total_append, Pi.add_apply, h.inFlight, hfinished]
    rcases hcounter with rfl | rfl | rfl <;> simp [effect_apply]
  · rw [Telemetry.endings, List.filter_append, List.length_append]
    rw [hfinished, ← h.endings]
    rcases hcounter with rfl | rfl | rfl <;> rfl
  · rw [total_append, ended_add, h.ended, hfinished]
    rcases hcounter with rfl | rfl | rfl <;> simp [ended_effect, Counter.terminal]

theorem Balanced.open_total (hopen : guard.finished = false) {bucket : Counter}
    (hbucket : bucket.terminal = true) : total atomics bucket = 0 := by
  have hnone : Telemetry.endings atomics = [] := by
    have hlength := h.endings
    rw [hopen] at hlength
    exact List.eq_nil_of_length_eq_zero hlength
  refine total_eq_zero fun atomic hatomic heq => ?_
  have hnot := List.filter_eq_nil_iff.mp hnone atomic hatomic
  rw [heq] at hnot
  exact hnot hbucket

/-- A delivery that was not ended yet is ended in one bucket. -/
theorem Balanced.finish (hopen : guard.finished = false) {bucket : Counter}
    (hbucket : bucket.terminal = true)
    (hacked : bucket = .ackedConfirmedHandoff → guard.confirmedHandoff.isSome = true)
    (hfinished : guard'.finished = true)
    (hhandoff : guard'.confirmedHandoff = guard.confirmedHandoff)
    (hrecorded : guard'.handlerSuccessRecorded = guard.handlerSuccessRecorded) :
    Balanced guard' (atomics ++ endIn bucket) := by
  have hzero := h.open_total hopen hbucket
  have hflight : total atomics .inFlight = 1 := by
    rw [h.inFlight, hopen]
    rfl
  have hconfirmed := h.handoff
  have hsafe := h.safe _ List.prefix_rfl
  have hdown : Safe (total atomics + Atomic.effect ⟨.inFlight, -1⟩) := by
    refine ⟨fun counter => ?_, fun counter => ?_, ?_⟩
    · have hcounter := hsafe.nonneg counter
      rw [Pi.add_apply, effect_apply]
      split_ifs with heq
      · rw [heq, hflight]
        decide
      · simpa using hcounter
    · have hcounter := hsafe.bounded counter
      have hnone : Atomic.effect ⟨.inFlight, -1⟩ .deliveries = 0 := rfl
      have hless : Atomic.effect ⟨.inFlight, -1⟩ counter ≤ 0 := by
        cases counter <;> decide
      rw [Pi.add_apply, Pi.add_apply, hnone]
      omega
    · simpa [effect_apply] using hsafe.handoff
  have hup : Safe (total (atomics ++ [⟨.inFlight, -1⟩]) + Atomic.effect ⟨bucket, 1⟩) := by
    have hbefore : total (atomics ++ [⟨.inFlight, -1⟩]) =
        total atomics + Atomic.effect ⟨.inFlight, -1⟩ := by simp
    rw [hbefore]
    refine hdown.count ?_ ?_ fun hacknowledged => ?_
    · simpa [effect_apply] using h.deliveries
    · rw [Pi.add_apply, hzero]
      cases bucket <;> first | rfl | cases hbucket
    · rw [hacked hacknowledged] at hconfirmed
      simpa [effect_apply] using hconfirmed
  have hall := safe_concat (safe_concat h.safe hdown) hup
  rw [List.append_assoc] at hall
  refine ⟨?_, ?_, ?_, ?_, ?_, ?_, hall⟩
  · rw [total_append, Pi.add_apply, h.deliveries]
    cases bucket <;> first | rfl | cases hbucket
  · rw [total_append, Pi.add_apply, hflight, hfinished]
    cases bucket <;> first | rfl | cases hbucket
  · rw [Telemetry.endings, List.filter_append, List.length_append, hfinished]
    have hlength := h.endings
    rw [hopen, Telemetry.endings] at hlength
    rw [hlength]
    cases bucket <;> first | rfl | cases hbucket
  · rw [total_append, ended_add, h.ended, hopen, hfinished]
    cases bucket <;> first | rfl | cases hbucket
  · rw [total_append, Pi.add_apply, Pi.add_apply, hhandoff, ← hconfirmed]
    cases bucket <;> first | simp [endIn, effect_apply]; done | cases hbucket
  · rw [total_append, Pi.add_apply, h.success, hrecorded]
    cases bucket <;> first | simp [endIn, effect_apply]; done | cases hbucket

theorem Balanced.finishWith (bucket : Counter) (hbucket : bucket.terminal = true)
    (hacked : bucket = .ackedConfirmedHandoff → guard.confirmedHandoff.isSome = true)
    {commits : List LedgerCall} (hcommits : commits.flatMap LedgerCall.atomics = endIn bucket)
    (outcome : DeliveryTerminalOutcome) :
    Balanced (guard.finishWith commits outcome).1
      (atomics ++ (guard.finishWith commits outcome).2.flatMap LedgerCall.atomics) := by
  cases hfinished : guard.finished with
  | true => simpa [DeliveryAttemptGuard.finishWith, hfinished] using h
  | false =>
    have hcalls : (guard.finishWith commits outcome).2.flatMap LedgerCall.atomics =
        endIn bucket := by
      simp [DeliveryAttemptGuard.finishWith, hfinished, hcommits, LedgerCall.atomics]
    rw [hcalls]
    refine h.finish hfinished hbucket hacked ?_ ?_ ?_ <;>
      simp [DeliveryAttemptGuard.finishWith, hfinished]

theorem Balanced.noteSuccess (hrecorded : guard.handlerSuccessRecorded = false) :
    Balanced { guard with handlerSuccessRecorded := true }
      (atomics ++ [⟨.handlerSuccess, 1⟩]) := by
  have hzero : total atomics .handlerSuccess = 0 := by
    rw [h.success, hrecorded]
    rfl
  refine h.note (.inl rfl) hzero rfl ?_ ?_
  · simpa [effect_apply] using h.handoff
  · simp [effect_apply, hzero]

theorem Balanced.recordHandlerSuccess :
    Balanced guard.recordHandlerSuccess.1
      (atomics ++ guard.recordHandlerSuccess.2.flatMap LedgerCall.atomics) := by
  rw [DeliveryAttemptGuard.recordHandlerSuccess]
  split_ifs with hfinished hrecorded
  · simpa using h
  · simpa using h
  · exact h.noteSuccess (Bool.not_eq_true _ ▸ hrecorded)

theorem Balanced.recordConfirmedHandoff (retry : Bool) :
    Balanced (guard.recordConfirmedHandoff retry).1
      (atomics ++ (guard.recordConfirmedHandoff retry).2.flatMap LedgerCall.atomics) := by
  cases hfinished : guard.finished with
  | true => simpa [DeliveryAttemptGuard.recordConfirmedHandoff, hfinished] using h
  | false =>
    cases hhandoff : guard.confirmedHandoff with
    | some handoff =>
      simpa [DeliveryAttemptGuard.recordConfirmedHandoff, hfinished, hhandoff] using h
    | none =>
      have hnone : total atomics .retryConfirmed + total atomics .deadLetterConfirmed = 0 := by
        rw [h.handoff, hhandoff]
        rfl
      simp only [DeliveryAttemptGuard.recordConfirmedHandoff, hfinished, hhandoff,
        Bool.false_eq_true, if_false, Option.isSome_none]
      have hsafe := h.safe _ List.prefix_rfl
      have hretry := hsafe.nonneg .retryConfirmed
      have hdeadLetter := hsafe.nonneg .deadLetterConfirmed
      cases retry
      all_goals
        refine h.note (.inr (by simp)) (by omega) hfinished.symm ?_ ?_
        · simp only [total_append, total_cons, total_nil, Pi.add_apply, Pi.zero_apply,
            effect_apply, if_true, reduceCtorEq, if_false, Option.isSome_some]
          omega
        · simpa [effect_apply] using h.success

theorem Balanced.finishHandlerSuccessAck :
    Balanced guard.finishHandlerSuccessAck.1
      (atomics ++ guard.finishHandlerSuccessAck.2.flatMap LedgerCall.atomics) := by
  cases hfinished : guard.finished with
  | true =>
    simpa [DeliveryAttemptGuard.finishHandlerSuccessAck, DeliveryAttemptGuard.finishWith,
      hfinished] using h
  | false =>
    have hack : ∀ {before : List Atomic},
        Balanced { guard with handlerSuccessRecorded := true } before →
        Balanced { guard with finished := true, handlerSuccessRecorded := true }
          (before ++ endIn .ackedHandlerSuccess) :=
      fun hbefore => hbefore.finish hfinished rfl nofun rfl rfl rfl
    cases hrecorded : guard.handlerSuccessRecorded with
    | true =>
      simpa [DeliveryAttemptGuard.finishHandlerSuccessAck, DeliveryAttemptGuard.finishWith,
        hfinished, hrecorded, LedgerCall.atomics] using hack (h.flags rfl rfl hrecorded.symm)
    | false =>
      simpa [DeliveryAttemptGuard.finishHandlerSuccessAck, DeliveryAttemptGuard.finishWith,
        hfinished, hrecorded, LedgerCall.atomics] using hack (h.noteSuccess hrecorded)

theorem Balanced.finishConfirmedHandoffAck :
    Balanced guard.finishConfirmedHandoffAck.1
      (atomics ++ guard.finishConfirmedHandoffAck.2.flatMap LedgerCall.atomics) := by
  cases hhandoff : guard.confirmedHandoff with
  | none => simpa [DeliveryAttemptGuard.finishConfirmedHandoffAck, hhandoff] using h
  | some handoff =>
    have hsome : Counter.ackedConfirmedHandoff = .ackedConfirmedHandoff →
        guard.confirmedHandoff.isSome = true := fun _ => by rw [hhandoff]; rfl
    simp only [DeliveryAttemptGuard.finishConfirmedHandoffAck, hhandoff]
    cases handoff <;> exact h.finishWith .ackedConfirmedHandoff rfl hsome rfl _

/-- Every method leaves its guard balanced. -/
theorem Balanced.run (forced : Bool) (method : Method) :
    Balanced (method.run guard forced).1
      (atomics ++ (method.run guard forced).2.flatMap LedgerCall.atomics) := by
  cases method with
  | armForceRedelivery token =>
    rw [Method.run, DeliveryAttemptGuard.armForceRedelivery, List.flatMap_nil, List.append_nil]
    split_ifs
    · exact h
    · exact h.flags rfl rfl rfl
  | markSettlementStarted =>
    rw [Method.run, DeliveryAttemptGuard.markSettlementStarted, List.flatMap_nil,
      List.append_nil]
    split_ifs
    · exact h
    · exact h.flags rfl rfl rfl
  | recordHandlerSuccess => exact h.recordHandlerSuccess
  | finishHandlerSuccessAck => exact h.finishHandlerSuccessAck
  | recordConfirmedHandoff retry => exact h.recordConfirmedHandoff retry
  | finishConfirmedHandoffAck => exact h.finishConfirmedHandoffAck
  | finishBrokerDeadLetter | finishNackRequeue =>
    exact h.finishWith .nackedOrRequeued rfl nofun rfl _
  | finishBufferedPendingRedelivery => exact h.finishWith .bufferedPendingRedelivery rfl nofun rfl _
  | finishUnresolved => exact h.finishWith .unresolved rfl nofun rfl _
  | finishInterrupted =>
    rw [Method.run, DeliveryAttemptGuard.finishInterrupted]
    split_ifs
    · simpa using h
    · exact h.finishWith .bufferedPendingRedelivery rfl nofun rfl _
    · exact h.finishWith .unresolved rfl nofun rfl _
omit h

theorem Balanced.start (eventId : Option String) (deliveryAttempt : Nat) :
    Balanced (.start eventId deliveryAttempt) beginAtomics := by
  refine ⟨rfl, rfl, rfl, rfl, rfl, rfl, ?_⟩
  have hcounted : Safe (total [] + Atomic.effect ⟨.deliveries, 1⟩) := by
    refine ⟨fun counter => ?_, fun counter => ?_, le_refl _⟩ <;> cases counter <;> decide
  have hfirst : ∀ executed, executed <+: [] ++ [⟨.deliveries, 1⟩] → Safe (total executed) :=
    safe_concat (fun executed hprefix => List.prefix_nil.mp hprefix ▸ Safe.zero) hcounted
  exact safe_concat hfirst ((hfirst _ List.prefix_rfl).count rfl rfl nofun)

end Guard

open DeliveryAttemptGuard

/-! ## All guards -/

variable (task : GuardTask)

/-- The accesses to counters that a guard has asked for, and those it has made. -/
def GuardTask.issued : List Atomic :=
  match task.attempt with
  | none => []
  | some attempt => beginAtomics ++ attempt.calls.flatMap LedgerCall.atomics

def Entry.counted? : Entry → Option Atomic
  | .counted atomic => some atomic
  | _ => none

def GuardTask.share : DeliveryTerminalLedger :=
  total task.issued - total task.pending

def GuardTask.unfinished : Bool :=
  task.attempt.any fun attempt => !attempt.guard.finished

variable {attempt : Attempt}

theorem GuardTask.issued_call {task : GuardTask} (hattempt : task.attempt = some attempt)
    (forced : Bool) (method : Method) :
    (task.call attempt forced method).issued =
      task.issued ++ (task.call attempt forced method).pending := by
  simp only [GuardTask.issued, GuardTask.call, Attempt.apply, hattempt, List.flatMap_append,
    List.append_assoc]

/-- A move adds to the counters what it adds to the share of its guard. -/
theorem act_share (i : Nat) (event : Event) (s : Counters) (task : GuardTask) :
    (act i event s task).shared.ledger + task.share =
      s.ledger + (act i event s task).own.share := by
  have hcall : ∀ {attempt : Attempt} (forced dropped : Bool) (method : Method),
      task.attempt = some attempt → task.pending = [] →
      task.share =
        GuardTask.share { task.call attempt forced method with dropped := dropped } := by
    intro attempt forced dropped method hattempt hpending
    have hissued := GuardTask.issued_call hattempt forced method
    have hsame : GuardTask.issued { task.call attempt forced method with dropped := dropped } =
        (task.call attempt forced method).issued := rfl
    rw [GuardTask.share, GuardTask.share, hsame, hissued, total_append, hpending, total_nil]
    simp
  fun_cases act i event s task with
  | case1 token | case4 | case6 | case8 => rfl
  | case2 eventId deliveryAttempt hattempt hpending =>
    -- The accesses of a new guard are all pending.
    simp [GuardTask.share, GuardTask.issued, hattempt, hpending]
  | case3 atomic rest hpending =>
    have hissued : GuardTask.issued { task with pending := rest } = task.issued := rfl
    simp only [GuardTask.share, hissued, hpending, total_cons]
    abel
  | case5 forced method attempt hattempt hpending _ =>
    exact congrArg (s.ledger + ·) (hcall forced task.dropped method hattempt hpending)
  | case7 forced attempt hattempt hpending _ =>
    exact congrArg (s.ledger + ·) (hcall forced true .finishInterrupted hattempt hpending)

/-! ## Flags -/

theorem Method.entries_counted? (guard : DeliveryAttemptGuard) (forced : Bool) (method : Method) :
    (method.entries guard forced).filterMap Entry.counted? = [] := by
  cases method with
  | armForceRedelivery token | markSettlementStarted =>
    rw [Method.entries]
    split_ifs <;> rfl
  | finishInterrupted =>
    rw [Method.entries]
    cases (guard.finishInterrupted forced).2 <;> rfl
  | _ => rfl

theorem DeliveryAttemptGuard.finishWith_settlementStarted (guard : DeliveryAttemptGuard)
    (commits : List LedgerCall) (outcome : DeliveryTerminalOutcome) :
    (guard.finishWith commits outcome).1.settlementStarted = guard.settlementStarted := by
  rw [finishWith]
  split_ifs <;> rfl

theorem run_settlementStarted (guard : DeliveryAttemptGuard) (forced : Bool)
    (method : Method) :
    (method.run guard forced).1.settlementStarted =
      (guard.settlementStarted || .settlementStarted ∈ method.entries guard forced) := by
  have hfinish := guard.finishWith_settlementStarted
  cases method with
  | armForceRedelivery | markSettlementStarted | recordHandlerSuccess | finishHandlerSuccessAck
  | recordConfirmedHandoff =>
    simp only [Method.run, Method.entries, armForceRedelivery, markSettlementStarted,
      recordHandlerSuccess, finishHandlerSuccessAck, recordConfirmedHandoff]
    split_ifs <;> simp [hfinish]
  | finishConfirmedHandoffAck =>
    simp only [Method.run, Method.entries, finishConfirmedHandoffAck]
    split <;> simp [hfinish]
  | finishInterrupted =>
    simp only [Method.run, Method.entries, finishInterrupted]
    split_ifs <;> simp [finishBufferedPendingRedelivery, finishUnresolved, hfinish]
  | _ =>
    simp [Method.run, Method.entries, finishBrokerDeadLetter, finishNackRequeue,
      finishBufferedPendingRedelivery, finishUnresolved, hfinish]

/-- An interruption is left for redelivery only under a cancelled token, before settlement. -/
theorem entries_interrupted {guard : DeliveryAttemptGuard} {forced : Bool} {method : Method}
    (h : .interrupted .bufferedPendingRedelivery ∈ method.entries guard forced) :
    method.entries guard forced = [.interrupted .bufferedPendingRedelivery] ∧ forced = true ∧
      guard.settlementStarted = false := by
  cases method with
  | finishInterrupted =>
    simp only [Method.entries, finishInterrupted] at h ⊢
    split_ifs at h ⊢ with hfinished hforced
    · cases h
    · simp only [Bool.and_eq_true, Bool.not_eq_true'] at hforced
      exact ⟨rfl, hforced.1.2, hforced.2⟩
    · simp at h
  | armForceRedelivery token | markSettlementStarted =>
    rw [Method.entries] at h
    split_ifs at h <;> simp at h
  | _ => cases h

/-- What one guard has done, and what of it has reached the counters. -/
structure Kept (task : GuardTask) (log : List Entry) : Prop where
  counted : log.filterMap Entry.counted? ++ task.pending = task.issued
  balanced : ∀ attempt, task.attempt = some attempt → Balanced attempt.guard task.issued
  armed : ∀ token, task.token = some token → .armed token ∈ log
  started : .settlementStarted ∈ log →
    ∃ attempt, task.attempt = some attempt ∧ attempt.guard.settlementStarted = true
  closed : task.dropped = true →
    ∃ attempt, task.attempt = some attempt ∧ attempt.guard.finished = true

theorem Kept.initial : Kept {} [] := ⟨rfl, nofun, nofun, nofun, nofun⟩

section Kept

variable {task : GuardTask} {log : List Entry}

theorem Kept.call (h : Kept task log) (hattempt : task.attempt = some attempt)
    (hpending : task.pending = []) (hopen : ¬ task.dropped = true) (forced : Bool)
    (method : Method) :
    Kept (task.call attempt forced method) (log ++ method.entries attempt.guard forced) where
  counted := by
    have hcounted := h.counted
    rw [hpending, List.append_nil] at hcounted
    rw [List.filterMap_append, hcounted, Method.entries_counted?, List.append_nil,
      GuardTask.issued_call hattempt]
  balanced next hnext := by
    obtain rfl := Option.some.inj hnext
    rw [GuardTask.issued_call hattempt]
    exact (h.balanced attempt hattempt).run forced method
  armed token htoken := by
    cases method with
    | armForceRedelivery armed =>
      simp only [GuardTask.call] at htoken
      split_ifs at htoken with hfinished
      · exact List.mem_append_left _ (h.armed token htoken)
      · obtain rfl := Option.some.inj htoken
        simp [Method.entries, hfinished]
    | _ => exact List.mem_append_left _ (h.armed token htoken)
  started hmem := by
    refine ⟨_, rfl, ?_⟩
    rw [Attempt.apply, run_settlementStarted, Bool.or_eq_true]
    rcases List.mem_append.mp hmem with hbefore | hnow
    · obtain ⟨same, hsame, hstarted⟩ := h.started hbefore
      obtain rfl := Option.some.inj (hattempt.symm.trans hsame)
      exact .inl hstarted
    · exact .inr (decide_eq_true hnow)
  closed hdropped := absurd hdropped hopen

theorem finishInterrupted_finished (guard : DeliveryAttemptGuard) (forced : Bool) :
    (guard.finishInterrupted forced).1.1.finished = true := by
  cases hfinished : guard.finished with
  | true => simp [finishInterrupted, hfinished]
  | false =>
    simp only [finishInterrupted, hfinished, Bool.false_eq_true, if_false]
    split_ifs <;> simp [finishBufferedPendingRedelivery, finishUnresolved, finishWith, hfinished]

theorem Kept.drop (h : Kept task log) (hattempt : task.attempt = some attempt)
    (hpending : task.pending = []) (hopen : ¬ task.dropped = true) (forced : Bool) :
    Kept { task.call attempt forced .finishInterrupted with dropped := true }
      (log ++ Method.entries attempt.guard forced .finishInterrupted) := by
  obtain ⟨hcounted, hbalanced, harmed, hstarted, -⟩ :=
    h.call hattempt hpending hopen forced .finishInterrupted
  exact ⟨hcounted, hbalanced, harmed, hstarted, fun _ =>
    ⟨_, rfl, finishInterrupted_finished attempt.guard forced⟩⟩

/-- What a guard has done stays in step with its flags. -/
theorem Kept.act (h : Kept task log) (i : Nat) (event : Event) (s : Counters) :
    Kept (act i event s task).own (log ++ (act i event s task).emitted) := by
  fun_cases Telemetry.act i event s task with
  | case1 token =>
    refine ⟨?_, h.balanced, fun armed harmed => ?_, fun hmem => h.started ?_, h.closed⟩
    · have hnone : [Entry.signalled token].filterMap Entry.counted? = [] := rfl
      rw [List.filterMap_append, hnone, List.append_nil]
      exact h.counted
    · exact List.mem_append_left _ (h.armed armed harmed)
    · simpa using hmem
  | case2 eventId deliveryAttempt hattempt hpending =>
    have hissued : task.issued = [] := by rw [GuardTask.issued, hattempt]
    have hcounted := h.counted
    rw [hpending, hissued, List.append_nil] at hcounted
    refine ⟨?_, fun attempt hnext => ?_, fun armed harmed => ?_, fun hmem => ?_,
      fun hdropped => ?_⟩
    · simp [hcounted, GuardTask.issued]
    · obtain rfl := Option.some.inj hnext
      exact .start eventId deliveryAttempt
    · exact List.mem_append_left _ (h.armed armed harmed)
    · obtain ⟨attempt, hsome, -⟩ := h.started (by simpa using hmem)
      cases hattempt.symm.trans hsome
    · obtain ⟨attempt, hsome, -⟩ := h.closed hdropped
      cases hattempt.symm.trans hsome
  | case3 atomic rest hpending =>
    refine ⟨?_, h.balanced, fun armed harmed => ?_, fun hmem => h.started ?_, h.closed⟩
    · have hone : [Entry.counted atomic].filterMap Entry.counted? = [atomic] := rfl
      have hcounted := h.counted
      rw [hpending] at hcounted
      rw [List.filterMap_append, hone, List.append_assoc]
      exact hcounted
    · exact List.mem_append_left _ (h.armed armed harmed)
    · simpa using hmem
  | case5 forced method attempt hattempt hpending hopen =>
    exact h.call hattempt hpending hopen forced method
  | case7 forced attempt hattempt hpending hopen => exact h.drop hattempt hpending hopen forced
  | _ => simpa using h

/-- What a guard has added to the counters. -/
def executed (log : List Entry) : List Atomic := log.filterMap Entry.counted?

theorem Kept.share (h : Kept task log) : task.share = total (executed log) := by
  rw [GuardTask.share, ← h.counted, total_append, add_sub_cancel_right, executed]

theorem Kept.executed_prefix (h : Kept task log) : executed log <+: task.issued :=
  ⟨task.pending, h.counted⟩

theorem Kept.safe (h : Kept task log) : Safe task.share := by
  rw [h.share]
  cases hattempt : task.attempt with
  | none =>
    have hprefix := h.executed_prefix
    rw [GuardTask.issued, hattempt] at hprefix
    rw [List.prefix_nil.mp hprefix]
    exact .zero
  | some attempt => exact (h.balanced attempt hattempt).safe _ h.executed_prefix

/-- A guard between two methods. -/
theorem Kept.between (h : Kept task log) (hpending : task.pending = []) :
    task.share .deliveries = ended task.share + task.share .inFlight ∧
      task.share .inFlight = (if task.unfinished then 1 else 0) ∧
      (endings (executed log)).length =
        (if task.attempt.isSome && !task.unfinished then 1 else 0) := by
  have hcounted := h.counted
  rw [hpending, List.append_nil] at hcounted
  rw [h.share, executed, hcounted, GuardTask.unfinished]
  cases hattempt : task.attempt with
  | none =>
    rw [GuardTask.issued, hattempt]
    exact ⟨rfl, rfl, rfl⟩
  | some attempt =>
    have hbalanced := h.balanced attempt hattempt
    have hended := hbalanced.ended
    have hflight := hbalanced.inFlight
    have hendings := hbalanced.endings
    have hbalance : total task.issued .deliveries =
        ended (total task.issued) + total task.issued .inFlight := by
      rw [hbalanced.deliveries, hended, hflight]
      cases attempt.guard.finished <;> rfl
    refine ⟨hbalance, hflight.trans ?_, hendings.trans ?_⟩ <;>
      cases hfinished : attempt.guard.finished <;> simp [hfinished]

end Kept

/-- The force token that a guard is armed with has been cancelled, and settlement has not begun. -/
def Forced (log : List (Nat × Entry)) (i : Nat) : Prop :=
  (∃ token, (i, .armed token) ∈ log ∧ ∃ j, (j, .signalled token) ∈ log) ∧
    (i, .settlementStarted) ∉ log

/-- The invariant of all runs. -/
structure Sound (w : World Nat Counters GuardTask Entry) : Prop where
  kept : ∀ i, Kept (w.locals i) (w.logOf i)
  signalled : ∀ token ∈ w.shared.signalled, ∃ j, (j, .signalled token) ∈ w.log
  interrupted : ∀ before i after,
    w.log = before ++ (i, .interrupted .bufferedPendingRedelivery) :: after → Forced before i

theorem act_signalled {i : Nat} {event : Event} {s : Counters} {task : GuardTask} {token : Nat}
    (h : token ∈ (act i event s task).shared.signalled) :
    token ∈ s.signalled ∨ .signalled token ∈ (act i event s task).emitted := by
  revert h
  fun_cases act i event s task with
  | case1 cancelled =>
    intro h
    rcases List.mem_cons.mp h with rfl | hold
    · exact .inr List.mem_cons_self
    · exact .inl hold
  | _ => exact fun h => .inl h

theorem act_interrupted (i : Nat) {event : Event} {s : Counters} {task : GuardTask}
    (h : .interrupted .bufferedPendingRedelivery ∈ (act i event s task).emitted) :
    (act i event s task).emitted = [.interrupted .bufferedPendingRedelivery] ∧
      (∃ token, task.token = some token ∧ token ∈ s.signalled) ∧
      ∀ attempt, task.attempt = some attempt → attempt.guard.settlementStarted = false := by
  have hentries : ∀ (attempt : Attempt) (method : Method), task.attempt = some attempt →
      .interrupted .bufferedPendingRedelivery ∈
        method.entries attempt.guard (task.token.any fun token => token ∈ s.signalled) →
      method.entries attempt.guard (task.token.any fun token => token ∈ s.signalled) =
          [.interrupted .bufferedPendingRedelivery] ∧
        (∃ token, task.token = some token ∧ token ∈ s.signalled) ∧
        ∀ attempt, task.attempt = some attempt → attempt.guard.settlementStarted = false := by
    intro attempt method hattempt hmem
    obtain ⟨hone, hforced, hstarted⟩ := entries_interrupted hmem
    refine ⟨hone, ?_, fun same hsame => ?_⟩
    · simpa [Option.any_eq_true] using hforced
    · obtain rfl := Option.some.inj (hattempt.symm.trans hsame)
      exact hstarted
  revert h
  fun_cases act i event s task with
  | case1 token | case3 atomic rest hpending => intro h; simp at h
  | case5 forced method attempt hattempt hpending _ => exact hentries attempt method hattempt
  | case7 forced attempt hattempt hpending _ =>
    exact hentries attempt .finishInterrupted hattempt
  | _ => exact nofun

theorem Sound.step {w : World Nat Counters GuardTask Entry} (h : Sound w) (i : Nat)
    (event : Event) : Sound (guards.step w (i, event)) where
  kept j := guards.step_each j (I := fun _ => Kept) ((h.kept i).act i event w.shared)
    fun j _ => h.kept j
  signalled token htoken := by
    rw [guards.step_log]
    rcases act_signalled htoken with hold | hnew
    · obtain ⟨j, hmem⟩ := h.signalled token hold
      exact ⟨j, List.mem_append_left _ hmem⟩
    · exact ⟨i, List.mem_append_right _ (List.mem_map_of_mem hnew)⟩
  interrupted before j after hsplit := by
    rw [guards.step_log] at hsplit
    rcases Position.append_split hsplit with ⟨rest, hlog⟩ | ⟨middle, hbefore, hadded⟩
    · exact h.interrupted before j rest hlog
    · have hmem : (j, Entry.interrupted .bufferedPendingRedelivery) ∈
          (guards.act i event w.shared (w.locals i)).emitted.map (Prod.mk i) := by
        rw [hadded]
        simp
      obtain ⟨entry, hentry, heq⟩ := List.mem_map.mp hmem
      obtain ⟨rfl, rfl⟩ := Prod.mk.inj heq
      obtain ⟨hone, ⟨token, htoken, hsignalled⟩, hstarted⟩ := act_interrupted i hentry
      have hmiddle : middle = [] := by
        have hlength := congrArg List.length hadded
        have hshort : (guards.act i event w.shared (w.locals i)).emitted.length = 1 :=
          congrArg List.length hone
        simp only [List.length_map, hshort, List.length_append, List.length_cons] at hlength
        exact List.eq_nil_of_length_eq_zero (by omega)
      rw [hbefore, hmiddle, List.append_nil]
      refine ⟨⟨token, ?_, h.signalled token hsignalled⟩, fun hbegan => ?_⟩
      · exact World.mem_logOf.mp ((h.kept i).armed token htoken)
      · obtain ⟨attempt, hattempt, hset⟩ := (h.kept i).started (World.mem_logOf.mpr hbegan)
        rw [hstarted attempt hattempt] at hset
        cases hset

theorem sound_run (moves : List (Nat × Event)) : Sound (guards.run initial moves) := by
  refine guards.run_induct ⟨fun _ => .initial, nofun, fun before i after hsplit => ?_⟩
    (fun w i event h => h.step i event) moves
  exact absurd hsplit.symm (by simp [initial])

/-- The counters are the sum of the shares. -/
theorem ledger_run (moves : List (Nat × Event)) :
    (guards.run initial moves).shared.ledger =
      ∑ i ∈ (moves.map Prod.fst).toFinset, ((guards.run initial moves).locals i).share := by
  refine guards.run_sum act_share _ ?_ moves fun move hmove => ?_
  · exact (Finset.sum_eq_zero fun _ _ => sub_self _).symm
  · exact List.mem_toFinset.mpr (List.mem_map_of_mem hmove)

theorem isReconciled_of_balance {ledger : DeliveryTerminalLedger} (h : Safe ledger)
    (hbalance : ledger .deliveries = ended ledger + ledger .inFlight)
    (hbound : ledger .deliveries < 2 ^ 64) : isReconciled ledger = true := by
  have hsuccess := h.nonneg .ackedHandlerSuccess
  have hhandoff := h.nonneg .ackedConfirmedHandoff
  have hnacked := h.nonneg .nackedOrRequeued
  have hbuffered := h.nonneg .bufferedPendingRedelivery
  have hunresolved := h.nonneg .unresolved
  have hflight := h.nonneg .inFlight
  simp only [ended] at hbalance
  refine decide_eq_true ?_
  simp only [saturatingAdd]
  omega

/-- For all runs of all guards. -/
theorem ledger_reconciled (moves : List (Nat × Event)) :
    let world := guards.run initial moves
    let ledger := world.shared.ledger
    -- While no guard is in the middle of a commit, every delivery is in one place.
    ((∀ i, (world.locals i).pending = []) →
      ledger .deliveries = ended ledger + ledger .inFlight ∧
      (ledger .deliveries < 2 ^ 64 → isReconciled ledger = true) ∧
      ∃ unfinished : Finset Nat, ledger .inFlight = unfinished.card ∧
        ∀ i, i ∈ unfinished ↔ (world.locals i).unfinished = true) ∧
    -- A guard that has finished has put its delivery into one bucket, any other into none,
    -- and a guard that was dropped has finished.
    (∀ i, (world.locals i).pending = [] →
      (endings (executed (world.logOf i))).length =
        if (world.locals i).attempt.isSome && !(world.locals i).unfinished then 1 else 0) ∧
    (∀ i, (world.locals i).dropped = true →
      (world.locals i).attempt.isSome && !(world.locals i).unfinished) ∧
    -- At every moment, also within commits.
    (∀ counter, 0 ≤ ledger counter ∧ ledger counter ≤ ledger .deliveries) ∧
    ledger .ackedConfirmedHandoff ≤ ledger .retryConfirmed + ledger .deadLetterConfirmed ∧
    -- Interruptions.
    (∀ before i after,
      world.log = before ++ (i, .interrupted .bufferedPendingRedelivery) :: after →
        Forced before i) := by
  intro world ledger
  have h : Sound world := sound_run moves
  have hledger : ledger = ∑ i ∈ (moves.map Prod.fst).toFinset, (world.locals i).share :=
    ledger_run moves
  have hsafe : Safe ledger := by
    rw [hledger]
    exact Finset.sum_induction _ Safe (fun _ _ => Safe.add) .zero fun i _ => (h.kept i).safe
  have hclosed : ∀ i, (world.locals i).dropped = true →
      (world.locals i).attempt.isSome && !(world.locals i).unfinished := by
    intro i hdropped
    obtain ⟨attempt, hattempt, hfinished⟩ := (h.kept i).closed hdropped
    simp [GuardTask.unfinished, hattempt, hfinished]
  refine ⟨fun hpending => ?_, fun i hpending => ((h.kept i).between hpending).2.2, hclosed,
    fun counter => ⟨hsafe.nonneg counter, hsafe.bounded counter⟩, hsafe.handoff, h.interrupted⟩
  have hbetween := fun i => (h.kept i).between (hpending i)
  have hbalance : ledger .deliveries = ended ledger + ledger .inFlight := by
    rw [hledger]
    refine Finset.sum_induction _ (fun l => l .deliveries = ended l + l .inFlight) ?_ rfl
      fun i _ => (hbetween i).1
    intro a b ha hb
    simp only [Pi.add_apply, ended_add, ha, hb]
    omega
  refine ⟨hbalance, isReconciled_of_balance hsafe hbalance,
    (moves.map Prod.fst).toFinset.filter fun i => (world.locals i).unfinished, ?_, fun i => ?_⟩
  · rw [hledger, Finset.sum_apply, Finset.sum_congr rfl fun i _ => (hbetween i).2.1,
      Finset.sum_boole]
  · rw [Finset.mem_filter, List.mem_toFinset, and_iff_right_iff_imp]
    intro hunfinished
    by_contra hidle
    have hlocal : world.locals i = {} := guards.run_locals_idle initial hidle
    rw [hlocal] at hunfinished
    cases hunfinished

end Lily.Queue.Telemetry
