import Lily.Queue.Amqp.Handoff

/-!
# A delivery through its retry generations

A retryable failure publishes the delivery again with a retry count that is one
higher, until the configured number of attempts is reached; then, or at a permanent
failure, it is dead-lettered. `follow` computes the handoffs of one delivery for a
given sequence of failures. Between two generations the broker may add headers of
its own, such as the history of dead-lettering, but does not touch the framework's.
-/

namespace Lily.Queue.Amqp

open Settlement HandoffPlan

def identityHeaders : List String :=
  ["x-lily-event-id", "x-lily-schema-version", "x-lily-content-kind"]

/-- The way of a message from its publication to the next delivery. -/
structure Broker where
  deliver : FieldTable → FieldTable
  keeps : ∀ headers key, key ∈ "x-retry-count" :: identityHeaders →
    (deliver headers).lookup key = headers.lookup key

/-- One failed execution, with the trace context that is current at its handoff. -/
structure Failure where
  failureClass : FailureClass
  code : String
  injection : Injection

/-- The handoffs of a delivery, each with its plan and the headers it published. -/
def follow [UuidCrate] (retryAttempts : Nat) (broker : Broker) :
    FieldTable → List Failure → List (HandoffPlan × FieldTable)
  | _, [] => []
  | headers, failure :: rest =>
    match canonicalRetryCount (some headers) with
    | .error _ => []
    | .ok count =>
      let plan := forFailure failure.failureClass failure.code count retryAttempts
      match handoffHeaders headers plan failure.injection with
      | .error _ => []
      | .ok published =>
        (plan, published) ::
          if plan.destination = .retry then
            follow retryAttempts broker (broker.deliver published) rest
          else []

section Plan

variable (failureClass : FailureClass) (code : String) {count : Nat} (retryAttempts : Nat)

theorem forFailure_retry_iff :
    (forFailure failureClass code count retryAttempts).destination = .retry ↔
      failureClass = .retryable ∧ count < retryAttempts := by
  simp only [forFailure, ite_eq_left_iff, reduceCtorEq, imp_false, not_not,
    Bool.and_eq_true, beq_iff_eq, decide_eq_true_eq]

theorem saturatingAdd_eq {a b : Nat} (h : a + b ≤ u32Max) : saturatingAdd a b = a + b :=
  Nat.min_eq_left h

theorem forFailure_nextRetryCount_le (hcount : count ≤ retryAttempts) :
    (forFailure failureClass code count retryAttempts).nextRetryCount ≤
      retryAttempts := by
  simp only [forFailure, saturatingAdd]
  split_ifs with hretry
  · simp only [Bool.and_eq_true, decide_eq_true_eq] at hretry
    omega
  · exact hcount

/-- The counters of a plan, with no saturation in reach. -/
theorem forFailure_counters (hcount : count ≤ maxQueueRetryAttempts) :
    (forFailure failureClass code count retryAttempts).currentRetryCount = count ∧
    (forFailure failureClass code count retryAttempts).deliveryAttempt = count + 1 ∧
    ((forFailure failureClass code count retryAttempts).destination = .retry →
      (forFailure failureClass code count retryAttempts).nextRetryCount =
        count + 1) := by
  have hsmall : count + 1 ≤ u32Max := by
    unfold maxQueueRetryAttempts at hcount
    unfold u32Max
    omega
  refine ⟨rfl, saturatingAdd_eq hsmall, fun hretry => ?_⟩
  rw [forFailure_retry_iff] at hretry
  simp [forFailure, hretry, saturatingAdd_eq hsmall]

theorem forFailure_nextRetryCount (hcount : count ≤ maxQueueRetryAttempts) :
    (forFailure failureClass code count retryAttempts).nextRetryCount =
      if (forFailure failureClass code count retryAttempts).destination = .retry
        then count + 1 else count := by
  split_ifs with hretry
  · exact (forFailure_counters failureClass code retryAttempts hcount).2.2 hretry
  · rw [forFailure_retry_iff] at hretry
    simp only [forFailure]
    rw [if_neg (by simpa using hretry)]

/-- A plan made from the delivery's own count is consistent with its headers. -/
theorem forFailure_consistent {headers : FieldTable}
    (hheaders : canonicalRetryCount (some headers) = .ok count) (hcount : count ≤ retryAttempts)
    (hattempts : retryAttempts ≤ maxQueueRetryAttempts) :
    Consistent headers (.forFailure failureClass code count retryAttempts) := by
  have hnext := forFailure_nextRetryCount_le failureClass code retryAttempts hcount
  obtain ⟨hcurrent, hattempt, -⟩ :=
    forFailure_counters failureClass code retryAttempts (hcount.trans hattempts)
  unfold maxQueueRetryAttempts at hattempts
  refine ⟨by rw [hheaders, hcurrent], ?_, ?_⟩
  · unfold i32Max
    omega
  · rw [hattempt]
    unfold i32Max
    omega

end Plan

/-- The plan for a failure of a delivery with the given retry count: a dead letter for a
permanent failure or when the attempts are used up, and a retry with the next count otherwise. -/
structure Planned (retryAttempts count : Nat) (failure : Failure) (plan : HandoffPlan) : Prop where
  policy : plan = forFailure failure.failureClass failure.code count retryAttempts
  failureClass : plan.failureClass = failure.failureClass
  failureCode : plan.failureCode = failure.code
  deadLetter_iff : plan.destination = .deadLetter ↔
    failure.failureClass = .permanent ∨ count = retryAttempts
  currentRetryCount : plan.currentRetryCount = count
  nextRetryCount : plan.nextRetryCount = if plan.destination = .retry then count + 1 else count
  deliveryAttempt : plan.deliveryAttempt = count + 1

theorem planned_forFailure {retryAttempts count : Nat} (failure : Failure)
    (hcount : count ≤ retryAttempts) (hattempts : retryAttempts ≤ maxQueueRetryAttempts) :
    Planned retryAttempts count failure
      (.forFailure failure.failureClass failure.code count retryAttempts) := by
  refine ⟨rfl, rfl, rfl, ?_, rfl, forFailure_nextRetryCount _ _ _ (hcount.trans hattempts),
    (forFailure_counters _ _ _ (hcount.trans hattempts)).2.1⟩
  cases hclass : failure.failureClass with
  | permanent => simp [forFailure]
  | retryable =>
    simp only [forFailure, BEq.rfl, Bool.true_and, decide_eq_true_eq, ite_eq_right_iff,
      reduceCtorEq, imp_false, false_or]
    omega

/-- What the handoffs of a delivery that starts with the given headers and retry count
have in common, and where they end. -/
structure Generations [UuidCrate] (retryAttempts : Nat) (broker : Broker) (headers : FieldTable)
    (count : Nat) (failures : List Failure) (handoffs : List (HandoffPlan × FieldTable)) :
    Prop where
  planned : ∀ i handoff, handoffs[i]? = some handoff →
    ∃ failure, failures[i]? = some failure ∧ Planned retryAttempts (count + i) failure handoff.1
  readBack : ∀ handoff ∈ handoffs, handoff.1.destination = .retry →
    handoff.1.nextRetryCount = handoff.1.currentRetryCount + 1 ∧
      canonicalRetryCount (some (broker.deliver handoff.2)) = .ok handoff.1.nextRetryCount
  bounded : ∀ handoff ∈ handoffs, handoff.1.nextRetryCount ≤ retryAttempts
  identity : ∀ handoff ∈ handoffs, ∀ key ∈ identityHeaders,
    handoff.2.lookup key = headers.lookup key
  retries : (handoffs.filter fun handoff => handoff.1.destination = .retry).length ≤
    retryAttempts - count
  deadLetterLast : ∀ handoff ∈ handoffs.dropLast, handoff.1.destination = .retry
  ends : handoffs.length = failures.length ∨
    (∃ handoff ∈ handoffs.getLast?, handoff.1.destination = .deadLetter) ∨
    ∃ failure, failures[handoffs.length]? = some failure ∧
      ¬ Publishable headers failure.injection
        (forFailure failure.failureClass failure.code (count + handoffs.length)
          retryAttempts).destination

section Extend

variable {retryAttempts : Nat} {broker : Broker} {headers published : FieldTable} {count : Nat}
  {failure : Failure} {failures : List Failure} {plan : HandoffPlan}
  {handoffs : List (HandoffPlan × FieldTable)}

theorem HandedOff.identity (h : HandedOff headers plan published) {key : String}
    (hkey : key ∈ identityHeaders) : published.lookup key = headers.lookup key := by
  refine h.other key ?_
  revert key
  decide

variable [UuidCrate]

theorem Generations.nil (h : ∀ failure ∈ failures.head?, ¬ Publishable headers failure.injection
      (forFailure failure.failureClass failure.code count retryAttempts).destination) :
    Generations retryAttempts broker headers count failures [] := by
  refine ⟨by simp, by simp, by simp, by simp, by simp, by simp, ?_⟩
  cases failures with
  | nil => exact .inl rfl
  | cons failure rest => exact .inr (.inr ⟨failure, rfl, h failure rfl⟩)

theorem Generations.deadLetter (hplanned : Planned retryAttempts count failure plan)
    (hplan : plan.destination = .deadLetter) (hcount : count ≤ retryAttempts)
    (handed : HandedOff headers plan published) :
    Generations retryAttempts broker headers count (failure :: failures) [(plan, published)] := by
  have hnext : plan.nextRetryCount = count := by simp [hplanned.nextRetryCount, hplan]
  refine ⟨?_, by simp [hplan], by simpa [hnext] using hcount, ?_, by simp [hplan], by simp,
    .inr (.inl ⟨_, rfl, hplan⟩)⟩
  · rintro (_ | i) handoff hhandoff
    · cases hhandoff
      exact ⟨failure, rfl, hplanned⟩
    · simp at hhandoff
  · simpa using fun key hkey => handed.identity hkey

theorem Generations.retry (hplanned : Planned retryAttempts count failure plan)
    (hplan : plan.destination = .retry) (hcount : count < retryAttempts)
    (handed : HandedOff headers plan published)
    (hread : canonicalRetryCount (some (broker.deliver published)) = .ok plan.nextRetryCount)
    (h : Generations retryAttempts broker (broker.deliver published) (count + 1) failures
      handoffs) :
    Generations retryAttempts broker headers count (failure :: failures)
      ((plan, published) :: handoffs) := by
  have hnext : plan.nextRetryCount = count + 1 := by simp [hplanned.nextRetryCount, hplan]
  have hidentity : ∀ key ∈ identityHeaders,
      (broker.deliver published).lookup key = headers.lookup key := fun key hkey => by
    rw [broker.keeps published key (List.mem_cons_of_mem _ hkey), handed.identity hkey]
  refine ⟨?_, ?_, ?_, ?_, ?_, ?_, ?_⟩
  · rintro (_ | i) handoff hhandoff
    · cases hhandoff
      exact ⟨failure, rfl, hplanned⟩
    · rw [Nat.add_comm i 1, ← Nat.add_assoc, Nat.add_comm 1 i]
      exact h.planned i handoff hhandoff
  · rw [List.forall_mem_cons]
    exact ⟨fun _ => ⟨by rw [hnext, hplanned.currentRetryCount], hread⟩, h.readBack⟩
  · rw [List.forall_mem_cons]
    exact ⟨hnext ▸ hcount, h.bounded⟩
  · rw [List.forall_mem_cons]
    refine ⟨fun key hkey => handed.identity hkey, fun handoff hmem key hkey => ?_⟩
    rw [h.identity handoff hmem key hkey, hidentity key hkey]
  · have hretries := h.retries
    rw [List.filter_cons_of_pos (by simpa using hplan), List.length_cons]
    omega
  · cases handoffs with
    | nil => simp
    | cons next rest =>
      rw [List.dropLast_cons_cons, List.forall_mem_cons]
      exact ⟨hplan, h.deadLetterLast⟩
  · rcases h.ends with hall | ⟨handoff, hlast, hdead⟩ | ⟨next, hfailure, hnot⟩
    · exact .inl (by simp [hall])
    · exact .inr (.inl ⟨handoff, List.mem_getLast?_cons hlast, hdead⟩)
    · refine .inr (.inr ⟨next, hfailure, ?_⟩)
      -- The event id that routes a retry is one of the identity headers.
      rw [publishable_congr (hidentity "x-lily-event-id" (by decide))] at hnot
      rwa [List.length_cons, Nat.add_comm _ 1, ← Nat.add_assoc]

end Extend

theorem Broker.canonicalRetryCount (broker : Broker) (headers : FieldTable) :
    Amqp.canonicalRetryCount (some (broker.deliver headers)) =
      Amqp.canonicalRetryCount (some headers) := by
  simp [Amqp.canonicalRetryCount, broker.keeps headers "x-retry-count" (by simp)]

/-- Every chain of handoffs is of that form; the induction is over the failures, and
the count moves one closer to the bound with every retry. -/
theorem generations_follow [UuidCrate] {retryAttempts : Nat} (broker : Broker)
    (hattempts : retryAttempts ≤ maxQueueRetryAttempts) {headers : FieldTable} {count : Nat}
    (hheaders : canonicalRetryCount (some headers) = .ok count) (hcount : count ≤ retryAttempts)
    (failures : List Failure) :
    Generations retryAttempts broker headers count failures
      (follow retryAttempts broker headers failures) := by
  induction failures generalizing headers count with
  | nil => exact .nil (by simp)
  | cons failure rest ih =>
    have hplanned := planned_forFailure failure hcount hattempts
    have hconsistent := forFailure_consistent failure.failureClass failure.code retryAttempts
      hheaders hcount hattempts
    set plan := forFailure failure.failureClass failure.code count retryAttempts
      with hplan
    cases hpublished : handoffHeaders headers plan failure.injection with
    | error error =>
      simp only [follow, hheaders, ← hplan, hpublished]
      refine .nil fun first hfirst hpublishable => ?_
      cases hfirst
      obtain ⟨published, hok⟩ := exists_handoffHeaders_iff.mpr ⟨hconsistent, hpublishable⟩
      cases hpublished.symm.trans hok
    | ok published =>
      simp only [follow, hheaders, ← hplan, hpublished]
      have handed := handoffHeaders_handedOff hpublished
      split_ifs with hretry
      · obtain ⟨-, hlt⟩ :=
          (forFailure_retry_iff failure.failureClass failure.code retryAttempts).mp hretry
        have hnext : plan.nextRetryCount = count + 1 := by simp [hplanned.nextRetryCount, hretry]
        have hread : canonicalRetryCount (some (broker.deliver published)) =
            .ok plan.nextRetryCount := by
          rw [broker.canonicalRetryCount]
          exact handed.canonicalRetryCount (by omega)
        exact .retry hplanned hretry hlt handed hread (ih (by rw [hread, hnext]) hlt)
      · have hdead : plan.destination = .deadLetter := by
          cases hdestination : plan.destination with
          | retry => exact absurd hdestination hretry
          | deadLetter => rfl
        exact .deadLetter hplanned hdead hcount handed

end Lily.Queue.Amqp
