import Lily.Queue.Amqp.Generations
import Lily.Queue.Topology.Agreement

/-!
# Bounded retries under an accepted setting

The number of retries comes from a queue setting, whose validator keeps it within the
range that a retry count can be read back in. Under such a setting a delivery moves
through its generations without any counter leaving its range.
-/

namespace Lily.Queue.Amqp

open Settlement Lily.Queue.Topology

/-- The deliveries of a chain with the retry counts they stand for: the first one, and
one for every retry. -/
def deliveries (broker : Broker) (headers : FieldTable) (count : Nat)
    (handoffs : List (HandoffPlan × FieldTable)) : List (FieldTable × Nat) :=
  (headers, count) :: (handoffs.filter fun handoff => handoff.1.destination = .retry).map
    fun handoff => (broker.deliver handoff.2, handoff.1.nextRetryCount)

/-- A delivery whose retry count is read as planned, and for which every failure has a
handoff with exact counters. -/
structure Bounded (retryAttempts : Nat) (delivery : FieldTable × Nat) : Prop where
  readBack : canonicalRetryCount (some delivery.1) = .ok delivery.2
  count : delivery.2 ≤ retryAttempts
  materializes : ∀ failureClass code,
    let plan := HandoffPlan.forFailure failureClass code delivery.2 retryAttempts
    plan.deliveryAttempt = delivery.2 + 1 ∧
      plan.nextRetryCount = (if plan.destination = .retry then delivery.2 + 1 else delivery.2) ∧
      materializeHandoffMetadata delivery.1 plan = (writeHandoff delivery.1 plan, .ok ())

variable {retryAttempts count : Nat} {broker : Broker} {headers : FieldTable}
  {failures : List Failure} {handoffs : List (HandoffPlan × FieldTable)}

theorem bounded_of_readBack (hattempts : retryAttempts ≤ maxQueueRetryAttempts)
    (hheaders : canonicalRetryCount (some headers) = .ok count) (hcount : count ≤ retryAttempts) :
    Bounded retryAttempts (headers, count) := by
  refine ⟨hheaders, hcount, fun failureClass code => ?_⟩
  have hcounters := forFailure_counters failureClass code retryAttempts (hcount.trans hattempts)
  have hplan := forFailure_consistent failureClass code retryAttempts hheaders hcount hattempts
  refine ⟨hcounters.2.1, forFailure_nextRetryCount _ _ _ (hcount.trans hattempts), ?_⟩
  rcases materializeHandoffMetadata_cases headers
    (.forFailure failureClass code count retryAttempts) with ⟨-, heq⟩ | ⟨hinconsistent, -⟩
  · exact heq
  · exact absurd hplan hinconsistent

theorem Generations.bounded_deliveries [UuidCrate]
    (h : Generations retryAttempts broker headers count failures handoffs)
    (hattempts : retryAttempts ≤ maxQueueRetryAttempts)
    (hheaders : canonicalRetryCount (some headers) = .ok count) (hcount : count ≤ retryAttempts) :
    ∀ delivery ∈ deliveries broker headers count handoffs, Bounded retryAttempts delivery := by
  rw [deliveries, List.forall_mem_cons]
  refine ⟨bounded_of_readBack hattempts hheaders hcount, fun delivery hdelivery => ?_⟩
  obtain ⟨handoff, hmem, rfl⟩ := List.mem_map.mp hdelivery
  obtain ⟨hhandoff, hretry⟩ := List.mem_filter.mp hmem
  have hread := h.readBack handoff hhandoff (by simpa using hretry)
  exact bounded_of_readBack hattempts hread.2 (h.bounded handoff hhandoff)

/-- Retries under a setting that the consumer accepts: the chain of handoffs, its counters
in every delivery, and the caller's headers when a handoff cannot be materialized. -/
theorem retries_bounded [UuidCrate] {definition : Config.QueueDefinition}
    {setting : QueueRuntimeSetting}
    (hsetting : QueueRuntimeSetting.fromDefinition definition = .ok setting) (broker : Broker)
    {headers : FieldTable} {count : Nat} (hheaders : canonicalRetryCount (some headers) = .ok count)
    (hcount : count ≤ setting.retryAttempts) (failures : List Failure) :
    Generations setting.retryAttempts broker headers count failures
        (follow setting.retryAttempts broker headers failures) ∧
      (∀ delivery ∈ deliveries broker headers count
          (follow setting.retryAttempts broker headers failures),
        Bounded setting.retryAttempts delivery) ∧
      ∀ table plan error, (materializeHandoffMetadata table plan).2 = .error error →
        (materializeHandoffMetadata table plan).1 = table := by
  obtain ⟨hvalid, retention, -, rfl⟩ := fromDefinition_ok_iff.mp hsetting
  have hgenerations := generations_follow broker hvalid.retryAttempts hheaders hcount failures
  refine ⟨hgenerations, ?_, fun table plan error herror => ?_⟩
  · exact hgenerations.bounded_deliveries hvalid.retryAttempts hheaders hcount
  · rcases materializeHandoffMetadata_cases table plan with ⟨-, heq⟩ | ⟨-, _, heq⟩
    · rw [heq] at herror
      cases herror
    · rw [heq]

open scoped Hyphenated

/-- A broker that adds nothing. -/
def plainBroker : Broker := ⟨id, fun _ _ _ => rfl⟩

/-- Five timeouts under three attempts: the fourth is dead-lettered and the fifth not reached. -/
theorem retries_bounded_orders :
    ∃ setting, QueueRuntimeSetting.fromDefinition orders = .ok setting ∧
      let headers := (∅ : FieldTable).insert "x-lily-event-id"
        (.longString (.utf8 "0190a1b2-c3d4-7e5f-8a9b-0c1d2e3f4a5b"))
      let failures := List.replicate 5 ⟨.retryable, "timeout", []⟩
      (follow setting.retryAttempts plainBroker headers failures).map (·.1.destination) =
          [.retry, .retry, .retry, .deadLetter] ∧
        Generations setting.retryAttempts plainBroker headers 0 failures
          (follow setting.retryAttempts plainBroker headers failures) := by
  have haccepted : (QueueRuntimeSetting.fromDefinition orders).isOk = true := by decide
  cases hsetting : QueueRuntimeSetting.fromDefinition orders with
  | error error =>
    rw [hsetting] at haccepted
    cases haccepted
  | ok setting =>
    refine ⟨setting, rfl, ?_, (retries_bounded hsetting plainBroker (by decide)
      (Nat.zero_le _) _).1⟩
    obtain ⟨-, retention, -, rfl⟩ := fromDefinition_ok_iff.mp hsetting
    rw [show (runtimeSetting orders retention).retryAttempts = 3 from rfl]
    decide

end Lily.Queue.Amqp
