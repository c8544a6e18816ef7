import Lily.Config.Topology.Plan

/-!
# What the compiler accepts

An accepted definition satisfies every bound of the validator, and an accepted plan is
the expansion of its definitions, in which no physical queue name occurs twice.
-/

namespace Lily.Config

open Validation RabbitMqQueueTopologyPlan

/-! ## Definitions -/

/-- The bounds on one definition. -/
structure ValidDefinition (definition : QueueDefinition) : Prop where
  identities : ∀ field ∈ definition.identities, ∀ value ∈ field.2, identityIsValid value = true
  notExclusive : definition.exclusive = false
  destinations : definition.topologyOwnership = .external →
    ∀ field ∈ definition.destinations, field.2 = true
  concurrency : 1 ≤ definition.concurrency ∧ definition.concurrency ≤ maxQueueConcurrency
  prefetch : 1 ≤ definition.prefetchCount ∧ definition.prefetchCount ≤ maxQueuePrefetch
  buffer : ¬ (definition.bufferCapacity = 0 ∨
    definition.prefetchCount < definition.bufferCapacity)
  messageSize : 1 ≤ definition.maxMessageSizeBytes ∧
    definition.maxMessageSizeBytes ≤ maxQueueMessageSizeBytes
  retryAttempts : definition.retryAttempts ≤ maxQueueRetryAttempts
  jitter : definition.retryJitterRatio.isFinite = true ∧ 0.0 ≤ definition.retryJitterRatio ∧
    definition.retryJitterRatio ≤ 0.5
  backoff : (100 ≤ definition.baseMillis ∧ definition.baseMillis ≤ 300000) ∧
    definition.baseMillis ≤ definition.capMillis ∧ definition.capMillis ≤ 900000
  executionTimeout : 100 ≤ definition.deliveryExecutionTimeoutMillis.getD 30000 ∧
    definition.deliveryExecutionTimeoutMillis.getD 30000 ≤ 900000
  settlementTimeout : 1 ≤ definition.settlementTimeoutMillis.getD 5000 ∧
    definition.settlementTimeoutMillis.getD 5000 ≤ 60000
  messageTtl : definition.messageTtlMs ≠ some 0
  retention : ∃ retention, definition.retention = some retention ∧
    ∀ limit ∈ retention.limits, ¬ (limit.2 = 0 ∨ i64Max < limit.2)
  queueType : validateQueueType definition = .ok ()

variable {definition : QueueDefinition} {u : Unit}

theorem validateDestinations_ok_iff :
    validateDestinations definition = .ok u ↔ (definition.topologyOwnership = .external →
      ∀ field ∈ definition.destinations, field.2 = true) := by
  unfold validateDestinations
  split_ifs with hexternal <;> simp [hexternal]

theorem validateRetention_ok_iff :
    validateRetention definition = .ok u ↔ ∃ retention, definition.retention = some retention ∧
      ∀ limit ∈ retention.limits, ¬ (limit.2 = 0 ∨ i64Max < limit.2) := by
  unfold validateRetention
  cases definition.retention with
  | none => simp
  | some retention => simp only [ensureAll_ok_iff, Option.some.injEq, exists_eq_left']

theorem validateDefinition_ok_iff :
    validateDefinition definition = .ok u ↔ ValidDefinition definition := by
  simp only [validateDefinition, bind_ok_iff, ensureAll_ok_iff, ensurePolicy, ensure_ok_iff,
    validateDestinations_ok_iff, validateRetention_ok_iff]
  constructor
  · rintro ⟨_, hidentities, _, hexclusive, _, hdestinations, _, hconcurrency, _, hprefetch, _,
      hbuffer, _, hsize, _, hattempts, _, hjitter, _, hbackoff, _, hexecution, _, hsettlement, _,
      httl, _, hretention, htype⟩
    exact ⟨hidentities, by simpa using hexclusive, hdestinations, hconcurrency, hprefetch, hbuffer,
      hsize, hattempts, hjitter, hbackoff, hexecution, hsettlement, httl, hretention, htype⟩
  · intro h
    exact ⟨(), h.identities, (), by simp [h.notExclusive], (), h.destinations, (), h.concurrency,
      (), h.prefetch, (), h.buffer, (), h.messageSize, (), h.retryAttempts, (), h.jitter, (),
      h.backoff, (), h.executionTimeout, (), h.settlementTimeout, (), h.messageTtl, (),
      h.retention, h.queueType⟩

/-! ## Delays -/

theorem mem_foldl_pushNew {delay : Nat} {delays candidates : List Nat} :
    delay ∈ delays.foldl pushNew candidates ↔ delay ∈ candidates ∨ delay ∈ delays := by
  induction delays generalizing candidates with
  | nil => simp
  | cons first rest ih =>
    rw [List.foldl_cons, ih, pushNew, List.mem_cons]
    split_ifs with hold
    · rw [List.contains_iff_mem] at hold
      grind
    · rw [List.mem_append, List.mem_singleton, or_assoc]

theorem le_clamp_le {low high : Nat} (h : low ≤ high) (value : Nat) :
    low ≤ clamp value low high ∧ clamp value low high ≤ high := by
  unfold clamp
  split_ifs <;> omega

theorem mem_attemptDelays_bounds (h : ValidDefinition definition) {retryCount delay : Nat}
    (hdelay : delay ∈ attemptDelays definition retryCount) :
    definition.baseMillis ≤ delay ∧ delay ≤ definition.capMillis := by
  rw [attemptDelays, mem_foldl_pushNew, List.mem_map] at hdelay
  rcases hdelay with hnil | ⟨candidate, -, rfl⟩
  · cases hnil
  · exact le_clamp_le h.backoff.2.1 candidate

theorem attemptDelays_ne_nil (definition : QueueDefinition) (retryCount : Nat) :
    attemptDelays definition retryCount ≠ [] :=
  List.ne_nil_of_mem (mem_foldl_pushNew.mpr (.inr List.mem_cons_self))

theorem mem_retryBuckets_iff {bucket : RabbitMqRetryBucketPlan} :
    bucket ∈ (queueTopologyPlan definition).retryBuckets ↔
      ∃ retryCount delay, 1 ≤ retryCount ∧ retryCount ≤ definition.retryAttempts ∧
        delay ∈ attemptDelays definition retryCount ∧
        bucket = retryBucketPlan definition delay := by
  simp only [queueTopologyPlan, retryBucketDelays, retryBucketDelaysByAttempt, List.mem_map,
    Collection.mem_orderedSet, List.mem_flatten, List.mem_range]
  constructor
  · rintro ⟨delay, ⟨_, ⟨index, hindex, rfl⟩, hdelay⟩, rfl⟩
    exact ⟨index + 1, delay, by omega, by omega, hdelay, rfl⟩
  · rintro ⟨retryCount, delay, hpos, hle, hdelay, rfl⟩
    refine ⟨delay, ⟨_, ⟨retryCount - 1, by omega, rfl⟩, ?_⟩, rfl⟩
    rwa [Nat.sub_add_cancel hpos]

/-! ## Plans -/

theorem RabbitMqQueueTopologyPlan.compile_eq {queue : RabbitMqQueueTopologyPlan}
    (h : compile definition = .ok queue) : queue = queueTopologyPlan definition := by
  simp only [compile, bind_ok_iff] at h
  obtain ⟨-, -, -, -, -, -, -, -, -, -, -, -, hqueue⟩ := h
  cases hqueue
  rfl

theorem registerPhysicalQueue_foldlM {names start final : List String}
    (h : names.foldlM registerPhysicalQueue start = .ok final) (hstart : start.Nodup) :
    final = names.reverse ++ start ∧ final.Nodup := by
  refine foldlM_invariant (P := fun done queues => queues = done.reverse ++ start ∧ queues.Nodup) h
    ⟨rfl, hstart⟩ ?_
  rintro done name rest queues queues' - ⟨hqueues, hnodup⟩ hstep
  unfold registerPhysicalQueue at hstep
  split_ifs at hstep with hnew
  cases hstep
  exact ⟨by simp [hqueues], List.nodup_cons.mpr ⟨hnew, hnodup⟩⟩

/-- The plans of valid definitions with distinct names, in order. -/
structure Compiled (definitions : List QueueDefinition) (queues : List RabbitMqQueueTopologyPlan) :
    Prop where
  queues_eq : queues = definitions.map queueTopologyPlan
  valid : ∀ definition ∈ definitions, ValidDefinition definition
  names : (definitions.map QueueDefinition.name).Nodup
  physical : (queues.flatMap physicalQueueNames).Nodup

/-- What one step of the compiler has checked and recorded. -/
theorem compileDefinition_ok {state state' : Compilation}
    (h : compileDefinition state definition = .ok state') :
    definition.name ∉ state.logicalQueues ∧ ValidDefinition definition ∧
      (queueTopologyPlan definition).physicalQueueNames.foldlM registerPhysicalQueue
        state.physicalQueues = .ok state'.physicalQueues ∧
      state'.logicalQueues = definition.name :: state.logicalQueues ∧
      state'.queues = state.queues ++ [queueTopologyPlan definition] := by
  simp only [compileDefinition, bind_ok_iff, ensure_ok_iff, validateDefinition_ok_iff] at h
  obtain ⟨_, hname, _, hvalid, queue, hqueue, _, -, _, -, physicalQueues, hphysical,
    hstate⟩ := h
  cases compile_eq hqueue
  cases hstate
  exact ⟨hname, hvalid, hphysical, rfl, rfl⟩

theorem Compiled.snoc {definitions : List QueueDefinition} {queues : List RabbitMqQueueTopologyPlan}
    (h : Compiled definitions queues) (hvalid : ValidDefinition definition)
    (hname : definition.name ∉ definitions.map QueueDefinition.name)
    (hphysical : ((queues ++ [queueTopologyPlan definition]).flatMap
      physicalQueueNames).Nodup) :
    Compiled (definitions ++ [definition]) (queues ++ [queueTopologyPlan definition]) := by
  refine ⟨by simp [h.queues_eq], ?_, ?_, hphysical⟩
  · intro other hother
    rcases List.mem_append.mp hother with hold | hnew
    · exact h.valid other hold
    · rw [List.mem_singleton] at hnew
      exact hnew ▸ hvalid
  · rw [List.map_append, List.nodup_append]
    refine ⟨h.names, List.nodup_singleton _, ?_⟩
    rintro name hold _ hnew rfl
    simp only [List.map_cons, List.map_nil, List.mem_singleton] at hnew
    exact hname (hnew ▸ hold)

theorem compile_compiled {config : RabbitMqTopologyConfig} {plan : RabbitMqTopologyPlan}
    (h : RabbitMqTopologyPlan.compile config = .ok plan) : Compiled config.queues plan.queues := by
  obtain ⟨state, hloop, hplan⟩ := bind_ok_iff.mp h
  cases hplan
  refine (foldlM_invariant (P := fun definitions state => Compiled definitions state.queues ∧
    state.logicalQueues = (definitions.map QueueDefinition.name).reverse ∧
    state.physicalQueues =
      (state.queues.flatMap physicalQueueNames).reverse)
    hloop ⟨⟨rfl, by simp, by simp, by simp⟩, rfl, rfl⟩ ?_).1
  rintro done definition rest state state' - ⟨hcompiled, hlogical, hphysical⟩ hstep
  obtain ⟨hname, hvalid, hregister, hlogical', hqueues⟩ := compileDefinition_ok hstep
  have hnodup : state.physicalQueues.Nodup := by
    rw [hphysical, List.nodup_reverse]
    exact hcompiled.physical
  obtain ⟨heq, hnodup'⟩ := registerPhysicalQueue_foldlM hregister hnodup
  have hphysical' : state'.physicalQueues =
      (state'.queues.flatMap physicalQueueNames).reverse := by
    rw [heq, hqueues, hphysical]
    simp
  refine ⟨?_, by simp [hlogical', hlogical], hphysical'⟩
  rw [hphysical', List.nodup_reverse, hqueues] at hnodup'
  rw [hqueues]
  exact hcompiled.snoc hvalid (by simpa [hlogical] using hname) hnodup'

end Lily.Config
