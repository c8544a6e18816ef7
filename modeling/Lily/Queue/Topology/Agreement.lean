import Lily.Config.Topology.Accepted
import Lily.Queue.Topology.Setting

/-!
# The consumer accepts what the compiler accepts

The consumer validates every definition of an accepted plan once more, with bounds of
its own. Each of them follows from a bound of the compiler, so the settings of an
accepted plan can always be built, and what they carry is what the plan says.
-/

namespace Lily.Queue.Topology

open Config Validation RabbitMqTopologyPlan MessageBrokerSetting

/-! ## The two validators -/

/-- The bounds that the consumer checks. -/
structure RuntimeValid (definition : QueueDefinition) : Prop where
  identities : queueTransportIdentityIsValid definition.name = true ∧
    queueTransportIdentityIsValid definition.exchangeName = true ∧
    queueTransportIdentityIsValid definition.routingKey = true
  priority : 1 ≤ definition.maxPriority.getD 1 ∧ definition.maxPriority.getD 1 ≤ 16
  quorum : validateQuorumQueue definition = .ok ()
  concurrency : 1 ≤ definition.concurrency ∧ definition.concurrency ≤ maxQueueConcurrency
  prefetch : 1 ≤ definition.prefetchCount ∧ definition.prefetchCount ≤ maxQueuePrefetch
  buffer : ¬ (definition.deliveryBufferCapacity.getD definition.prefetchCount = 0 ∨
    definition.prefetchCount < definition.deliveryBufferCapacity.getD definition.prefetchCount)
  messageSize : 1 ≤ definition.maxMessageSizeBytes ∧
    definition.maxMessageSizeBytes ≤ maxQueueMessageSizeBytes
  retention : ∀ retention ∈ definition.retention, ∀ limit ∈ retention.limits,
    ¬ (limit.2 = 0 ∨ i64Max < limit.2)
  retryAttempts : definition.retryAttempts ≤ Amqp.maxQueueRetryAttempts
  jitter : definition.retryJitterRatio.isFinite = true ∧ 0.0 ≤ definition.retryJitterRatio ∧
    definition.retryJitterRatio ≤ 0.5
  deadLetter : ∀ field ∈ deadLetterIdentities definition, ∀ value ∈ field.2,
    queueTransportIdentityIsValid value = true
  messageTtl : definition.messageTtlMs ≠ some 0
  backoff : (100 ≤ definition.retryBackoffMillis.getD 1000 ∧
      definition.retryBackoffMillis.getD 1000 ≤ 300000) ∧
    definition.retryBackoffMillis.getD 1000 ≤ definition.maxRetryBackoffMillis.getD 60000 ∧
    definition.maxRetryBackoffMillis.getD 60000 ≤ 900000
  executionTimeout : 100 ≤ definition.deliveryExecutionTimeoutMillis.getD 30000 ∧
    definition.deliveryExecutionTimeoutMillis.getD 30000 ≤ 900000
  settlementTimeout : 1 ≤ definition.settlementTimeoutMillis.getD 5000 ∧
    definition.settlementTimeoutMillis.getD 5000 ≤ 60000

variable {definition : QueueDefinition}

theorem requireRetention_ok_iff {retention : QueueRetentionConfig} :
    requireRetention definition = .ok retention ↔ definition.retention = some retention := by
  unfold requireRetention
  cases definition.retention <;> simp

theorem fromDefinition_ok_iff {setting : QueueRuntimeSetting} :
    QueueRuntimeSetting.fromDefinition definition = .ok setting ↔
      RuntimeValid definition ∧ ∃ retention, definition.retention = some retention ∧
        setting = runtimeSetting definition retention := by
  simp only [QueueRuntimeSetting.fromDefinition, bind_ok_iff, ensureQueue, ensure_ok_iff,
    ensureAll_ok_iff, requireRetention_ok_iff]
  constructor
  · rintro ⟨_, hidentities, _, hpriority, _, hquorum, _, hconcurrency, _, hprefetch, _, hbuffer, _,
      hsize, retention, hretention, _, hlimits, _, hattempts, _, hjitter, _, hdead, _, httl, _,
      hbackoff, _, hexecution, _, hsettlement, hsetting⟩
    cases hsetting
    refine ⟨⟨hidentities, hpriority, hquorum, hconcurrency, hprefetch, hbuffer, hsize, ?_,
      hattempts, hjitter, hdead, httl, hbackoff, hexecution, hsettlement⟩,
      retention, hretention, rfl⟩
    intro other hother
    cases hretention.symm.trans hother
    exact hlimits
  · rintro ⟨h, retention, hretention, rfl⟩
    exact ⟨(), h.identities, (), h.priority, (), h.quorum, (), h.concurrency, (), h.prefetch, (),
      h.buffer, (), h.messageSize, retention, hretention, (), h.retention retention hretention, (),
      h.retryAttempts, (), h.jitter, (), h.deadLetter, (), h.messageTtl, (), h.backoff, (),
      h.executionTimeout, (), h.settlementTimeout, rfl⟩

/-- The compiler's identities are the consumer's, without references. -/
theorem queueTransportIdentityIsValid_of_identityIsValid {value : String}
    (h : identityIsValid value = true) : queueTransportIdentityIsValid value = true := by
  unfold identityIsValid at h
  rw [Bool.and_eq_true] at h
  exact h.1

theorem validateQuorumQueue_of_valid
    (h : ValidDefinition definition) : validateQuorumQueue definition = .ok () := by
  have htype := h.queueType
  unfold validateQuorumQueue
  cases hqueue : definition.queueType with
  | classic => simp
  | quorum =>
    simp only [validateQueueType, hqueue, bind_ok_iff, ensurePolicy,
      ensure_ok_iff] at htype
    obtain ⟨_, hdurable, _, hautoDelete, hpriority⟩ := htype
    simp only [if_true, bind_ok_iff, ensureQuorumQueue, ensure_ok_iff]
    exact ⟨(), hdurable, (), by simp [h.notExclusive], (), hautoDelete, hpriority⟩

theorem priority_of_valid (h : ValidDefinition definition) :
    1 ≤ definition.maxPriority.getD 1 ∧ definition.maxPriority.getD 1 ≤ 16 := by
  have htype := h.queueType
  unfold validateQueueType at htype
  cases hqueue : definition.queueType with
  | classic =>
    rw [hqueue] at htype
    simp only [ensurePolicy, ensure_ok_iff] at htype
    cases hpriority : definition.maxPriority with
    | none => decide
    | some priority => exact htype priority hpriority
  | quorum =>
    simp only [hqueue, bind_ok_iff, ensurePolicy, ensure_ok_iff] at htype
    obtain ⟨_, -, _, -, hpriority⟩ := htype
    rw [hpriority]
    decide

/-- Every bound of the consumer follows from the compiler's. -/
theorem runtimeValid_of_valid (h : ValidDefinition definition) : RuntimeValid definition := by
  have hidentity (field : String) {value : String}
      (hfield : (field, some value) ∈ definition.identities) :
      queueTransportIdentityIsValid value = true :=
    queueTransportIdentityIsValid_of_identityIsValid (h.identities _ hfield value rfl)
  obtain ⟨accepted, haccepted, hlimits⟩ := h.retention
  refine ⟨⟨hidentity "name" ?_, hidentity "exchange_name" ?_,
    hidentity "routing_key" ?_⟩, priority_of_valid h, validateQuorumQueue_of_valid h,
    h.concurrency, h.prefetch, h.buffer, h.messageSize, ?_, h.retryAttempts, h.jitter, ?_,
    h.messageTtl, h.backoff, h.executionTimeout, h.settlementTimeout⟩
  · simp [QueueDefinition.identities]
  · simp [QueueDefinition.identities]
  · simp [QueueDefinition.identities]
  · intro retention hretention
    cases haccepted.symm.trans hretention
    exact hlimits
  · intro field hfield value hvalue
    have hmem : field ∈ definition.identities := by
      simp only [deadLetterIdentities, List.mem_cons, List.not_mem_nil, or_false] at hfield
      rcases hfield with rfl | rfl <;> simp [QueueDefinition.identities]
    exact queueTransportIdentityIsValid_of_identityIsValid (h.identities field hmem value hvalue)

/-! ## The settings of a plan -/

/-- A runtime plan that says what the topology plan says. -/
structure Agrees (queue : RabbitMqQueueTopologyPlan) (runtime : QueueRuntimePlan) : Prop where
  queueType : runtime.setting.queueType = queue.systemQueueType ∧
    runtime.topology.queueType = queue.systemQueueType
  retryAttempts : runtime.setting.retryAttempts = queue.definition.retryAttempts ∧
    runtime.setting.retryAttempts = queue.retryBucketDelaysByAttempt.length ∧
    runtime.topology.retryBucketDelaysByAttempt = queue.retryBucketDelaysByAttempt
  backoff : runtime.setting.retryBackoff = queue.definition.baseMillis ∧
    runtime.setting.maxRetryBackoff = queue.definition.capMillis ∧
    ∀ bucket ∈ queue.retryBuckets, runtime.setting.retryBackoff ≤ bucket.delayMillis ∧
      bucket.delayMillis ≤ runtime.setting.maxRetryBackoff
  retention : queue.definition.retention = some ⟨runtime.setting.retention.mainMaxMessages,
    runtime.setting.retention.mainMaxBytes, runtime.setting.retention.retryBucketMaxMessages,
    runtime.setting.retention.retryBucketMaxBytes, runtime.setting.retention.deadLetterMaxMessages,
    runtime.setting.retention.deadLetterMaxBytes⟩
  main : runtime.setting.exchangeName = queue.exchangeName ∧
    runtime.setting.routingKey = queue.routingKey ∧
    runtime.topology.mainExchange = queue.exchangeName ∧
    runtime.topology.mainQueue = queue.mainQueueName ∧
    runtime.topology.routingKey = queue.routingKey
  retry : runtime.topology.retryExchange = queue.retryExchangeName ∧
    runtime.topology.retryBuckets =
      queue.retryBuckets.map fun bucket =>
        ⟨bucket.delayMillis, bucket.queueName, bucket.routingKey⟩
  deadLetter : runtime.topology.deadLetterExchange = queue.deadLetterExchangeName ∧
    runtime.topology.deadLetterQueue = queue.deadLetterQueueName ∧
    runtime.topology.deadLetterRoutingKey = queue.deadLetterRoutingKey

theorem retryBucketDelaysByAttempt_fromPlan (definition : QueueDefinition) :
    (QueueTopology.fromPlan (queueTopologyPlan definition)).retryBucketDelaysByAttempt =
      (queueTopologyPlan definition).retryBucketDelaysByAttempt := by
  simp only [QueueTopology.fromPlan, RabbitMqQueueTopologyPlan.retryBucketDelays, queueTopologyPlan,
    retryBucketDelaysByAttempt]
  refine List.map_congr_left fun index hindex => ?_
  rw [List.mem_range] at hindex
  simp [hindex]

/-- The bucket that the consumer's topology has for a delay of the plan. -/
def retryBucketOf (definition : QueueDefinition) (delay : Nat) : RetryBucket :=
  ⟨delay, (retryBucketPlan definition delay).queueName,
    (retryBucketPlan definition delay).routingKey⟩

theorem find_retryBucket {attempt delay : Nat} (hpos : 1 ≤ attempt)
    (hle : attempt ≤ definition.retryAttempts) (hdelay : delay ∈ attemptDelays definition attempt) :
    (QueueTopology.fromPlan (queueTopologyPlan definition)).retryBuckets.find?
      (fun bucket => bucket.delay = delay) = some (retryBucketOf definition delay) := by
  have hbucket : retryBucketOf definition delay ∈
      (QueueTopology.fromPlan (queueTopologyPlan definition)).retryBuckets :=
    List.mem_map_of_mem (mem_retryBuckets_iff.mpr ⟨attempt, delay, hpos, hle, hdelay, rfl⟩)
  have hsome : ((QueueTopology.fromPlan (queueTopologyPlan definition)).retryBuckets.find?
      fun bucket => bucket.delay = delay).isSome = true :=
    List.find?_isSome.mpr ⟨_, hbucket, by simp [retryBucketOf]⟩
  obtain ⟨found, hfound⟩ := Option.isSome_iff_exists.mp hsome
  obtain ⟨bucket, hplan, rfl⟩ := List.mem_map.mp (List.mem_of_find?_eq_some hfound)
  obtain ⟨_, delay', -, -, -, rfl⟩ := mem_retryBuckets_iff.mp hplan
  have hsame := List.find?_some hfound
  simp only [decide_eq_true_eq] at hsame
  subst hsame
  exact hfound

theorem retryBucketDelaysByAttempt_get (definition : QueueDefinition) {attempt : Nat}
    (hpos : 1 ≤ attempt) : (queueTopologyPlan definition).retryBucketDelaysByAttempt[attempt - 1]? =
      if attempt ≤ definition.retryAttempts then some (attemptDelays definition attempt)
      else none := by
  have hlt : attempt - 1 < definition.retryAttempts ↔ attempt ≤ definition.retryAttempts := by omega
  split <;> simp_all [queueTopologyPlan, retryBucketDelaysByAttempt, Nat.sub_add_cancel hpos]

/-- For every event and every configured attempt the consumer finds a bucket, and it is one
that the plan has for that attempt. -/
theorem retryBucket_fromPlan (definition : QueueDefinition) (eventId : String) {attempt : Nat}
    (hpos : 1 ≤ attempt) (hle : attempt ≤ definition.retryAttempts) :
    ∃ delay ∈ attemptDelays definition attempt,
      (QueueTopology.fromPlan (queueTopologyPlan definition)).retryBucket eventId attempt =
        some (retryBucketOf definition delay) := by
  have hcandidates : (QueueTopology.fromPlan
      (queueTopologyPlan definition)).retryBucketDelaysByAttempt[attempt - 1]? =
        some (attemptDelays definition attempt) := by
    rw [retryBucketDelaysByAttempt_fromPlan, retryBucketDelaysByAttempt_get definition hpos,
      if_pos hle]
  have hnonempty := attemptDelays_ne_nil definition attempt
  obtain ⟨delay, hdelay⟩ : ∃ delay, (attemptDelays definition attempt)[
      (stableRetryBucketHash eventId attempt).toNat %
        (attemptDelays definition attempt).length]? = some delay :=
    ⟨_, List.getElem?_eq_getElem (Nat.mod_lt _ (List.length_pos_iff.mpr hnonempty))⟩
  have hmem := List.mem_of_getElem? hdelay
  have hattempt : attempt ≠ 0 := by omega
  refine ⟨delay, hmem, ?_⟩
  simp [QueueTopology.retryBucket, hattempt, hcandidates, hnonempty, hdelay,
    find_retryBucket hpos hle hmem]

theorem agrees_runtime (h : ValidDefinition definition) {retention : QueueRetentionConfig}
    (hretention : definition.retention = some retention) :
    Agrees (queueTopologyPlan definition)
      ⟨runtimeSetting definition retention,
        QueueTopology.fromPlan (queueTopologyPlan definition)⟩ := by
  refine ⟨⟨rfl, rfl⟩, ⟨rfl, ?_, retryBucketDelaysByAttempt_fromPlan definition⟩, ⟨rfl, rfl, ?_⟩,
    hretention, ⟨rfl, rfl, rfl, rfl, rfl⟩, ⟨rfl, rfl⟩, ⟨rfl, rfl, rfl⟩⟩
  · simp [runtimeSetting, queueTopologyPlan, retryBucketDelaysByAttempt]
  · intro bucket hbucket
    obtain ⟨retryCount, delay, -, -, hdelay, rfl⟩ := mem_retryBuckets_iff.mp hbucket
    exact mem_attemptDelays_bounds h hdelay

theorem registerQueue_ok {queues : AList fun _ : String => QueueRuntimePlan}
    (h : ValidDefinition definition) (hnew : definition.name ∉ queues) :
    ∃ runtime, Agrees (queueTopologyPlan definition) runtime ∧
      registerQueue queues (queueTopologyPlan definition) =
        .ok (queues.insert definition.name runtime) := by
  obtain ⟨retention, hretention, -⟩ := h.retention
  refine ⟨_, agrees_runtime h hretention, ?_⟩
  have hsetting := fromDefinition_ok_iff.mpr
    ⟨runtimeValid_of_valid h, retention, hretention, rfl⟩
  simp only [registerQueue, bind_ok_iff, ensure_ok_iff]
  exact ⟨_, hsetting, (), hnew, rfl⟩

/-- The settings of an accepted plan: one runtime plan for every queue, and no other. -/
structure Configured (queues : List RabbitMqQueueTopologyPlan)
    (runtimes : AList fun _ : String => QueueRuntimePlan) : Prop where
  names : ∀ name, name ∈ runtimes ↔ name ∈ queues.map RabbitMqQueueTopologyPlan.mainQueueName
  agree : ∀ queue ∈ queues, ∃ runtime, runtimes.lookup queue.mainQueueName = some runtime ∧
    Agrees queue runtime

theorem Configured.snoc {queues : List RabbitMqQueueTopologyPlan}
    {runtimes : AList fun _ : String => QueueRuntimePlan} (h : Configured queues runtimes)
    {queue : RabbitMqQueueTopologyPlan} {runtime : QueueRuntimePlan}
    (hnew : queue.mainQueueName ∉ runtimes) (hagrees : Agrees queue runtime) :
    Configured (queues ++ [queue]) (runtimes.insert queue.mainQueueName runtime) := by
  refine ⟨fun name => ?_, fun other hother => ?_⟩
  · rw [AList.mem_insert, h.names, List.map_append, List.mem_append, or_comm]
    simp
  · rcases List.mem_append.mp hother with hold | hlast
    · obtain ⟨accepted, hlookup, haccepted⟩ := h.agree other hold
      have hne : other.mainQueueName ≠ queue.mainQueueName := by
        intro heq
        refine hnew ((h.names _).mpr ?_)
        rw [← heq]
        exact List.mem_map_of_mem hold
      exact ⟨accepted, by rw [AList.lookup_insert_ne hne, hlookup], haccepted⟩
    · rw [List.mem_singleton] at hlast
      subst hlast
      exact ⟨runtime, AList.lookup_insert _, hagrees⟩

variable {config : RabbitMqTopologyConfig} {plan : RabbitMqTopologyPlan}

/-- Whatever the compiler accepts, the consumer can run, and with the same values. The queues of the
plan are those of the configuration, in order. -/
theorem fromTopologyPlan_of_compile (h : compile config = .ok plan) (confirmTimeout : Nat) :
    plan.queues = config.queues.map queueTopologyPlan ∧
    ∃ setting, fromTopologyPlan confirmTimeout plan = .ok setting ∧
      fromDefinitions confirmTimeout config.queues = .ok setting ∧
      setting.confirmTimeout = confirmTimeout ∧ setting.topologyPlan = plan ∧
      ∀ queue ∈ plan.queues, ∃ runtime,
        setting.queue queue.mainQueueName = .ok runtime.setting ∧
        setting.topology queue.mainQueueName = .ok runtime.topology ∧ Agrees queue runtime := by
  have hcompiled := compile_compiled h
  -- The names are distinct, so at every queue the loop finds its name unused.
  have hloop : ∃ runtimes, plan.queues.foldlM registerQueue ∅ = .ok runtimes ∧
      Configured plan.queues runtimes := by
    refine foldlM_total ⟨by simp, by simp⟩ fun done queue rest runtimes hsplit hdone => ?_
    obtain ⟨definition, hdefinition, rfl⟩ : ∃ definition ∈ config.queues,
        queueTopologyPlan definition = queue := by
      rw [← List.mem_map, ← hcompiled.queues_eq, hsplit]
      simp
    have hnew : definition.name ∉ runtimes := by
      have hnames := hcompiled.names
      rw [show config.queues.map QueueDefinition.name =
        plan.queues.map RabbitMqQueueTopologyPlan.mainQueueName by
          rw [hcompiled.queues_eq, List.map_map]; rfl, hsplit, List.map_append] at hnames
      rw [hdone.names]
      intro hmem
      exact (List.nodup_append.mp hnames).2.2 _ hmem _ List.mem_cons_self rfl
    obtain ⟨runtime, hagrees, hregister⟩ := registerQueue_ok (hcompiled.valid _ hdefinition) hnew
    exact ⟨_, hregister, hdone.snoc hnew hagrees⟩
  obtain ⟨runtimes, hruntimes, hconfigured⟩ := hloop
  have hsetting : fromTopologyPlan confirmTimeout plan =
      .ok ⟨confirmTimeout, runtimes, plan⟩ := bind_ok_iff.mpr ⟨runtimes, hruntimes, rfl⟩
  refine ⟨hcompiled.queues_eq, _, hsetting, ?_, rfl, rfl, fun queue hqueue => ?_⟩
  · rw [fromDefinitions, show (⟨config.queues⟩ : RabbitMqTopologyConfig) =
      config from rfl, h]
    exact hsetting
  · obtain ⟨runtime, hlookup, hagrees⟩ := hconfigured.agree queue hqueue
    refine ⟨runtime, ?_, ?_, hagrees⟩ <;>
      simp [MessageBrokerSetting.queue, topology,
        queuePlan, hlookup, Except.map]

def orders : QueueDefinition where
  name := "orders"
  exchangeName := "events"
  routingKey := "orders.created"
  retryAttempts := 3
  retryJitterRatio := 0.25
  retention := some ⟨100, 1000, 100, 1000, 100, 1000⟩

set_option maxRecDepth 8000 in
theorem exists_compile_orders : ∃ plan, compile ⟨[orders]⟩ = .ok plan := by
  have haccepted : (compile ⟨[orders]⟩).isOk = true := by decide
  cases hplan : compile ⟨[orders]⟩ with
  | error error =>
    rw [hplan] at haccepted
    cases haccepted
  | ok plan => exact ⟨plan, rfl⟩

theorem fromTopologyPlan_of_compile_orders :
    ∃ plan, compile ⟨[orders]⟩ = .ok plan ∧ ∃ setting runtime,
      fromTopologyPlan 5000 plan = .ok setting ∧ setting.queue "orders" = .ok runtime.setting ∧
        Agrees (queueTopologyPlan orders) runtime := by
  obtain ⟨plan, hplan⟩ := exists_compile_orders
  obtain ⟨hqueues, setting, hsetting, -, -, -, hagree⟩ := fromTopologyPlan_of_compile hplan 5000
  obtain ⟨runtime, hqueue, -, hagrees⟩ := hagree (queueTopologyPlan orders) (by simp [hqueues])
  exact ⟨plan, hplan, setting, runtime, hsetting, hqueue, hagrees⟩

/-- Every configured attempt of an accepted queue finds a declared bucket of that attempt,
within the bounds of the backoff, and no other attempt finds any. The buckets are the delays
of all attempts in order, and no physical queue of the plan is named twice. -/
theorem retryBucket_of_compile (h : compile config = .ok plan) :
    plan.queues = config.queues.map queueTopologyPlan ∧
    (plan.queues.flatMap RabbitMqQueueTopologyPlan.physicalQueueNames).Nodup ∧
    ∀ queue ∈ plan.queues,
      (queue.retryBuckets.map (·.delayMillis)).Pairwise (· < ·) ∧
      (∀ delay, delay ∈ queue.retryBuckets.map (·.delayMillis) ↔
        ∃ delays ∈ queue.retryBucketDelaysByAttempt, delay ∈ delays) ∧
      ∀ eventId attempt,
        if 1 ≤ attempt ∧ attempt ≤ queue.definition.retryAttempts then
          ∃ bucket ∈ queue.retryBuckets,
            (∃ delays, queue.retryBucketDelaysByAttempt[attempt - 1]? = some delays ∧
              bucket.delayMillis ∈ delays) ∧
            queue.definition.baseMillis ≤ bucket.delayMillis ∧
            bucket.delayMillis ≤ queue.definition.capMillis ∧
            (QueueTopology.fromPlan queue).retryBucket eventId attempt =
              some ⟨bucket.delayMillis, bucket.queueName, bucket.routingKey⟩
        else (QueueTopology.fromPlan queue).retryBucket eventId attempt = none := by
  have hcompiled := compile_compiled h
  refine ⟨hcompiled.queues_eq, hcompiled.physical, fun queue hqueue => ?_⟩
  rw [hcompiled.queues_eq, List.mem_map] at hqueue
  obtain ⟨definition, hdefinition, rfl⟩ := hqueue
  have hdelays : (queueTopologyPlan definition).retryBuckets.map (·.delayMillis) =
      retryBucketDelays (retryBucketDelaysByAttempt definition) := by
    simp [queueTopologyPlan, Function.comp_def, retryBucketPlan]
  rw [hdelays]
  refine ⟨Collection.orderedSet_pairwise_lt _, fun delay => ?_, fun eventId attempt => ?_⟩
  · simp [retryBucketDelays, queueTopologyPlan]
  split
  case isTrue hattempt =>
    obtain ⟨hpos, hle : attempt ≤ definition.retryAttempts⟩ := hattempt
    obtain ⟨delay, hdelay, hbucket⟩ := retryBucket_fromPlan definition eventId hpos hle
    obtain ⟨hbase, hcap⟩ := mem_attemptDelays_bounds (hcompiled.valid _ hdefinition) hdelay
    exact ⟨retryBucketPlan definition delay,
      mem_retryBuckets_iff.mpr ⟨attempt, delay, hpos, hle, hdelay, rfl⟩,
      ⟨_, (retryBucketDelaysByAttempt_get definition hpos).trans (if_pos hle), hdelay⟩, hbase, hcap,
      hbucket⟩
  case isFalse hattempt =>
    by_cases hzero : attempt = 0
    · simp [QueueTopology.retryBucket, hzero]
    · have hpos : 1 ≤ attempt := by omega
      have hle : ¬ attempt ≤ definition.retryAttempts := fun hle => hattempt ⟨hpos, hle⟩
      simp [QueueTopology.retryBucket, hzero, retryBucketDelaysByAttempt_fromPlan,
        retryBucketDelaysByAttempt_get definition hpos, hle]

/-- The second attempt of an event has a bucket between the bounds, and there is no fourth one. -/
theorem retryBucket_of_compile_orders : ∃ plan, compile ⟨[orders]⟩ = .ok plan ∧
    ∃ queue ∈ plan.queues, queue.mainQueueName = "orders" ∧
      (∃ bucket ∈ queue.retryBuckets, 1000 ≤ bucket.delayMillis ∧
        (QueueTopology.fromPlan queue).retryBucket "order-17" 2 =
          some ⟨bucket.delayMillis, bucket.queueName, bucket.routingKey⟩) ∧
      (QueueTopology.fromPlan queue).retryBucket "order-17" 4 = none := by
  obtain ⟨plan, hplan⟩ := exists_compile_orders
  obtain ⟨hqueues, -, hall⟩ := retryBucket_of_compile hplan
  have hmem : queueTopologyPlan orders ∈ plan.queues := by simp [hqueues]
  obtain ⟨-, -, hattempts⟩ := hall _ hmem
  obtain ⟨bucket, hbucket, -, hbase, -, hsecond⟩ := (if_pos (by decide)).mp (hattempts "order-17" 2)
  exact ⟨plan, hplan, _, hmem, rfl, ⟨bucket, hbucket, hbase, hsecond⟩,
    (if_neg (by decide)).mp (hattempts "order-17" 4)⟩

end Lily.Queue.Topology
