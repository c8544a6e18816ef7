import Lily.Config.Topology.Names
import Lily.Queue.Topology.Routing

/-!
# Isolation of retries and dead letters

In every accepted plan a handoff reaches the queue it is meant for, and a retry reaches
no other retry bucket. It reaches no further queue exactly when the plan has no other
binding to the same exchange and key (`Separate`).
-/

namespace Lily.Queue.Topology

open TopologyMaterialization Config Validation RabbitMqTopologyPlan

/-! ## The materialized plan -/

/-- The queues and bindings of a plan, with the retention that each queue has. -/
structure Materializes (queues : List RabbitMqQueueTopologyPlan)
    (topology : TopologyMaterialization) : Prop where
  specs : ∀ spec, spec ∈ topology.queues ↔ ∃ queue ∈ queues, ∃ retention,
    queue.definition.retention = some retention ∧ spec ∈ queueSpecs queue retention
  bindings : topology.bindings = queues.flatMap queueBindings

theorem fromPlan_materializes {plan : RabbitMqTopologyPlan}
    (h : ∀ queue ∈ plan.queues, ∃ retention, queue.definition.retention = some retention) :
    ∃ topology, fromPlan plan = .ok topology ∧
      Materializes plan.queues topology := by
  refine foldlM_total ⟨by simp, rfl⟩ fun done queue rest topology hsplit hdone => ?_
  obtain ⟨retention, hretention⟩ := h queue (by simp [hsplit])
  refine ⟨_, by rw [pushQueuePlan, hretention], fun spec => ?_, ?_⟩
  · rw [List.mem_append, hdone.specs]
    constructor
    · rintro (⟨other, hother, found⟩ | hspec)
      · exact ⟨other, List.mem_append_left _ hother, found⟩
      · exact ⟨queue, by simp, retention, hretention, hspec⟩
    · rintro ⟨other, hother, found, hfound, hspec⟩
      rcases List.mem_append.mp hother with hold | hlast
      · exact .inl ⟨other, hold, found, hfound, hspec⟩
      · rw [List.mem_singleton] at hlast
        subst hlast
        cases hretention.symm.trans hfound
        exact .inr hspec
  · simp [hdone.bindings]

section Routes

variable {queues : List RabbitMqQueueTopologyPlan} {topology : TopologyMaterialization}
  {exchange routingKey target : String}

/-- A message reaches a queue through one of three kinds of bindings. -/
theorem Materializes.mem_route_iff (h : Materializes queues topology) :
    target ∈ topology.route exchange routingKey ↔ ∃ queue ∈ queues,
      (queue.exchangeName = exchange ∧ queue.routingKey = routingKey ∧
        queue.mainQueueName = target) ∨
      (∃ bucket ∈ queue.retryBuckets, queue.retryExchangeName = exchange ∧
        bucket.routingKey = routingKey ∧ bucket.queueName = target) ∨
      (queue.deadLetterExchangeName = exchange ∧ queue.deadLetterRoutingKey = routingKey ∧
        queue.deadLetterQueueName = target) := by
  simp only [route, h.bindings, List.mem_map, List.mem_filter,
    List.mem_flatMap, decide_eq_true_eq, queueBindings, List.mem_append, List.mem_cons,
    List.not_mem_nil, or_false]
  constructor
  · rintro ⟨binding, ⟨⟨queue, hqueue, (rfl | ⟨bucket, hbucket, rfl⟩) | rfl⟩, hexchange, hkey⟩, rfl⟩
    · exact ⟨queue, hqueue, .inl ⟨hexchange, hkey, rfl⟩⟩
    · exact ⟨queue, hqueue, .inr (.inl ⟨bucket, hbucket, hexchange, hkey, rfl⟩)⟩
    · exact ⟨queue, hqueue, .inr (.inr ⟨hexchange, hkey, rfl⟩)⟩
  · rintro ⟨queue, hqueue, ⟨hexchange, hkey, rfl⟩ | ⟨bucket, hbucket, hexchange, hkey, rfl⟩ |
      ⟨hexchange, hkey, rfl⟩⟩
    · exact ⟨mainBinding queue, ⟨⟨queue, hqueue, .inl (.inl rfl)⟩, hexchange, hkey⟩, rfl⟩
    · exact ⟨retryBinding queue bucket,
        ⟨⟨queue, hqueue, .inl (.inr ⟨bucket, hbucket, rfl⟩)⟩, hexchange, hkey⟩, rfl⟩
    · exact ⟨deadLetterBinding queue, ⟨⟨queue, hqueue, .inr rfl⟩, hexchange, hkey⟩, rfl⟩

end Routes

/-! ## Isolation -/

/-- The handoffs of a queue, and what returns from its buckets, go nowhere else. -/
structure Isolated (queues : List RabbitMqQueueTopologyPlan) (topology : TopologyMaterialization)
    (queue : RabbitMqQueueTopologyPlan) : Prop where
  retry : ∀ bucket ∈ queue.retryBuckets, ∀ target,
    target ∈ topology.route queue.retryExchangeName bucket.routingKey ↔ target = bucket.queueName
  expiry : ∀ bucket ∈ queue.retryBuckets, ∀ other ∈ queues,
    other.mainQueueName ∈ topology.expire bucket.queueName ↔
      other.mainQueueName = queue.mainQueueName
  deadLetter : ∀ target,
    target ∈ topology.route queue.deadLetterExchangeName queue.deadLetterRoutingKey ↔
      target = queue.deadLetterQueueName

/-- No binding of another queue takes the messages of this one. Retry buckets need not be
compared with each other. -/
structure Separate (queues : List RabbitMqQueueTopologyPlan) (queue : RabbitMqQueueTopologyPlan) :
    Prop where
  retry : ∀ bucket ∈ queue.retryBuckets, ∀ other ∈ queues,
    ¬ (other.exchangeName = queue.retryExchangeName ∧ other.routingKey = bucket.routingKey) ∧
    ¬ (other.deadLetterExchangeName = queue.retryExchangeName ∧
      other.deadLetterRoutingKey = bucket.routingKey)
  main : queue.retryBuckets ≠ [] → ∀ other ∈ queues, other.exchangeName = queue.exchangeName →
    other.routingKey = queue.routingKey → other.mainQueueName = queue.mainQueueName
  deadLetter : ∀ other ∈ queues,
    ¬ (other.exchangeName = queue.deadLetterExchangeName ∧
      other.routingKey = queue.deadLetterRoutingKey) ∧
    (∀ bucket ∈ other.retryBuckets, ¬ (other.retryExchangeName = queue.deadLetterExchangeName ∧
      bucket.routingKey = queue.deadLetterRoutingKey)) ∧
    (other.deadLetterExchangeName = queue.deadLetterExchangeName →
      other.deadLetterRoutingKey = queue.deadLetterRoutingKey →
      other.deadLetterQueueName = queue.deadLetterQueueName)

section Isolation

variable {definitions : List QueueDefinition} {queues : List RabbitMqQueueTopologyPlan}
  {topology : TopologyMaterialization} {queue other : RabbitMqQueueTopologyPlan}
  {bucket : RabbitMqRetryBucketPlan} (hcompiled : Compiled definitions queues)

include hcompiled

/-- What expires in a retry bucket is published to the exchange of the main queue. -/
theorem mem_expire_iff (h : Materializes queues topology) (hqueue : queue ∈ queues)
    (hbucket : bucket ∈ queue.retryBuckets)
    (hretention : ∃ retention, queue.definition.retention = some retention) {target : String} :
    target ∈ topology.expire bucket.queueName ↔
      target ∈ topology.route queue.exchangeName queue.routingKey := by
  simp only [expire, List.mem_flatMap, List.mem_filter, decide_eq_true_eq,
    h.specs]
  constructor
  · rintro ⟨spec, ⟨⟨other, hother, retention, -, hspec⟩, hname⟩, htarget⟩
    simp only [queueSpecs, List.mem_append, List.mem_cons, List.not_mem_nil, or_false,
      List.mem_map] at hspec
    rcases hspec with (rfl | ⟨bucket', hbucket', rfl⟩) | rfl
    · exact absurd hname (hcompiled.main_ne_bucket hqueue hother hbucket)
    · have hsame : other = queue := hcompiled.eq_of_mem_physical hqueue hother
        (Config.bucket_mem_physical hbucket) (hname ▸ Config.bucket_mem_physical hbucket')
      subst hsame
      exact htarget
    · exact absurd hname (hcompiled.deadLetter_ne_bucket hqueue hother hbucket)
  · intro htarget
    obtain ⟨retention, hretention⟩ := hretention
    refine ⟨retryBucketSpec queue retention bucket, ⟨⟨queue, hqueue, retention, hretention, ?_⟩,
      rfl⟩, htarget⟩
    simp only [queueSpecs, List.mem_append, List.mem_cons, List.mem_map]
    exact .inl (.inr ⟨bucket, hbucket, rfl⟩)

/-- Another main queue is reached through its own binding only. -/
theorem main_mem_route_iff (h : Materializes queues topology) (hother : other ∈ queues)
    {exchange routingKey : String} :
    other.mainQueueName ∈ topology.route exchange routingKey ↔
      other.exchangeName = exchange ∧ other.routingKey = routingKey := by
  rw [h.mem_route_iff]
  constructor
  · rintro ⟨found, hfound,
      ⟨hexchange, hkey, hname⟩ | ⟨bucket, hbucket, -, -, hname⟩ | ⟨-, -, hname⟩⟩
    · cases hcompiled.eq_of_main hother hfound hname
      exact ⟨hexchange, hkey⟩
    · exact absurd hname.symm (hcompiled.main_ne_bucket hfound hother hbucket)
    · exact absurd hname.symm (hcompiled.main_ne_deadLetter hfound hother)
  · rintro ⟨hexchange, hkey⟩
    exact ⟨other, hother, .inl ⟨hexchange, hkey, rfl⟩⟩

theorem bucket_mem_route_iff (h : Materializes queues topology) (hqueue : queue ∈ queues)
    (hother : other ∈ queues) (hbucket : bucket ∈ queue.retryBuckets)
    {bucket' : RabbitMqRetryBucketPlan} (hbucket' : bucket' ∈ other.retryBuckets) :
    bucket'.queueName ∈ topology.route queue.retryExchangeName bucket.routingKey ↔
      bucket'.queueName = bucket.queueName := by
  rw [h.mem_route_iff]
  constructor
  · rintro ⟨found, hfound, ⟨-, -, hname⟩ | ⟨bucket'', hbucket'', -, hkey, hname⟩ | ⟨-, -, hname⟩⟩
    · exact absurd hname (hcompiled.main_ne_bucket hother hfound hbucket')
    · exact hname.symm.trans (hcompiled.bucket_of_routingKey hqueue hfound hbucket hbucket'' hkey)
    · exact absurd hname (hcompiled.deadLetter_ne_bucket hother hfound hbucket')
  · intro hname
    exact ⟨queue, hqueue, .inr (.inl ⟨bucket, hbucket, rfl, rfl, hname.symm⟩)⟩

omit hcompiled in
theorem deadLetter_mem_route (h : Materializes queues topology) (hother : other ∈ queues) :
    other.deadLetterQueueName ∈
      topology.route other.deadLetterExchangeName other.deadLetterRoutingKey :=
  h.mem_route_iff.mpr ⟨other, hother, .inr (.inr ⟨rfl, rfl, rfl⟩)⟩

theorem Isolated.separate (h : Materializes queues topology) (hqueue : queue ∈ queues)
    (hretention : ∃ retention, queue.definition.retention = some retention)
    (hisolated : Isolated queues topology queue) : Separate queues queue := by
  refine ⟨fun bucket hbucket other hother => ⟨?_, ?_⟩, fun hretry other hother hexchange hkey => ?_,
    fun other hother => ⟨?_, fun bucket hbucket => ?_, fun hexchange hkey => ?_⟩⟩
  · intro hpair
    have hreached := (main_mem_route_iff hcompiled h hother).mpr hpair
    exact hcompiled.main_ne_bucket hqueue hother hbucket
      ((hisolated.retry bucket hbucket _).mp hreached)
  · rintro ⟨hexchange, hkey⟩
    have hreached := deadLetter_mem_route h hother
    rw [hexchange, hkey, hisolated.retry bucket hbucket] at hreached
    exact hcompiled.deadLetter_ne_bucket hqueue hother hbucket hreached
  · obtain ⟨bucket, hbucket⟩ := List.exists_mem_of_ne_nil _ hretry
    rw [← hisolated.expiry bucket hbucket other hother,
      mem_expire_iff hcompiled h hqueue hbucket hretention, main_mem_route_iff hcompiled h hother]
    exact ⟨hexchange, hkey⟩
  · intro hpair
    have hreached := (main_mem_route_iff hcompiled h hother).mpr hpair
    exact hcompiled.main_ne_deadLetter hqueue hother ((hisolated.deadLetter _).mp hreached)
  · rintro ⟨hexchange, hkey⟩
    have hreached := (bucket_mem_route_iff hcompiled h hother hother hbucket hbucket).mpr rfl
    rw [hexchange, hkey, hisolated.deadLetter] at hreached
    exact hcompiled.deadLetter_ne_bucket hother hqueue hbucket hreached.symm
  · have hreached := deadLetter_mem_route h hother
    rwa [hexchange, hkey, hisolated.deadLetter] at hreached

theorem Separate.isolated (h : Materializes queues topology) (hqueue : queue ∈ queues)
    (hretention : ∃ retention, queue.definition.retention = some retention)
    (hseparate : Separate queues queue) : Isolated queues topology queue := by
  refine ⟨fun bucket hbucket target => ⟨fun htarget => ?_, ?_⟩,
    fun bucket hbucket other hother => ?_, fun target => ⟨fun htarget => ?_, ?_⟩⟩
  · obtain ⟨other, hother, ⟨hexchange, hkey, -⟩ | ⟨bucket', hbucket', -, hkey, hname⟩ |
      ⟨hexchange, hkey, -⟩⟩ := h.mem_route_iff.mp htarget
    · exact absurd ⟨hexchange, hkey⟩ (hseparate.retry bucket hbucket other hother).1
    · exact hname.symm.trans
        (hcompiled.bucket_of_routingKey hqueue hother hbucket hbucket' hkey)
    · exact absurd ⟨hexchange, hkey⟩ (hseparate.retry bucket hbucket other hother).2
  · rintro rfl
    exact (bucket_mem_route_iff hcompiled h hqueue hqueue hbucket hbucket).mpr rfl
  · rw [mem_expire_iff hcompiled h hqueue hbucket hretention, main_mem_route_iff hcompiled h hother]
    constructor
    · rintro ⟨hexchange, hkey⟩
      exact hseparate.main (List.ne_nil_of_mem hbucket) other hother hexchange hkey
    · intro hname
      cases hcompiled.eq_of_main hqueue hother hname
      exact ⟨rfl, rfl⟩
  · obtain ⟨other, hother, ⟨hexchange, hkey, -⟩ | ⟨bucket, hbucket, hexchange, hkey, -⟩ |
      ⟨hexchange, hkey, rfl⟩⟩ := h.mem_route_iff.mp htarget
    · exact absurd ⟨hexchange, hkey⟩ (hseparate.deadLetter other hother).1
    · exact absurd ⟨hexchange, hkey⟩ ((hseparate.deadLetter other hother).2.1 bucket hbucket)
    · exact (hseparate.deadLetter other hother).2.2 hexchange hkey
  · rintro rfl
    exact deadLetter_mem_route h hqueue

end Isolation

/-- In every accepted plan the handoffs of a queue arrive, and a retry arrives in no other
retry bucket; they arrive nowhere else exactly when the bindings are separate. -/
theorem handoffs_isolated_iff {config : RabbitMqTopologyConfig} {plan : RabbitMqTopologyPlan}
    (h : compile config = .ok plan) :
    ∃ topology, fromPlan plan = .ok topology ∧ ∀ queue ∈ plan.queues,
      (∀ bucket ∈ queue.retryBuckets,
        bucket.queueName ∈ topology.route queue.retryExchangeName bucket.routingKey ∧
        (∀ other ∈ plan.queues, ∀ bucket' ∈ other.retryBuckets,
          bucket'.queueName ∈ topology.route queue.retryExchangeName bucket.routingKey →
          bucket'.queueName = bucket.queueName) ∧
        queue.mainQueueName ∈ topology.expire bucket.queueName) ∧
      queue.deadLetterQueueName ∈
        topology.route queue.deadLetterExchangeName queue.deadLetterRoutingKey ∧
      (Isolated plan.queues topology queue ↔ Separate plan.queues queue) := by
  have hcompiled := Config.compile_compiled h
  have hretention : ∀ queue ∈ plan.queues, ∃ retention,
      queue.definition.retention = some retention := by
    intro queue hqueue
    rw [hcompiled.queues_eq, List.mem_map] at hqueue
    obtain ⟨definition, hdefinition, rfl⟩ := hqueue
    obtain ⟨retention, hretention, -⟩ := (hcompiled.valid definition hdefinition).retention
    exact ⟨retention, hretention⟩
  obtain ⟨topology, htopology, hmaterializes⟩ := fromPlan_materializes hretention
  refine ⟨topology, htopology, fun queue hqueue => ⟨fun bucket hbucket => ⟨?_, ?_, ?_⟩, ?_, ?_⟩⟩
  · exact (bucket_mem_route_iff hcompiled hmaterializes hqueue hqueue hbucket hbucket).mpr rfl
  · intro other hother bucket' hbucket'
    exact (bucket_mem_route_iff hcompiled hmaterializes hqueue hother hbucket hbucket').mp
  · rw [mem_expire_iff hcompiled hmaterializes hqueue hbucket (hretention queue hqueue),
      main_mem_route_iff hcompiled hmaterializes hqueue]
    exact ⟨rfl, rfl⟩
  · exact deadLetter_mem_route hmaterializes hqueue
  · exact ⟨Isolated.separate hcompiled hmaterializes hqueue (hretention queue hqueue),
      Separate.isolated hcompiled hmaterializes hqueue (hretention queue hqueue)⟩

def subscriber (name : String) : QueueDefinition where
  name
  exchangeName := "events"
  routingKey := "orders.created"
  retryAttempts := 1
  retention := some ⟨100, 1000, 100, 1000, 100, 1000⟩

/-- Two subscribers of one exchange with keys of their own. -/
def ordersAndAudit : RabbitMqTopologyConfig :=
  ⟨[subscriber "orders", { subscriber "audit" with routingKey := "audit.created" }]⟩

theorem handoffs_isolated_iff_subscriber :
    ∃ plan, compile ordersAndAudit = .ok plan ∧
      plan.queues.map RabbitMqQueueTopologyPlan.mainQueueName = ["orders", "audit"] ∧
      ∃ topology, fromPlan plan = .ok topology ∧
        ∀ queue ∈ plan.queues, Isolated plan.queues topology queue := by
  have haccepted : (compile ordersAndAudit).isOk = true := by
    decide
  cases hplan : compile ordersAndAudit with
  | error error =>
    rw [hplan] at haccepted
    cases haccepted
  | ok plan =>
    obtain ⟨topology, htopology, hqueues⟩ := handoffs_isolated_iff hplan
    obtain ⟨queues⟩ := plan
    cases (Config.compile_compiled hplan).queues_eq
    refine ⟨_, rfl, rfl, topology, htopology, fun queue hqueue => ?_⟩
    refine (hqueues queue hqueue).2.2.mpr ⟨?_, ?_, ?_⟩ <;> revert queue <;> decide

/-- Two queues may be bound to one exchange with one key. What the first one retries then
returns to both. -/
theorem retry_returns_to_subscriber :
    ∃ plan, compile ⟨[subscriber "orders", subscriber "audit"]⟩ = .ok plan ∧
      ∃ topology, fromPlan plan = .ok topology ∧
        topology.route "events.retry.v2" "orders.retry.1000ms" = ["orders.retry.v2.1000ms"] ∧
        topology.expire "orders.retry.v2.1000ms" = ["orders", "audit"] := by
  have haccepted :
      (compile ⟨[subscriber "orders", subscriber "audit"]⟩).isOk = true := by
    decide
  cases hplan : compile ⟨[subscriber "orders", subscriber "audit"]⟩ with
  | error error =>
    rw [hplan] at haccepted
    cases haccepted
  | ok plan =>
    obtain ⟨queues⟩ := plan
    cases (Config.compile_compiled hplan).queues_eq
    exact ⟨_, rfl, _, rfl, by decide, by decide⟩

end Lily.Queue.Topology
