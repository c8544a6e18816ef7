import Lily.Config.Topology.Accepted

/-!
# Names that the compiler keeps apart

The physical queues of an accepted plan have different names, and the keys of retry
buckets differ by construction: the digits of the delay are what follows the last dot,
and the name of the main queue is what precedes the suffix.
-/

namespace Lily.Config

open RabbitMqQueueTopologyPlan

theorem append_cons_inj_right {α : Type} {a : α} {front front' back back' : List α}
    (hback : a ∉ back) (hback' : a ∉ back')
    (h : front ++ a :: back = front' ++ a :: back') : front = front' ∧ back = back' := by
  rcases List.append_eq_append_iff.mp h with ⟨gap, hfront, hgap⟩ | ⟨gap, hfront, hgap⟩ <;>
    cases gap with
  | nil | cons first rest => simp_all

theorem dot_notMem_toString (n : Nat) : '.' ∉ (toString n).toList := by
  intro hmem
  rw [Nat.toString_eq_ofList_toDigits, String.toList_ofList] at hmem
  exact absurd (Nat.isDigit_of_mem_toDigits (by decide) (by decide) hmem) (by decide)

/-- The key of a retry bucket determines its queue and its delay: the digits of the
delay are what follows the last dot. -/
theorem retryKey_inj {name name' : String} {delay delay' : Nat}
    (h : name ++ ".retry." ++ toString delay ++ "ms" =
      name' ++ ".retry." ++ toString delay' ++ "ms") :
    name = name' ∧ toString delay = toString delay' := by
  have hchars : (name.toList ++ ".retry".toList) ++ '.' :: (toString delay).toList =
      (name'.toList ++ ".retry".toList) ++ '.' :: (toString delay').toList := by
    have hlist := congrArg String.toList h
    simp only [String.toList_append, List.append_cancel_right_eq] at hlist
    simpa using hlist
  obtain ⟨hname, hdelay⟩ :=
    append_cons_inj_right (dot_notMem_toString _) (dot_notMem_toString _) hchars
  exact ⟨String.toList_injective (List.append_cancel_right hname), String.toList_injective hdelay⟩

section Accepted

variable {definitions : List QueueDefinition} {queues : List RabbitMqQueueTopologyPlan}
  {queue other : RabbitMqQueueTopologyPlan} {bucket bucket' : RabbitMqRetryBucketPlan}
  (h : Compiled definitions queues)

include h

theorem Compiled.eq_of_mem_physical (hqueue : queue ∈ queues) (hother : other ∈ queues)
    {name : String} (hname : name ∈ queue.physicalQueueNames)
    (hname' : name ∈ other.physicalQueueNames) : other = queue := by
  by_contra hne
  have hdisjoint := (List.nodup_flatMap.mp h.physical).2
  have hsymm : Std.Symm (Function.onFun List.Disjoint
      physicalQueueNames) := ⟨fun _ _ => List.Disjoint.symm⟩
  exact hdisjoint.forall hother hqueue hne hname' hname

theorem Compiled.physical_nodup (hqueue : queue ∈ queues) : queue.physicalQueueNames.Nodup :=
  (List.nodup_flatMap.mp h.physical).1 queue hqueue

omit h in
theorem main_mem_physical (queue : RabbitMqQueueTopologyPlan) :
    queue.mainQueueName ∈ queue.physicalQueueNames := by
  simp [physicalQueueNames]

omit h in
theorem bucket_mem_physical (hbucket : bucket ∈ queue.retryBuckets) :
    bucket.queueName ∈ queue.physicalQueueNames := by
  simp only [physicalQueueNames, List.mem_append, List.mem_cons,
    List.mem_map]
  exact .inl (.inr ⟨bucket, hbucket, rfl⟩)

omit h in
theorem deadLetter_mem_physical (queue : RabbitMqQueueTopologyPlan) :
    queue.deadLetterQueueName ∈ queue.physicalQueueNames := by
  simp [physicalQueueNames]

variable (hqueue : queue ∈ queues)

include hqueue

variable (hother : other ∈ queues)

include hother

theorem Compiled.eq_of_main (hname : other.mainQueueName = queue.mainQueueName) : other = queue :=
  h.eq_of_mem_physical hqueue hother (hname ▸ main_mem_physical queue) (main_mem_physical other)

theorem Compiled.main_ne_bucket
    (hbucket : bucket ∈ queue.retryBuckets) : other.mainQueueName ≠ bucket.queueName := by
  intro heq
  have hsame := h.eq_of_mem_physical hqueue hother (heq ▸ bucket_mem_physical hbucket)
    (main_mem_physical other)
  subst hsame
  have hnodup := h.physical_nodup hqueue
  simp only [physicalQueueNames, List.cons_append, List.nodup_cons,
    List.mem_append, List.mem_map] at hnodup
  exact hnodup.1 (.inl ⟨bucket, hbucket, heq.symm⟩)

theorem Compiled.deadLetter_ne_bucket
    (hbucket : bucket ∈ queue.retryBuckets) : other.deadLetterQueueName ≠ bucket.queueName := by
  intro heq
  have hsame := h.eq_of_mem_physical hqueue hother (heq ▸ bucket_mem_physical hbucket)
    (deadLetter_mem_physical other)
  subst hsame
  have hnodup := h.physical_nodup hqueue
  rw [physicalQueueNames, List.nodup_append] at hnodup
  refine hnodup.2.2 bucket.queueName ?_ _ (List.mem_singleton_self _) heq.symm
  exact List.mem_cons_of_mem _ (List.mem_map_of_mem hbucket)

theorem Compiled.main_ne_deadLetter : other.mainQueueName ≠ queue.deadLetterQueueName := by
  intro heq
  have hsame := h.eq_of_mem_physical hqueue hother (heq ▸ deadLetter_mem_physical queue)
    (main_mem_physical other)
  subst hsame
  have hnodup := h.physical_nodup hqueue
  rw [physicalQueueNames, List.nodup_append] at hnodup
  exact hnodup.2.2 _ List.mem_cons_self _ (List.mem_singleton_self _) heq

theorem Compiled.bucket_of_routingKey (hbucket : bucket ∈ queue.retryBuckets)
    (hbucket' : bucket' ∈ other.retryBuckets)
    (hkey : bucket'.routingKey = bucket.routingKey) : bucket'.queueName = bucket.queueName := by
  rw [h.queues_eq, List.mem_map] at hqueue hother
  obtain ⟨definition, -, rfl⟩ := hqueue
  obtain ⟨definition', -, rfl⟩ := hother
  obtain ⟨_, delay, -, -, -, rfl⟩ := mem_retryBuckets_iff.mp hbucket
  obtain ⟨_, delay', -, -, -, rfl⟩ := mem_retryBuckets_iff.mp hbucket'
  obtain ⟨hname, hdelay⟩ := retryKey_inj hkey
  simp only [retryBucketPlan, hname, hdelay]

end Accepted

end Lily.Config
