import Lily.Queue.Amqp.Envelope
import Lily.Queue.Settlement.Plan

/-!
# Materializing the metadata of a handoff

A handoff publishes the delivery's own properties again, with three headers written
by the framework and with whatever trace headers the propagator injects. The caller's
table is passed explicitly, so that it can be seen what a failure leaves behind.
-/

namespace Lily.Queue.Amqp

open Settlement

def i32TryFrom (value : Nat) (error : String) : Except String Int :=
  if (value : Int) ≤ i32Max then .ok value else .error error

/-- Returns the table as the caller sees it afterwards, and the result. -/
def materializeHandoffMetadata (headers : FieldTable) (plan : HandoffPlan) :
    FieldTable × Except String Unit :=
  match canonicalRetryCount (some headers) with
  | .error error => (headers, .error error)
  | .ok currentRetryCount =>
    if currentRetryCount ≠ plan.currentRetryCount then
      (headers, .error "settlement handoff retry count changed after policy materialization")
    else
      match i32TryFrom plan.nextRetryCount "retry count exceeds the AMQP LongInt range" with
      | .error error => (headers, .error error)
      | .ok retryCount =>
        match i32TryFrom plan.deliveryAttempt
            "delivery attempt exceeds the AMQP LongInt range" with
        | .error error => (headers, .error error)
        | .ok deliveryAttempt =>
          let headers := headers.insert "x-retry-count" (.longInt retryCount)
          let headers :=
            headers.insert "x-lily-failure-delivery-attempt" (.longInt deliveryAttempt)
          let headers :=
            headers.insert "x-lily-rejection-code" (.longString (.utf8 plan.failureCode))
          (headers, .ok ())

structure AmqpHeaderInjector where
  headers : FieldTable
  invalid : Bool

namespace AmqpHeaderInjector

/-- The bound on each header that a propagator may write. -/
def maxBytes (key : String) : Option Nat :=
  if key = "traceparent" then some maxW3cTraceparentBytes
  else if key = "tracestate" then some maxW3cTracestateBytes
  else none

def set (injector : AmqpHeaderInjector) (call : String × String) : AmqpHeaderInjector :=
  match maxBytes call.1 with
  | none => { injector with invalid := true }
  | some bound =>
    if bound < call.2.utf8ByteSize then { injector with invalid := true }
    else { injector with headers := injector.headers.insert call.1 (.longString (.utf8 call.2)) }

def finish (injector : AmqpHeaderInjector) : Except String FieldTable :=
  if injector.invalid then
    .error "trace propagation metadata is outside the bounded handoff contract"
  else .ok injector.headers

end AmqpHeaderInjector

/-- The calls that a propagator makes on the injector, in order. -/
abbrev Injection := List (String × String)

variable (headers : FieldTable) (plan : HandoffPlan) (injection : Injection)

def injectCurrentContext : Except String FieldTable :=
  (injection.foldl AmqpHeaderInjector.set ⟨headers, false⟩).finish

def canonicalRetryEventId [UuidCrate] : Except String String :=
  match (boundedHeaderText headers "x-lily-event-id" 36).filter isCanonicalUuid with
  | some eventId => .ok eventId
  | none => .error "retry routing requires a canonical x-lily-event-id"

/-- The headers that a handoff publishes, up to the routing of the message. -/
def handoffHeaders [UuidCrate] :
    Except String FieldTable := do
  let (headers, result) := materializeHandoffMetadata headers plan
  result
  if plan.destination = .retry then
    let _ ← canonicalRetryEventId headers
    injectCurrentContext headers injection
  else injectCurrentContext headers injection

def handoffProperties [UuidCrate] (properties : BasicProperties) (plan : HandoffPlan)
    (injection : Injection) :
    Except String BasicProperties :=
  (handoffHeaders (properties.headers.getD ∅) plan injection).map properties.withHeaders

/-! ## What a handoff writes -/

section Specification

variable {headers headers' : FieldTable} {plan : HandoffPlan} {injection : Injection}

/-- The three headers of the framework. -/
def writeHandoff (headers : FieldTable) (plan : HandoffPlan) : FieldTable :=
  ((headers.insert "x-retry-count" (.longInt plan.nextRetryCount)).insert
    "x-lily-failure-delivery-attempt" (.longInt plan.deliveryAttempt)).insert
    "x-lily-rejection-code" (.longString (.utf8 plan.failureCode))

/-- A plan that belongs to this table and whose counters are representable. -/
structure Consistent (headers : FieldTable) (plan : HandoffPlan) : Prop where
  current : canonicalRetryCount (some headers) = .ok plan.currentRetryCount
  next : (plan.nextRetryCount : Int) ≤ i32Max
  attempt : (plan.deliveryAttempt : Int) ≤ i32Max

theorem materializeHandoffMetadata_cases (headers : FieldTable) (plan : HandoffPlan) :
    (Consistent headers plan ∧
      materializeHandoffMetadata headers plan = (writeHandoff headers plan, .ok ())) ∨
    (¬ Consistent headers plan ∧
      ∃ error, materializeHandoffMetadata headers plan = (headers, .error error)) := by
  fun_cases materializeHandoffMetadata headers plan with
  | case5 => exact .inl ⟨⟨by grind, by grind [i32TryFrom], by grind [i32TryFrom]⟩,
      by grind [i32TryFrom, writeHandoff]⟩
  | _ => exact .inr ⟨fun ⟨hcurrent, hnext, hattempt⟩ => by grind [i32TryFrom], _, rfl⟩

variable {injector : AmqpHeaderInjector} {call : String × String} {key : String}

/-- A trace header is either kept or replaced by a bounded text. -/
theorem set_lookup :
    (injector.set call).headers.lookup key = injector.headers.lookup key ∨
      ∃ text bound, AmqpHeaderInjector.maxBytes key = some bound ∧ text.utf8ByteSize ≤ bound ∧
        (injector.set call).headers.lookup key = some (.longString (.utf8 text)) := by
  unfold AmqpHeaderInjector.set
  cases hbound : AmqpHeaderInjector.maxBytes call.1 with
  | none => exact .inl rfl
  | some bound =>
    simp only
    split_ifs with hlong
    · exact .inl rfl
    · by_cases hkey : key = call.1
      · subst hkey
        exact .inr ⟨call.2, bound, hbound, Nat.not_lt.mp hlong, AList.lookup_insert _⟩
      · exact .inl (AList.lookup_insert_ne hkey)

theorem foldl_set_lookup :
    (injection.foldl AmqpHeaderInjector.set injector).headers.lookup key =
        injector.headers.lookup key ∨
      ∃ text bound, AmqpHeaderInjector.maxBytes key = some bound ∧ text.utf8ByteSize ≤ bound ∧
        (injection.foldl AmqpHeaderInjector.set injector).headers.lookup key =
          some (.longString (.utf8 text)) := by
  induction injection generalizing injector with
  | nil => exact .inl rfl
  | cons call rest ih =>
    rw [List.foldl_cons]
    rcases @ih (injector.set call) with hkept | hwritten
    · rw [hkept]
      exact set_lookup
    · exact .inr hwritten

/-- The published headers, one by one. -/
structure HandedOff (headers : FieldTable) (plan : HandoffPlan) (headers' : FieldTable) :
    Prop where
  retryCount : headers'.lookup "x-retry-count" = some (.longInt plan.nextRetryCount)
  deliveryAttempt : headers'.lookup "x-lily-failure-delivery-attempt" =
    some (.longInt plan.deliveryAttempt)
  rejectionCode : headers'.lookup "x-lily-rejection-code" =
    some (.longString (.utf8 plan.failureCode))
  trace : ∀ key bound, AmqpHeaderInjector.maxBytes key = some bound →
    headers'.lookup key = headers.lookup key ∨
      ∃ text, text.utf8ByteSize ≤ bound ∧
        headers'.lookup key = some (.longString (.utf8 text))
  other : ∀ key, key ∉ frameworkHandoffHeaders → headers'.lookup key = headers.lookup key

theorem lookup_writeHandoff_of_ne (hretry : key ≠ "x-retry-count")
    (hattempt : key ≠ "x-lily-failure-delivery-attempt") (hcode : key ≠ "x-lily-rejection-code") :
    (writeHandoff headers plan).lookup key = headers.lookup key := by
  rw [writeHandoff, AList.lookup_insert_ne hcode, AList.lookup_insert_ne hattempt,
    AList.lookup_insert_ne hretry]

theorem injectCurrentContext_lookup (h : injectCurrentContext headers injection = .ok headers')
    (key : String) :
    headers'.lookup key = headers.lookup key ∨
      ∃ text bound, AmqpHeaderInjector.maxBytes key = some bound ∧ text.utf8ByteSize ≤ bound ∧
        headers'.lookup key = some (.longString (.utf8 text)) := by
  unfold injectCurrentContext AmqpHeaderInjector.finish at h
  split_ifs at h
  cases h
  exact foldl_set_lookup

theorem handedOff_inject
    (h : injectCurrentContext (writeHandoff headers plan) injection = .ok headers') :
    HandedOff headers plan headers' := by
  have hkept {key : String} (hkey : AmqpHeaderInjector.maxBytes key = none) :
      headers'.lookup key = (writeHandoff headers plan).lookup key := by
    rcases injectCurrentContext_lookup h key with hkept | ⟨_, _, hbound, -⟩
    · exact hkept
    · cases hkey.symm.trans hbound
  refine ⟨?_, ?_, ?_, ?_, ?_⟩
  · rw [hkept rfl, writeHandoff, AList.lookup_insert_ne (by decide),
      AList.lookup_insert_ne (by decide), AList.lookup_insert]
  · rw [hkept rfl, writeHandoff, AList.lookup_insert_ne (by decide), AList.lookup_insert]
  · rw [hkept rfl, writeHandoff, AList.lookup_insert]
  · intro key bound hbound
    have hwritten : (writeHandoff headers plan).lookup key = headers.lookup key := by
      apply lookup_writeHandoff_of_ne <;> rintro rfl <;> cases hbound
    rcases injectCurrentContext_lookup h key with hsame | ⟨text, bound', hbound', htext, hset⟩
    · exact .inl (hsame.trans hwritten)
    · cases hbound.symm.trans hbound'
      exact .inr ⟨text, htext, hset⟩
  · intro key hkey
    simp only [frameworkHandoffHeaders, List.mem_cons, List.not_mem_nil, or_false, not_or] at hkey
    obtain ⟨hretry, hattempt, hcode, htraceparent, htracestate⟩ := hkey
    have hbound : AmqpHeaderInjector.maxBytes key = none := by
      simp [AmqpHeaderInjector.maxBytes, htraceparent, htracestate]
    rw [hkept hbound, lookup_writeHandoff_of_ne hretry hattempt hcode]

theorem foldl_set_invalid :
    (injection.foldl AmqpHeaderInjector.set injector).invalid = false ↔
      injector.invalid = false ∧ ∀ call ∈ injection, ∃ bound,
        AmqpHeaderInjector.maxBytes call.1 = some bound ∧ call.2.utf8ByteSize ≤ bound := by
  induction injection generalizing injector with
  | nil => simp
  | cons call rest ih =>
    rw [List.foldl_cons, ih, List.forall_mem_cons, ← and_assoc]
    refine and_congr_left fun _ => ?_
    unfold AmqpHeaderInjector.set
    cases AmqpHeaderInjector.maxBytes call.1 with
    | none => simp
    | some bound =>
      by_cases hlong : bound < call.2.utf8ByteSize
      · simp [hlong]
      · simp [hlong, Nat.not_lt.mp hlong]

theorem HandedOff.canonicalRetryCount (h : HandedOff headers plan headers')
    (hnext : plan.nextRetryCount ≤ maxQueueRetryAttempts) :
    canonicalRetryCount (some headers') = .ok plan.nextRetryCount := by
  simp [Amqp.canonicalRetryCount, h.retryCount, hnext]

variable [UuidCrate]

theorem handoffHeaders_ok_iff :
    handoffHeaders headers plan injection = .ok headers' ↔
      Consistent headers plan ∧
        (plan.destination = .retry →
          ∃ eventId, canonicalRetryEventId (writeHandoff headers plan) = .ok eventId) ∧
        injectCurrentContext (writeHandoff headers plan) injection = .ok headers' := by
  rcases materializeHandoffMetadata_cases headers plan with ⟨hplan, heq⟩ | ⟨hplan, error, heq⟩
  · simp only [handoffHeaders, heq, hplan, true_and]
    by_cases hretry : plan.destination = .retry
    · cases hevent : canonicalRetryEventId (writeHandoff headers plan) with
      | error error | ok eventId => simp [hretry, bind, Except.bind]
    · simp [hretry, bind, Except.bind]
  · simp [handoffHeaders, heq, hplan, bind, Except.bind]

/-- What a handoff needs besides its counters: trace texts within their bounds and, for a
retry, an event id to route by. -/
@[mk_iff]
structure Publishable (headers : FieldTable) (injection : Injection)
    (destination : HandoffDestination) : Prop where
  eventId : destination = .retry → ∃ eventId, canonicalRetryEventId headers = .ok eventId
  trace : ∀ call ∈ injection, ∃ bound, AmqpHeaderInjector.maxBytes call.1 = some bound ∧
    call.2.utf8ByteSize ≤ bound

theorem canonicalRetryEventId_congr
    (h : headers'.lookup "x-lily-event-id" = headers.lookup "x-lily-event-id") :
    canonicalRetryEventId headers' = canonicalRetryEventId headers := by
  simp only [canonicalRetryEventId, boundedHeaderText, h]

theorem publishable_congr {destination : HandoffDestination}
    (h : headers'.lookup "x-lily-event-id" = headers.lookup "x-lily-event-id") :
    Publishable headers' injection destination ↔ Publishable headers injection destination := by
  simp only [publishable_iff, canonicalRetryEventId_congr h]

theorem exists_handoffHeaders_iff :
    (∃ headers', handoffHeaders headers plan injection = .ok headers') ↔
      Consistent headers plan ∧ Publishable headers injection plan.destination := by
  have hevent : canonicalRetryEventId (writeHandoff headers plan) = canonicalRetryEventId headers :=
    canonicalRetryEventId_congr (lookup_writeHandoff_of_ne (by decide) (by decide) (by decide))
  have hinject : (∃ headers', injectCurrentContext (writeHandoff headers plan) injection =
      .ok headers') ↔ ∀ call ∈ injection, ∃ bound,
        AmqpHeaderInjector.maxBytes call.1 = some bound ∧ call.2.utf8ByteSize ≤ bound := by
    have hfold := @foldl_set_invalid injection ⟨writeHandoff headers plan, false⟩
    simp only [true_and] at hfold
    rw [← hfold, injectCurrentContext, AmqpHeaderInjector.finish]
    split_ifs with hinvalid <;> simp [hinvalid]
  simp only [handoffHeaders_ok_iff, exists_and_left, hevent, hinject, publishable_iff]

theorem handoffHeaders_handedOff (h : handoffHeaders headers plan injection = .ok headers') :
    HandedOff headers plan headers' :=
  handedOff_inject (handoffHeaders_ok_iff.mp h).2.2

end Specification

end Lily.Queue.Amqp
