import Lily.Queue.Amqp.Footprint
import Lily.Queue.Amqp.Generations
import Lily.Text.Utf8

/-!
# Does an admitted delivery always have room for its handoff?

Admission validates the received metadata and a projection in which the five headers
of the framework have their largest size. The projection replaces inbound trace
headers, but the propagator need not: when nothing is injected, an inbound trace
header of any size is published again next to the three headers that are added. The
exact condition under which every handoff passes its own check is `WorstCaseFits`,
where each trace header counts with the larger of both sizes.
-/

namespace Lily.Queue.Amqp

open Settlement Collection

/-! ## Splitting a table into its framework headers and the rest -/

variable (f : String → AMQPValue → Nat) (headers : FieldTable)

def application : FieldTable :=
  eraseAll headers frameworkHandoffHeaders

variable (properties : BasicProperties) (key : String)

theorem lookup_application :
    (application headers).lookup key =
      if key ∈ frameworkHandoffHeaders then none else headers.lookup key :=
  lookup_eraseAll _ key

/-- The total over a table, with the framework's headers one by one. -/
theorem total_eq :
    total f headers =
      total f (application headers) +
        (part f headers "x-retry-count" +
          part f headers "x-lily-failure-delivery-attempt" +
          part f headers "x-lily-rejection-code" +
          part f headers "traceparent" + part f headers "tracestate") := by
  have hnodup : frameworkHandoffHeaders.Nodup := by decide
  rw [total_eq_parts_add f hnodup]
  simp only [frameworkHandoffHeaders, List.map_cons, List.map_nil, List.sum_cons, List.sum_nil,
    application]
  omega

theorem total_application_congr {headers headers' : FieldTable}
    (h : ∀ key, key ∉ frameworkHandoffHeaders → headers'.lookup key = headers.lookup key) :
    total f (application headers') = total f (application headers) := by
  refine total_congr f fun key => ?_
  rw [lookup_application, lookup_application]
  split_ifs with hkey
  · rfl
  · exact h key hkey

theorem lookup_applicationHeaders :
    (applicationHeaders headers.entries).lookup key =
      if key ∈ frameworkHandoffHeaders then none else headers.lookup key := by
  -- No key occurs twice, so what the loop has written is not overwritten.
  have hloop (entries : List (Sigma fun _ : String => AMQPValue)) (projected : FieldTable)
      (hnodup : entries.NodupKeys) :
      (entries.foldl (fun projected entry =>
          if isFrameworkHandoffHeader entry.1 then projected
          else projected.insert entry.1 entry.2) projected).lookup key =
        if key ∈ frameworkHandoffHeaders then projected.lookup key
        else (entries.dlookup key).or (projected.lookup key) := by
    induction entries generalizing projected with
    | nil => simp
    | cons entry rest ih =>
      obtain ⟨hfresh, hrest⟩ := List.nodupKeys_cons.mp hnodup
      rw [List.foldl_cons, ih _ hrest]
      by_cases hkey : key = entry.1
      · subst hkey
        have habsent : rest.dlookup entry.1 = none := List.dlookup_eq_none.mpr hfresh
        by_cases hframework : entry.1 ∈ frameworkHandoffHeaders
        · simp [hframework, isFrameworkHandoffHeader]
        · have hfound : (entry :: rest).dlookup entry.1 = some entry.2 :=
            List.dlookup_cons_eq rest entry.1 entry.2
          simp [hframework, isFrameworkHandoffHeader, habsent, hfound]
      · rw [List.dlookup_cons_ne rest entry hkey]
        by_cases hframework : isFrameworkHandoffHeader entry.1
        · simp [hframework]
        · simp [hframework, AList.lookup_insert_ne hkey]
  rw [applicationHeaders, hloop _ _ headers.nodupKeys]
  simp [AList.lookup]

/-! ## Weights that only see sizes -/

/-- A weight that takes a text to be at its heaviest when it is longest, and an integer
to weigh the same whatever its value. -/
structure SizeWeight (f : String → AMQPValue → Nat) : Prop where
  longInt : ∀ key a b, f key (.longInt a) = f key (.longInt b)
  text : ∀ key c text n, c.utf8Size = 1 → text.utf8ByteSize ≤ n → n ≤ maxAmqpValueBytes →
    f key (.longString (.utf8 text)) ≤ f key (repeated c n)

theorem weigh_text {text : String} (h : text.utf8ByteSize ≤ maxAmqpValueBytes) :
    weigh (.longString (.utf8 text)) 1 = some (text.utf8ByteSize, 1) := by
  simp [weigh, enclose, scalarSize, LongString.len, Nat.not_lt.mpr h]

theorem utf8ByteSize_replicate {c : Char} (hc : c.utf8Size = 1) (n : Nat) :
    (String.ofList (List.replicate n c)).utf8ByteSize = n := by
  rw [String.utf8ByteSize_ofList, Utf8.utf8Len_eq_length, List.length_replicate]
  exact fun d hd => List.eq_of_mem_replicate hd ▸ hc

theorem weigh_repeated {c : Char} (hc : c.utf8Size = 1) {n : Nat} (h : n ≤ maxAmqpValueBytes) :
    weigh (repeated c n) 1 = some (n, 1) := by
  rw [repeated, weigh_text (by rwa [utf8ByteSize_replicate hc]), utf8ByteSize_replicate hc]

theorem sizeWeight_headerBytes : SizeWeight headerBytes := by
  refine ⟨fun key a b => rfl, fun key c text n hc htext hn => ?_⟩
  simp only [headerBytes, weigh_text (htext.trans hn), weigh_repeated hc hn, Option.map_some,
    Option.getD_some]
  omega

theorem sizeWeight_headerElements : SizeWeight headerElements := by
  refine ⟨fun key a b => rfl, fun key c text n hc htext hn => ?_⟩
  simp [headerElements, weigh_text (htext.trans hn), weigh_repeated hc hn]

theorem sizeWeight_one : SizeWeight fun _ _ => 1 :=
  ⟨fun _ _ _ => rfl, fun _ _ _ _ _ _ _ => le_rfl⟩

/-! ## The projection and the worst case -/

/-- The largest values of the headers of the framework. -/
def largest : AMQPValue :=
  if key = "x-lily-rejection-code" then repeated 'X' maxRejectionCodeBytes
  else if key = "traceparent" then repeated '0' maxW3cTraceparentBytes
  else if key = "tracestate" then repeated 'x' maxW3cTracestateBytes
  else .longInt i32Max

theorem lookup_projected :
    (projectedHandoffProperties properties).table.lookup key =
      if key ∈ frameworkHandoffHeaders then some (largest key)
      else properties.table.lookup key := by
  simp only [projectedHandoffProperties, BasicProperties.table, BasicProperties.withHeaders,
    Option.getD_some, properties.entries_eq]
  by_cases hframework : key ∈ frameworkHandoffHeaders
  · rw [if_pos hframework]
    simp only [frameworkHandoffHeaders, List.mem_cons, List.not_mem_nil, or_false] at hframework
    rcases hframework with rfl | rfl | rfl | rfl | rfl <;>
      simp [AList.lookup_insert, AList.lookup_insert_ne, largest]
  · rw [if_neg hframework]
    have hne : ∀ other ∈ frameworkHandoffHeaders, key ≠ other :=
      fun other hother heq => hframework (heq ▸ hother)
    simp only [frameworkHandoffHeaders, List.forall_mem_cons] at hne
    rw [AList.lookup_insert_ne hne.2.2.2.2.1, AList.lookup_insert_ne hne.2.2.2.1,
      AList.lookup_insert_ne hne.2.2.1, AList.lookup_insert_ne hne.2.1,
      AList.lookup_insert_ne hne.1, lookup_applicationHeaders, if_neg hframework]

/-- The total over the headers of a handoff that adds the most: a trace header is
either kept or replaced by its largest value. -/
def worstCase : Nat :=
  total f (application headers) +
    (f "x-retry-count" (largest "x-retry-count") +
      f "x-lily-failure-delivery-attempt" (largest "x-lily-failure-delivery-attempt") +
      f "x-lily-rejection-code" (largest "x-lily-rejection-code") +
      max (part f headers "traceparent") (f "traceparent" (largest "traceparent")) +
      max (part f headers "tracestate") (f "tracestate" (largest "tracestate")))

/-- Metadata that leaves room for every handoff. -/
structure WorstCaseFits (properties : BasicProperties) : Prop where
  elements : worstCase headerElements properties.table ≤ maxAmqpNestedElements
  bytes : worstCase headerBytes properties.table + properties.propertyBytes ≤ maxAmqpMetadataBytes

theorem total_projected :
    total f (projectedHandoffProperties properties).table =
      total f (application properties.table) +
        (f "x-retry-count" (largest "x-retry-count") +
          f "x-lily-failure-delivery-attempt" (largest "x-lily-failure-delivery-attempt") +
          f "x-lily-rejection-code" (largest "x-lily-rejection-code") +
          f "traceparent" (largest "traceparent") + f "tracestate" (largest "tracestate")) := by
  have happlication :
      total f (application (projectedHandoffProperties properties).table) =
        total f (application properties.table) :=
    total_application_congr f fun key hkey => by rw [lookup_projected, if_neg hkey]
  have hpart {key : String} (hkey : key ∈ frameworkHandoffHeaders) :
      part f (projectedHandoffProperties properties).table key = f key (largest key) :=
    part_of_lookup f (by rw [lookup_projected, if_pos hkey])
  rw [total_eq, happlication, hpart (by decide), hpart (by decide), hpart (by decide),
    hpart (by decide), hpart (by decide)]

@[simp] theorem table_withHeaders (headers : FieldTable) :
    (properties.withHeaders headers).table = headers := rfl

theorem WithinBounds.congr {properties : BasicProperties} {headers headers' : FieldTable}
    (h : WithinBounds (properties.withHeaders headers))
    (heq : ∀ key, headers'.lookup key = headers.lookup key) :
    WithinBounds (properties.withHeaders headers') := by
  have htotal (f : String → AMQPValue → Nat) :
      total f headers' = total f headers := total_congr f heq
  refine ⟨?_, fun key value hvalue => ?_, ?_, h.texts, ?_⟩
  · rw [table_withHeaders, htotal]
    exact h.count
  · rw [table_withHeaders, heq] at hvalue
    exact h.headers key value hvalue
  · rw [table_withHeaders, htotal]
    exact h.elements
  · rw [table_withHeaders, htotal]
    exact h.bytes

theorem validateHandoffMetadataHeadroom_ok_iff {properties : BasicProperties} :
    validateHandoffMetadataHeadroom properties = .ok () ↔
      WithinBounds properties ∧ WithinBounds (projectedHandoffProperties properties) := by
  rw [← validateAmqpMetadata_ok_iff, ← validateAmqpMetadata_ok_iff, validateHandoffMetadataHeadroom]
  cases validateAmqpMetadata properties <;> simp

/-! ## Room for every handoff -/

section Handoff

variable {f : String → AMQPValue → Nat} {headers headers' : FieldTable} {plan : HandoffPlan}
  {properties : BasicProperties}

theorem largest_trace {key : String} {bound : Nat}
    (hbound : AmqpHeaderInjector.maxBytes key = some bound) :
    bound ≤ maxAmqpValueBytes ∧ ∃ c : Char, c.utf8Size = 1 ∧ largest key = repeated c bound := by
  unfold AmqpHeaderInjector.maxBytes at hbound
  split_ifs at hbound with htraceparent htracestate
  · cases hbound
    subst htraceparent
    exact ⟨by decide, '0', by decide, rfl⟩
  · cases hbound
    subst htracestate
    exact ⟨by decide, 'x', by decide, rfl⟩

theorem HandedOff.part_trace_le (hf : SizeWeight f) (h : HandedOff headers plan headers')
    (key : String) {bound : Nat} (hbound : AmqpHeaderInjector.maxBytes key = some bound) :
    part f headers' key ≤ max (part f headers key) (f key (largest key)) := by
  rcases h.trace key bound hbound with hkept | ⟨text, htext, hset⟩
  · rw [part_congr f hkept]
    exact le_max_left _ _
  · obtain ⟨hle, c, hc, heq⟩ := largest_trace hbound
    rw [part_of_lookup f hset, heq]
    exact (hf.text key c text bound hc htext hle).trans (le_max_right _ _)

theorem HandedOff.part_rejectionCode_le (hf : SizeWeight f) (h : HandedOff headers plan headers')
    (hcode : plan.failureCode.utf8ByteSize ≤ maxRejectionCodeBytes) :
    part f headers' "x-lily-rejection-code" ≤
      f "x-lily-rejection-code" (largest "x-lily-rejection-code") := by
  rw [part_of_lookup f h.rejectionCode]
  exact hf.text _ 'X' _ _ (by decide) hcode (by decide)

theorem HandedOff.total_le_worstCase (hf : SizeWeight f) (h : HandedOff headers plan headers')
    (hcode : plan.failureCode.utf8ByteSize ≤ maxRejectionCodeBytes) :
    total f headers' ≤ worstCase f headers := by
  have hretry : part f headers' "x-retry-count" =
      f "x-retry-count" (largest "x-retry-count") :=
    (part_of_lookup f h.retryCount).trans (hf.longInt _ _ _)
  have hattempt : part f headers' "x-lily-failure-delivery-attempt" =
      f "x-lily-failure-delivery-attempt" (largest "x-lily-failure-delivery-attempt") :=
    (part_of_lookup f h.deliveryAttempt).trans (hf.longInt _ _ _)
  have hrejection := h.part_rejectionCode_le hf hcode
  have htraceparent := h.part_trace_le hf "traceparent" rfl
  have htracestate := h.part_trace_le hf "tracestate" rfl
  rw [total_eq, total_application_congr f h.other, hretry, hattempt, worstCase]
  omega

theorem HandedOff.worstCase_le (hf : SizeWeight f) (h : HandedOff headers plan headers') :
    worstCase f headers' ≤ worstCase f headers := by
  have htraceparent := h.part_trace_le hf "traceparent" rfl
  have htracestate := h.part_trace_le hf "tracestate" rfl
  rw [worstCase, worstCase, total_application_congr f h.other]
  omega

theorem HandedOff.headerOk (h : HandedOff headers plan headers')
    (hcode : plan.failureCode.utf8ByteSize ≤ maxRejectionCodeBytes)
    (hheaders : ∀ key value, headers.lookup key = some value → HeaderOk key value) :
    ∀ key value, headers'.lookup key = some value → HeaderOk key value := by
  have htrace (key : String) {bound : Nat} (hbound : AmqpHeaderInjector.maxBytes key = some bound)
      (hkey : validateAmqpKey key = .ok ()) :
      ∀ value, headers'.lookup key = some value → HeaderOk key value := by
    intro value hvalue
    rcases h.trace key bound hbound with hkept | ⟨text, htext, hset⟩
    · exact hheaders key value (hkept ▸ hvalue)
    · cases hset.symm.trans hvalue
      refine ⟨hkey, ?_⟩
      rw [weigh_text (htext.trans (largest_trace hbound).1)]
      rfl
  intro key value hvalue
  by_cases hframework : key ∈ frameworkHandoffHeaders
  · simp only [frameworkHandoffHeaders, List.mem_cons, List.not_mem_nil, or_false] at hframework
    rcases hframework with rfl | rfl | rfl | rfl | rfl
    · cases h.retryCount.symm.trans hvalue
      exact ⟨rfl, rfl⟩
    · cases h.deliveryAttempt.symm.trans hvalue
      exact ⟨rfl, rfl⟩
    · cases h.rejectionCode.symm.trans hvalue
      refine ⟨rfl, ?_⟩
      rw [weigh_text (hcode.trans (by decide))]
      rfl
    · exact htrace "traceparent" rfl rfl value hvalue
    · exact htrace "tracestate" rfl rfl value hvalue
  · rw [h.other key hframework] at hvalue
    exact hheaders key value hvalue

/-- The number of headers after a handoff is at most that of the projection. -/
theorem worstCase_count_le (properties : BasicProperties) :
    worstCase (fun _ _ => 1) properties.table ≤
      total (fun _ _ => 1) (projectedHandoffProperties properties).table := by
  have hpart (key : String) : part (fun _ _ => 1) properties.table key ≤ 1 := by
    unfold part
    cases properties.table.lookup key <;> simp
  have htraceparent := hpart "traceparent"
  have htracestate := hpart "tracestate"
  rw [worstCase, total_projected]
  omega

theorem HandedOff.projected_lookup (h : HandedOff properties.table plan headers') (key : String) :
    (projectedHandoffProperties (properties.withHeaders headers')).table.lookup key =
      (projectedHandoffProperties properties).table.lookup key := by
  rw [lookup_projected, lookup_projected, table_withHeaders]
  split_ifs with hkey
  · rfl
  · exact h.other key hkey

/-- A handoff within both budgets passes the check of its metadata. -/
theorem HandedOff.validate (h : HandedOff properties.table plan headers')
    (hcode : plan.failureCode.utf8ByteSize ≤ maxRejectionCodeBytes)
    (hadmitted : validateHandoffMetadataHeadroom properties = .ok ())
    (hfits : WorstCaseFits properties) :
    validateHandoffMetadataHeadroom (properties.withHeaders headers') = .ok () := by
  obtain ⟨hwithin, hprojected⟩ := validateHandoffMetadataHeadroom_ok_iff.mp hadmitted
  have hcount := h.total_le_worstCase sizeWeight_one hcode
  have hcountProjected := worstCase_count_le properties
  have helements := h.total_le_worstCase sizeWeight_headerElements hcode
  have hbytes := h.total_le_worstCase sizeWeight_headerBytes hcode
  refine validateHandoffMetadataHeadroom_ok_iff.mpr ⟨⟨?_, ?_, ?_, hwithin.texts, ?_⟩, ?_⟩
  · exact hcount.trans (hcountProjected.trans hprojected.count)
  · exact h.headerOk hcode hwithin.headers
  · exact helements.trans hfits.elements
  · exact (Nat.add_le_add_right hbytes _).trans hfits.bytes
  · exact hprojected.congr h.projected_lookup

theorem HandedOff.fits (h : HandedOff properties.table plan headers')
    (hfits : WorstCaseFits properties) : WorstCaseFits (properties.withHeaders headers') :=
  ⟨(h.worstCase_le sizeWeight_headerElements).trans hfits.elements,
    (Nat.add_le_add_right (h.worstCase_le sizeWeight_headerBytes) _).trans hfits.bytes⟩

end Handoff

section Generations

variable [UuidCrate]

/-- The properties of one delivery and of a message that hands it off: under any plan
that is consistent with the delivery, whatever the propagator injects. -/
def Handoff (delivered published : BasicProperties) : Prop :=
  ∃ plan injection, plan.failureCode.utf8ByteSize ≤ maxRejectionCodeBytes ∧
    handoffProperties delivered plan injection = .ok published

theorem Handoff.handedOff {delivered published : BasicProperties}
    (h : Handoff delivered published) :
    ∃ plan headers, plan.failureCode.utf8ByteSize ≤ maxRejectionCodeBytes ∧
      HandedOff delivered.table plan headers ∧ published = delivered.withHeaders headers := by
  obtain ⟨plan, injection, hcode, hpublished⟩ := h
  unfold handoffProperties at hpublished
  cases hheaders : handoffHeaders (delivered.headers.getD ∅) plan injection with
  | error error => simp [hheaders, Except.map] at hpublished
  | ok headers =>
    simp only [hheaders, Except.map, Except.ok.injEq] at hpublished
    exact ⟨plan, headers, hcode, handoffHeaders_handedOff hheaders, hpublished.symm⟩

theorem Handoff.of_handoffHeaders {properties : BasicProperties} {plan : HandoffPlan}
    {injection : Injection} {headers : FieldTable}
    (hcode : plan.failureCode.utf8ByteSize ≤ maxRejectionCodeBytes)
    (h : handoffHeaders properties.table plan injection = .ok headers) :
    Handoff properties (properties.withHeaders headers) := by
  refine ⟨plan, injection, hcode, ?_⟩
  rw [handoffProperties, show properties.headers.getD ∅ = properties.table from rfl, h]
  rfl

/-- One generation keeps the room, and so does any number of them. -/
theorem validate_generations {properties published : BasicProperties}
    (hadmitted : validateHandoffMetadataHeadroom properties = .ok ())
    (hfits : WorstCaseFits properties) (h : Relation.TransGen Handoff properties published) :
    validateHandoffMetadataHeadroom published = .ok () ∧ WorstCaseFits published := by
  have hstep {delivered published : BasicProperties} (h : Handoff delivered published)
      (hvalid : validateHandoffMetadataHeadroom delivered = .ok ())
      (hfits : WorstCaseFits delivered) :
      validateHandoffMetadataHeadroom published = .ok () ∧ WorstCaseFits published := by
    obtain ⟨plan, headers, hcode, handed, rfl⟩ := h.handedOff
    exact ⟨handed.validate hcode hvalid hfits, handed.fits hfits⟩
  induction h with
  | single h => exact hstep h hadmitted hfits
  | tail _ h ih => exact hstep h ih.1 ih.2

/-! ## The worst case happens -/

section Attained

/-- A propagator that writes the largest trace headers, one of them or both. -/
def largestInjection (traceparent tracestate : Bool) : Injection :=
  (if traceparent then
    [("traceparent", String.ofList (List.replicate maxW3cTraceparentBytes '0'))] else []) ++
  (if tracestate then
    [("tracestate", String.ofList (List.replicate maxW3cTracestateBytes 'x'))] else [])

omit [UuidCrate] in
theorem injectCurrentContext_largest (headers : FieldTable) (traceparent tracestate : Bool) :
    ∃ headers', injectCurrentContext headers (largestInjection traceparent tracestate) =
        .ok headers' ∧
      headers'.lookup "traceparent" =
        (if traceparent then some (largest "traceparent") else headers.lookup "traceparent") ∧
      headers'.lookup "tracestate" =
        (if tracestate then some (largest "tracestate") else headers.lookup "tracestate") := by
  have hset (key : String) (c : Char) {bound : Nat}
      (hbound : AmqpHeaderInjector.maxBytes key = some bound) (hc : c.utf8Size = 1)
      (injector : AmqpHeaderInjector) :
      injector.set (key, String.ofList (List.replicate bound c)) =
        { injector with headers := injector.headers.insert key (repeated c bound) } := by
    simp [AmqpHeaderInjector.set, hbound, repeated, utf8ByteSize_replicate hc]
  have hparent := hset "traceparent" '0' rfl rfl
  have hstate := hset "tracestate" 'x' rfl rfl
  cases traceparent <;> cases tracestate <;>
    simp [largestInjection, injectCurrentContext, hparent, hstate, AmqpHeaderInjector.finish,
      AList.lookup_insert_ne, largest]

omit [UuidCrate] in
theorem canonicalRetryCount_table (properties : BasicProperties) :
    canonicalRetryCount (some properties.table) = canonicalRetryCount properties.headers := by
  unfold BasicProperties.table
  cases properties.headers <;> rfl

omit [UuidCrate] in
theorem canonicalRetryCount_le {headers : Option FieldTable} {count : Nat}
    (h : canonicalRetryCount headers = .ok count) : count ≤ maxQueueRetryAttempts := by
  unfold canonicalRetryCount at h
  split at h
  · cases h
    exact Nat.zero_le _
  · split_ifs at h with hvalue
    cases h
    exact hvalue.2
  · cases h

/-- For each weight there is a dead letter that attains the worst case. -/
theorem exists_handoff_total_eq {f : String → AMQPValue → Nat} (hf : SizeWeight f)
    {properties : BasicProperties} {count : Nat}
    (hcount : canonicalRetryCount properties.headers = .ok count) :
    ∃ headers, Handoff properties (properties.withHeaders headers) ∧
      total f headers = worstCase f properties.table := by
  set code := String.ofList (List.replicate maxRejectionCodeBytes 'X') with hcode
  set plan := HandoffPlan.forFailure .permanent code count count with hplan
  -- A trace header is replaced exactly when that makes it heavier.
  set replaces := fun key => decide (part f properties.table key < f key (largest key))
    with hreplaces
  have hconsistent : Consistent properties.table plan :=
    forFailure_consistent .permanent code count ((canonicalRetryCount_table _).trans hcount) le_rfl
      (canonicalRetryCount_le hcount)
  obtain ⟨headers, hinject, htraceparent, htracestate⟩ := injectCurrentContext_largest
    (writeHandoff properties.table plan) (replaces "traceparent") (replaces "tracestate")
  have hheaders : handoffHeaders properties.table plan
      (largestInjection (replaces "traceparent") (replaces "tracestate")) = .ok headers :=
    handoffHeaders_ok_iff.mpr
      ⟨hconsistent, fun hretry => by simp [hplan, HandoffPlan.forFailure] at hretry, hinject⟩
  have handed := handoffHeaders_handedOff hheaders
  have hmax {key : String} (hlookup : headers.lookup key =
      if replaces key then some (largest key) else properties.table.lookup key) :
      part f headers key =
        max (part f properties.table key) (f key (largest key)) := by
    by_cases hlt : part f properties.table key < f key (largest key)
    · rw [part_of_lookup f (hlookup.trans (if_pos (by simpa [hreplaces] using hlt))),
        max_eq_right hlt.le]
    · rw [part_congr f (hlookup.trans (if_neg (by simpa [hreplaces] using hlt))),
        max_eq_left (Nat.not_lt.mp hlt)]
  rw [lookup_writeHandoff_of_ne (by decide) (by decide) (by decide)] at htraceparent htracestate
  refine ⟨headers, .of_handoffHeaders (utf8ByteSize_replicate rfl _).le hheaders, ?_⟩
  rw [total_eq, total_application_congr f handed.other,
    part_of_lookup f handed.retryCount,
    part_of_lookup f handed.deliveryAttempt,
    part_of_lookup f handed.rejectionCode, hmax htraceparent, hmax htracestate,
    hf.longInt "x-retry-count" _ i32Max, hf.longInt "x-lily-failure-delivery-attempt" _ i32Max]
  rfl

end Attained

/-- The check before a handoff is published passes for an admitted delivery and all its
generations exactly when the larger of inbound and injected trace headers fit as well.
A header that the broker adds on the way is seen by the next admission, which starts a
chain of its own. -/
theorem generations_validate_iff {bodyLen maxMessageSizeBytes : Nat} {properties : BasicProperties}
    (hadmitted : transportAdmissionFailure bodyLen maxMessageSizeBytes properties = none) :
    (∀ published, Relation.TransGen Handoff properties published →
      validateHandoffMetadataHeadroom published = .ok ()) ↔ WorstCaseFits properties := by
  obtain ⟨hheadroom, count, hcount⟩ := transportAdmissionFailure_none hadmitted
  constructor
  · intro hall
    have hwithin {headers : FieldTable} (h : Handoff properties (properties.withHeaders headers)) :
        WithinBounds (properties.withHeaders headers) :=
      (validateHandoffMetadataHeadroom_ok_iff.mp (hall _ (.single h))).1
    obtain ⟨heavy, hheavy, helements⟩ := exists_handoff_total_eq sizeWeight_headerElements hcount
    obtain ⟨long, hlong, hbytes⟩ := exists_handoff_total_eq sizeWeight_headerBytes hcount
    exact ⟨helements ▸ (hwithin hheavy).elements, hbytes ▸ (hwithin hlong).bytes⟩
  · intro hfits published hpublished
    exact (validate_generations hheadroom hfits hpublished).1

end Generations

open scoped Hyphenated

/-- A delivery with the envelope and one further header. -/
def envelopeWith (key : String) (value : AMQPValue) : BasicProperties where
  headers := some <| ((((∅ : FieldTable).insert "x-lily-event-id"
    (.longString (.utf8 "0190a1b2-c3d4-7e5f-8a9b-0c1d2e3f4a5b"))).insert
    "x-lily-schema-version" (.longString (.utf8 "1"))).insert
    "x-lily-content-kind" (.longString (.utf8 "json"))).insert key value

set_option maxRecDepth 8000 in
theorem generations_validate_iff_envelope :
    transportAdmissionFailure 2 1024 (envelopeWith "tenant" (.boolean true)) = none ∧
      ∀ published, Relation.TransGen Handoff (envelopeWith "tenant" (.boolean true)) published →
        validateHandoffMetadataHeadroom published = .ok () := by
  have hadmitted :
      transportAdmissionFailure 2 1024 (envelopeWith "tenant" (.boolean true)) = none := by
    decide
  exact ⟨hadmitted, (generations_validate_iff hadmitted).mpr
    ⟨by decide, by decide⟩⟩

set_option maxRecDepth 8000 in
/-- An array of 250 empty values in place of a trace parent is admitted. The first retry
keeps it, adds three headers, and has more than 256 elements. -/
theorem nestedTraceparent_rejected :
    transportAdmissionFailure 2 1024
        (envelopeWith "traceparent" (.fieldArray (.replicate 250 .void))) = none ∧
      ∃ published,
        handoffProperties (envelopeWith "traceparent" (.fieldArray (.replicate 250 .void)))
          (.forFailure .retryable "handler_failed" 0 3) [] = .ok published ∧
        validateHandoffMetadataHeadroom published = .error boundsExceeded :=
  ⟨by decide, _, rfl, by decide⟩

end Lily.Queue.Amqp
