import Lily.Control.Validation
import Lily.Queue.Amqp.Metadata

/-!
# Metadata bounds as sums

The walk over a header value spends from a running budget and stops at the first
overrun. A value nevertheless has a weight of its own, its size and its number of
elements, whatever was walked before it (`weigh`), and the budgets are met along the
way exactly when they are met at the end. Validation is therefore a condition on
sums over the entries (`WithinBounds`), in which the headers can be exchanged one by
one.
-/

namespace Lily.Queue.Amqp

/-! ## The weight of a value -/

/-- The weight of a value with the given parts, if its size is allowed. -/
def enclose : Option (Nat × Nat) → Option (Nat × Nat)
  | none => none
  | some (size, elements) =>
    if maxAmqpValueBytes < size then none else some (size, elements + 1)

mutual

/-- The size of a value and the number of its elements, itself included. -/
def weigh (value : AMQPValue) (depth : Nat) : Option (Nat × Nat) :=
  match value with
  | .fieldArray values =>
    if maxAmqpNestingDepth < depth then none else enclose (weighArray values (depth + 1))
  | .fieldTable entries =>
    if maxAmqpNestingDepth < depth then none else enclose (weighTable entries (depth + 1))
  | value => enclose (some (scalarSize value, 0))

def weighArray (values : List AMQPValue) (depth : Nat) : Option (Nat × Nat) :=
  match values with
  | [] => some (0, 0)
  | value :: rest =>
    match weigh value depth, weighArray rest depth with
    | some (size, elements), some (restSize, restElements) =>
      some (size + restSize, elements + restElements)
    | _, _ => none

def weighTable (entries : List (String × AMQPValue)) (depth : Nat) : Option (Nat × Nat) :=
  match entries with
  | [] => some (0, 0)
  | (key, value) :: rest =>
    match validateAmqpKey key, weigh value depth, weighTable rest depth with
    | .ok (), some (size, elements), some (restSize, restElements) =>
      some (key.utf8ByteSize + size + restSize, elements + restElements)
    | _, _, _ => none

end

/-- Spend a weight from the element budget. -/
def spend (elements : Nat) : Option (Nat × Nat) → Except String (Nat × Nat)
  | none => .error boundsExceeded
  | some (size, count) =>
    if maxAmqpNestedElements < elements + count then .error boundsExceeded
    else .ok (size, elements + count)

variable {elements : Nat}

theorem checkedSize_spend (weight : Option (Nat × Nat)) :
    checkedSize (spend (elements + 1) weight) = spend elements (enclose weight) := by
  cases weight with
  | none => rfl
  | some weight =>
    obtain ⟨size, count⟩ := weight
    simp only [spend, enclose]
    by_cases hsize : maxAmqpValueBytes < size
    · split_ifs <;> simp [checkedSize, hsize]
    · have hcount : elements + 1 + count = elements + (count + 1) := by omega
      simp only [hcount, hsize, if_false]
      split_ifs <;> simp [checkedSize, hsize]

theorem spend_enclose_exhausted (h : maxAmqpNestedElements < elements + 1)
    (weight : Option (Nat × Nat)) : spend elements (enclose weight) = .error boundsExceeded := by
  cases weight with
  | none => rfl
  | some weight =>
    simp only [enclose]
    split_ifs
    · rfl
    · have hcount : maxAmqpNestedElements < elements + (weight.2 + 1) := by omega
      simp [spend, hcount]

/-- Two weights in sequence cost their sum. -/
theorem spend_bind {size count : Nat} {weight : Option (Nat × Nat)}
    {result : Nat → Except String (Nat × Nat)} (combine : Nat → Nat → Nat)
    (h : ∀ elements ≤ maxAmqpNestedElements, result elements = spend elements weight) :
    (match spend elements (some (size, count)) with
      | .error error => .error error
      | .ok (size, elements) =>
        match result elements with
        | .error error => .error error
        | .ok (restSize, elements) => .ok (combine size restSize, elements)) =
      spend elements (weight.map fun rest => (combine size rest.1, count + rest.2)) := by
  by_cases hfirst : maxAmqpNestedElements < elements + count
  · cases weight with
    | none => simp [spend, hfirst]
    | some weight =>
      have hboth : maxAmqpNestedElements < elements + (count + weight.2) := by omega
      simp [spend, hfirst, hboth]
  · have hnext := h (elements + count) (by omega)
    cases weight with
    | none => simp [spend, hfirst, hnext]
    | some weight =>
      simp only [spend, hfirst, if_false, hnext, Option.map_some, ← Nat.add_assoc]
      split_ifs <;> rfl

theorem validateAmqpKey_error {key error : String} (h : validateAmqpKey key = .error error) :
    error = boundsExceeded := by
  unfold validateAmqpKey at h
  split_ifs at h
  cases h
  rfl

mutual

/-- A value costs its weight, wherever it is met. -/
theorem amqpValueSize_eq (value : AMQPValue) (depth elements : Nat) :
    amqpValueSize value depth elements = spend elements (weigh value depth) := by
  by_cases hexhausted : maxAmqpNestedElements < elements + 1
  · cases value <;> simp only [amqpValueSize, weigh, hexhausted, if_true] <;> try split_ifs
    all_goals first | rfl | exact (spend_enclose_exhausted hexhausted _).symm
  · cases value with
    | fieldArray values =>
      have hparts := amqpArraySize_eq values (depth + 1) (elements + 1) (by omega)
      simp only [amqpValueSize, weigh, hexhausted, if_false, hparts]
      split_ifs
      · rfl
      · exact checkedSize_spend _
    | fieldTable entries =>
      have hparts := amqpTableSize_eq entries (depth + 1) (elements + 1) (by omega)
      simp only [amqpValueSize, weigh, hexhausted, if_false, hparts]
      split_ifs
      · rfl
      · exact checkedSize_spend _
    | _ =>
      simp only [amqpValueSize, weigh, hexhausted, if_false, ← checkedSize_spend]
      simp [spend, hexhausted]

theorem amqpArraySize_eq (values : List AMQPValue) (depth elements : Nat)
    (h : elements ≤ maxAmqpNestedElements) :
    amqpArraySize values depth elements = spend elements (weighArray values depth) := by
  cases values with
  | nil => simp [amqpArraySize, weighArray, spend, Nat.not_lt.mpr h]
  | cons value rest =>
    have hrest := amqpArraySize_eq rest depth
    simp only [amqpArraySize, weighArray, amqpValueSize_eq value depth elements]
    cases weigh value depth with
    | none => rfl
    | some weight =>
      refine (spend_bind (fun size restSize => size + restSize) hrest).trans ?_
      cases weighArray rest depth <;> rfl

theorem amqpTableSize_eq (entries : List (String × AMQPValue)) (depth elements : Nat)
    (h : elements ≤ maxAmqpNestedElements) :
    amqpTableSize entries depth elements = spend elements (weighTable entries depth) := by
  cases entries with
  | nil => simp [amqpTableSize, weighTable, spend, Nat.not_lt.mpr h]
  | cons entry rest =>
    obtain ⟨key, value⟩ := entry
    have hrest := amqpTableSize_eq rest depth
    simp only [amqpTableSize, weighTable, amqpValueSize_eq value depth elements]
    cases hkey : validateAmqpKey key with
    | error error =>
      rw [validateAmqpKey_error hkey]
      rfl
    | ok =>
      cases weigh value depth with
      | none => rfl
      | some weight =>
        refine (spend_bind (fun size restSize => key.utf8ByteSize + size + restSize)
          hrest).trans ?_
        cases weighTable rest depth <;> rfl

end

/-! ## Validation as a condition on sums -/

variable (key : String) (value : AMQPValue)

def headerBytes : Nat :=
  key.utf8ByteSize + ((weigh value 1).map Prod.fst).getD 0

def headerElements (_key : String) (value : AMQPValue) : Nat :=
  ((weigh value 1).map Prod.snd).getD 0

/-- A header that is acceptable by itself. -/
def HeaderOk : Prop :=
  validateAmqpKey key = .ok () ∧ (weigh value 1).isSome = true

variable {result : Nat}

theorem checkedMetadataAdd_ok_iff {total amount : Nat} :
    checkedMetadataAdd total amount = .ok result ↔
      total + amount ≤ maxAmqpMetadataBytes ∧ result = total + amount := by
  unfold checkedMetadataAdd
  split_ifs with h
  · simpa using fun hle => absurd h (Nat.not_lt.mpr hle)
  · simp [Nat.not_lt.mp h, eq_comm]

theorem amqpValueSize_ok_iff (key : String) {value : AMQPValue} {result : Nat × Nat} :
    amqpValueSize value 1 elements = .ok result ↔
      (weigh value 1).isSome = true ∧
        elements + headerElements key value ≤ maxAmqpNestedElements ∧
        key.utf8ByteSize + result.1 = headerBytes key value ∧
        result.2 = elements + headerElements key value := by
  rw [amqpValueSize_eq, headerBytes, headerElements]
  cases weigh value 1 with
  | none => simp [spend]
  | some weight =>
    simp only [spend, Option.map_some, Option.getD_some, Option.isSome_some, true_and,
      Nat.add_left_cancel_iff]
    split_ifs with h
    · simpa using fun hle => absurd h (Nat.not_lt.mpr hle)
    · obtain ⟨size, count⟩ := result
      simp [Nat.not_lt.mp h, eq_comm]

variable {aggregate : Nat}

/-- The loop over the headers passes exactly when the headers are acceptable one by
one and together stay within both budgets. -/
theorem headerFootprint_ok_iff {entries : List (Sigma fun _ : String => AMQPValue)}
    (haggregate : aggregate ≤ maxAmqpMetadataBytes) (helements : elements ≤ maxAmqpNestedElements) :
    headerFootprint entries aggregate elements = .ok result ↔
      (∀ entry ∈ entries, HeaderOk entry.1 entry.2) ∧
        elements + (entries.map fun entry => headerElements entry.1 entry.2).sum ≤
          maxAmqpNestedElements ∧
        aggregate + (entries.map fun entry => headerBytes entry.1 entry.2).sum ≤
          maxAmqpMetadataBytes ∧
        result = aggregate + (entries.map fun entry => headerBytes entry.1 entry.2).sum := by
  induction entries generalizing aggregate elements with
  | nil => simp [headerFootprint, haggregate, helements, eq_comm]
  | cons entry rest ih =>
    obtain ⟨key, value⟩ := entry
    simp only [headerFootprint, Validation.bind_ok_iff, checkedMetadataAdd_ok_iff,
      amqpValueSize_ok_iff key, List.map_cons, List.sum_cons, List.forall_mem_cons]
    constructor
    · rintro ⟨⟨⟩, hkey, _, ⟨hkeyBytes, rfl⟩, ⟨size, elements'⟩, ⟨hweigh, hbudget, hbytes, helem⟩, _,
        ⟨hsize, rfl⟩, hrest⟩
      simp only at hbytes helem hsize hrest
      subst helem
      rw [ih (by omega) hbudget] at hrest
      obtain ⟨hall, hsum, hsumBytes, hresult⟩ := hrest
      exact ⟨⟨⟨hkey, hweigh⟩, hall⟩, by omega, by omega, by omega⟩
    · rintro ⟨⟨⟨hkey, hweigh⟩, hall⟩, hsum, hbytes, rfl⟩
      have hvalue : key.utf8ByteSize + (headerBytes key value - key.utf8ByteSize) =
          headerBytes key value := by
        unfold headerBytes
        omega
      refine ⟨(), hkey, _, ⟨by omega, rfl⟩,
        ⟨headerBytes key value - key.utf8ByteSize, elements + headerElements key value⟩,
        ⟨hweigh, by omega, hvalue, rfl⟩, _, ⟨by simp only; omega, rfl⟩, ?_⟩
      rw [ih (by simp only; omega) (by omega)]
      exact ⟨hall, by omega, by simp only; omega, by simp only; omega⟩

theorem textFootprint_ok_iff {texts : List String} (haggregate : aggregate ≤ maxAmqpMetadataBytes) :
    textFootprint texts aggregate = .ok result ↔
      (∀ text ∈ texts, text.utf8ByteSize ≤ maxAmqpValueBytes) ∧
        aggregate + (texts.map String.utf8ByteSize).sum ≤ maxAmqpMetadataBytes ∧
        result = aggregate + (texts.map String.utf8ByteSize).sum := by
  induction texts generalizing aggregate with
  | nil => simp [textFootprint, haggregate, eq_comm]
  | cons text rest ih =>
    simp only [textFootprint, List.map_cons, List.sum_cons, List.forall_mem_cons]
    by_cases htext : maxAmqpValueBytes < text.utf8ByteSize
    · simp [htext, Nat.not_le.mpr htext]
    · simp only [htext, if_false, Validation.bind_ok_iff, checkedMetadataAdd_ok_iff]
      constructor
      · rintro ⟨_, ⟨hbytes, rfl⟩, hrest⟩
        rw [ih hbytes] at hrest
        obtain ⟨hall, hsum, hresult⟩ := hrest
        exact ⟨⟨Nat.not_lt.mp htext, hall⟩, by omega, by omega⟩
      · rintro ⟨⟨-, hall⟩, hsum, rfl⟩
        refine ⟨_, ⟨by omega, rfl⟩, ?_⟩
        rw [ih (by omega)]
        exact ⟨hall, by omega, by omega⟩

theorem fixedFootprint_ok_iff {present : Bool} {size : Nat}
    (haggregate : aggregate ≤ maxAmqpMetadataBytes) :
    fixedFootprint present size aggregate = .ok result ↔
      aggregate + (if present then size else 0) ≤ maxAmqpMetadataBytes ∧
        result = aggregate + (if present then size else 0) := by
  cases present with
  | true => simp [fixedFootprint, checkedMetadataAdd_ok_iff]
  | false => simp [fixedFootprint, haggregate, eq_comm]

variable (properties : BasicProperties)

/-- The bytes of everything but the headers. -/
def BasicProperties.propertyBytes : Nat :=
  (properties.texts.map String.utf8ByteSize).sum +
    (if properties.deliveryMode.isSome then 1 else 0) +
    (if properties.priority.isSome then 1 else 0) + (if properties.timestamp.isSome then 8 else 0)

/-- The header table, empty when it is missing. -/
def BasicProperties.table : FieldTable :=
  properties.headers.getD ∅

theorem BasicProperties.entries_eq : properties.entries = properties.table.entries := by
  unfold BasicProperties.entries BasicProperties.table
  cases properties.headers <;> rfl

/-- What the limits of the properties say together. -/
structure WithinBounds (properties : BasicProperties) : Prop where
  count : Collection.total (fun _ _ => 1) properties.table ≤ maxAmqpHeaderEntries
  headers : ∀ key value, properties.table.lookup key = some value → HeaderOk key value
  elements : Collection.total headerElements properties.table ≤ maxAmqpNestedElements
  texts : ∀ text ∈ properties.texts, text.utf8ByteSize ≤ maxAmqpValueBytes
  bytes : Collection.total headerBytes properties.table + properties.propertyBytes ≤
    maxAmqpMetadataBytes

theorem length_entries (table : FieldTable) :
    table.entries.length = Collection.total (fun _ _ => 1) table := by
  simp [Collection.total]

theorem headerFootprint_table {table : FieldTable} :
    headerFootprint table.entries 0 0 = .ok result ↔
      (∀ key value, table.lookup key = some value → HeaderOk key value) ∧
        Collection.total headerElements table ≤ maxAmqpNestedElements ∧
        Collection.total headerBytes table ≤ maxAmqpMetadataBytes ∧
        result = Collection.total headerBytes table := by
  rw [headerFootprint_ok_iff (Nat.zero_le _) (Nat.zero_le _), Nat.zero_add, Nat.zero_add]
  exact and_congr Collection.forall_entries_iff Iff.rfl

/-- The loops of the source check exactly the bounds. -/
theorem validateAmqpMetadata_ok_iff {properties : BasicProperties} :
    validateAmqpMetadata properties = .ok () ↔ WithinBounds properties := by
  have hmap : validateAmqpMetadata properties = .ok () ↔
      ∃ footprint, amqpMetadataFootprint properties = .ok footprint := by
    unfold validateAmqpMetadata
    cases amqpMetadataFootprint properties <;> simp [Except.map]
  rw [hmap]
  unfold amqpMetadataFootprint
  rw [properties.entries_eq, length_entries]
  by_cases hcount : maxAmqpHeaderEntries < Collection.total (fun _ _ => 1) properties.table
  · simp only [hcount, if_true, reduceCtorEq, exists_false, false_iff]
    exact fun h => absurd h.count (Nat.not_le.mpr hcount)
  · simp only [hcount, if_false, Validation.bind_ok_iff, headerFootprint_table]
    constructor
    · rintro ⟨_, _, ⟨hheaders, helements, hbytes, rfl⟩, _, htexts, _, hmode, _, hpriority, _,
        htimestamp, -⟩
      obtain ⟨hsizes, htextSum, rfl⟩ := (textFootprint_ok_iff hbytes).mp htexts
      obtain ⟨hmodeSum, rfl⟩ := (fixedFootprint_ok_iff htextSum).mp hmode
      obtain ⟨hprioritySum, rfl⟩ := (fixedFootprint_ok_iff hmodeSum).mp hpriority
      obtain ⟨htimestampSum, rfl⟩ := (fixedFootprint_ok_iff hprioritySum).mp htimestamp
      refine ⟨Nat.not_lt.mp hcount, hheaders, helements, hsizes, ?_⟩
      unfold BasicProperties.propertyBytes
      omega
    · intro h
      have hbytes := h.bytes
      unfold BasicProperties.propertyBytes at hbytes
      refine ⟨⟨_, _⟩, _, ⟨h.headers, h.elements, by omega, rfl⟩,
        _, (textFootprint_ok_iff (by omega)).mpr ⟨h.texts, by omega, rfl⟩,
        _, (fixedFootprint_ok_iff (by omega)).mpr ⟨by omega, rfl⟩,
        _, (fixedFootprint_ok_iff (by omega)).mpr ⟨by omega, rfl⟩,
        _, (fixedFootprint_ok_iff (by omega)).mpr ⟨by omega, rfl⟩, rfl⟩

end Lily.Queue.Amqp
