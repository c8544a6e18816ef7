import Lily.Queue.Outbox.Relay

/-!
# Rows as fenced leases

A row of the outbox is a lease slot, and what the log says about its record is the
history of the slot. Every statement of the store, faults included, is one action on
each row it touches and leaves the other rows alone.
-/

namespace Lily.Queue.Outbox

open Transition OutboxRow

def OutboxRow.slot (row : OutboxRow) : Lease.Slot Uuid :=
  ⟨row.availableAt, row.claimToken, row.claimedUntil, row.publishAttempts, row.deliveredAt⟩

def TransactionalInboxConfig.bounds (config : TransactionalInboxConfig) : Lease.Bounds :=
  ⟨config.relayMaxPublishAttempts, config.outboxClaimLeaseMillis,
    config.relayRetryMaxBackoffMillis⟩

/-- The bounds that a claim hands to the database fit its integers. -/
structure TransactionalInboxConfig.Representable (config : TransactionalInboxConfig) : Prop where
  batchSize : config.relayBatchSize ≤ i64Max
  inFlightBytes : config.relayMaxInFlightBytes ≤ i64Max
  claimLease : config.outboxClaimLeaseMillis ≤ i64Max

/-- What an entry of a worker's log did to the row of one record. -/
def Entry.action (recordId worker : Uuid) : Entry → Option (Lease.Action Uuid)
  | .claimed rows =>
    if recordId ∈ rows.map OutboxRow.recordId then some (.acquire worker) else none
  | .began id => if id = recordId then some (.start worker) else none
  | .published _ _ => none
  | .marked id _ => if id = recordId then some (.finish worker) else none
  | .released id => if id = recordId then some (.release worker) else none

variable (recordId : Uuid) (log : List (Uuid × Entry))

def history : List (Lease.Action Uuid) :=
  log.filterMap fun entry => entry.2.action recordId entry.1

theorem history_append (before after : List (Uuid × Entry)) :
    history recordId (before ++ after) = history recordId before ++ history recordId after :=
  List.filterMap_append

theorem countP_history :
    (history recordId log).countP Lease.Action.isStart =
      log.countP fun entry => entry.2 = .began recordId := by
  simp only [history, List.countP_filterMap]
  refine List.countP_congr fun entry _ => ?_
  cases entry.2 with
  | claimed rows =>
    by_cases h : recordId ∈ rows.map OutboxRow.recordId <;>
      simp [Entry.action, h, Lease.Action.isStart]
  | published id outcome => simp [Entry.action]
  | began id | marked id token =>
    by_cases h : id = recordId <;> simp [Entry.action, h, Lease.Action.isStart]
  | released id => by_cases h : id = recordId <;> simp [Entry.action, h, Lease.Action.isStart]

variable {row : OutboxRow}

theorem claimable_iff {config : TransactionalInboxConfig} {now : Nat} :
    claimable config now row = true ↔ row.slot.Free config.bounds now := by
  simp only [claimable, Bool.and_eq_true, Option.isNone_iff_eq_none, decide_eq_true_eq,
    Option.all_eq_true]
  constructor
  · rintro ⟨⟨⟨unfinished, available⟩, expired⟩, budget⟩
    exact ⟨unfinished, available, expired, budget⟩
  · rintro ⟨unfinished, available, expired, budget⟩
    exact ⟨⟨⟨unfinished, available⟩, expired⟩, budget⟩

/-! ## Statements as actions -/

section Moves

variable (config : TransactionalInboxConfig) (now : Nat) (worker : Uuid)

/-- A row before and after a statement: untouched, or moved by the action in the log. -/
inductive Moved (emitted : List Entry) (row row' : OutboxRow) : Prop
  | kept (same : row'.slot = row.slot)
      (silent : emitted.filterMap (Entry.action row.recordId worker) = [])
  | moved (action : Lease.Action Uuid)
      (step : Lease.Step config.bounds now row.slot action row'.slot)
      (logged : emitted.filterMap (Entry.action row.recordId worker) = [action])

/-- The rows before and after a statement. -/
structure Moves (rows rows' : List OutboxRow) (emitted : List Entry) : Prop where
  image : ∃ f : OutboxRow → OutboxRow, rows' = rows.map f ∧ ∀ row ∈ rows,
    (f row).recordId = row.recordId ∧ Moved config now worker emitted row (f row)
  absent : ∀ id ∉ rows.map OutboxRow.recordId,
    emitted.filterMap (Entry.action id worker) = []

variable {config now worker}

theorem Moves.refl (rows : List OutboxRow) : Moves config now worker rows rows [] :=
  ⟨⟨id, by simp, fun _ _ => ⟨rfl, .kept rfl rfl⟩⟩, fun _ _ => rfl⟩

variable {rows : List OutboxRow} {recordId : Uuid} {p : OutboxRow → Bool}
  {f : OutboxRow → OutboxRow} {action : Lease.Action Uuid}

/-- An update that applies one action to the rows of a predicate, and is logged for
exactly the records of these rows. -/
theorem Moves.of_update {emitted : List Entry} (action : Lease.Action Uuid)
    (hid : ∀ row, (f row).recordId = row.recordId) (hstep : ∀ row ∈ rows, p row = true →
      Lease.Step config.bounds now row.slot action (f row).slot)
    (hlogged : ∀ row ∈ rows, p row = true →
      emitted.filterMap (Entry.action row.recordId worker) = [action])
    (hsilent : ∀ id, (∀ row ∈ rows, row.recordId = id → p row = false) →
      emitted.filterMap (Entry.action id worker) = [])
    (hnodup : (rows.map OutboxRow.recordId).Nodup) :
    Moves config now worker rows (update rows p f) emitted := by
  refine ⟨⟨fun row => if p row then f row else row, rfl, fun row hrow => ?_⟩, fun id hid => ?_⟩
  · cases hp : p row with
    | true => simpa [hp, hid] using Moved.moved action (hstep row hrow hp) (hlogged row hrow hp)
    | false =>
      simp only [hp, Bool.false_eq_true, if_false, true_and]
      refine .kept rfl (hsilent _ fun other hother heq => ?_)
      rwa [List.inj_on_of_nodup_map hnodup hother hrow heq]
  · refine hsilent id fun row hrow heq => absurd ?_ hid
    exact heq ▸ List.mem_map_of_mem hrow

/-- A fenced statement: the rows of the predicate carry one record id, and the statement
is logged if there is such a row. -/
theorem Moves.of_fenced {entry : Entry} (hfence : ∀ row, p row = true → row.recordId = recordId)
    (hid : ∀ row, (f row).recordId = row.recordId)
    (hstep : ∀ row, p row = true → Lease.Step config.bounds now row.slot action (f row).slot)
    (hentry : ∀ id, entry.action id worker = if recordId = id then some action else none)
    (hnodup : (rows.map OutboxRow.recordId).Nodup) :
    Moves config now worker rows (update rows p f) (if rows.any p then [entry] else []) := by
  refine .of_update action hid (fun row _ => hstep row) (fun row hrow hp => ?_)
    (fun id hnone => ?_) hnodup
  · have hany : rows.any p = true := List.any_eq_true.mpr ⟨row, hrow, hp⟩
    simp [hany, hentry, hfence row hp]
  · by_cases hany : rows.any p = true
    · obtain ⟨row, hrow, hp⟩ := List.any_eq_true.mp hany
      have hne : recordId ≠ id := by
        intro heq
        have hfalse := hnone row hrow ((hfence row hp).trans heq)
        simp [hp] at hfalse
      simp [hany, hentry, hne]
    · simp [hany]

/-- A fault either hides the statement or its answer. -/
theorem Moves.faulty {α : Type} {rows : List OutboxRow}
    {result : List OutboxRow × Except PostgresReliabilityError α} {entry : α → Entry}
    (fault : Fault) (h : Moves config now worker rows result.1 (Fault.none.entries result entry)) :
    Moves config now worker rows (fault.run rows result).1 (fault.entries result entry) := by
  cases fault with
  | none | unacknowledged => exact h
  | lost => exact .refl rows

end Moves

section Statements

variable {config : TransactionalInboxConfig} {now worker : Nat} {rows : List OutboxRow}
  {recordId : Uuid}

theorem affectedOne_eq {p : OutboxRow → Bool} (hnodup : (rows.map OutboxRow.recordId).Nodup)
    (hfence : ∀ row, p row = true → row.recordId = recordId) :
    affectedOne rows p = if rows.any p then .ok () else .error .outboxClaimLost := by
  have hatMost : (rows.filter p).length ≤ 1 := by
    have hsub : ((rows.filter p).map OutboxRow.recordId).Nodup :=
      hnodup.sublist (List.filter_sublist.map _)
    have hconst : (rows.filter p).map OutboxRow.recordId =
        List.replicate (rows.filter p).length recordId := by
      refine List.eq_replicate_iff.mpr ⟨by simp, fun id hmem => ?_⟩
      obtain ⟨row, hrow, rfl⟩ := List.mem_map.mp hmem
      exact hfence row (List.mem_filter.mp hrow).2
    rwa [hconst, List.nodup_replicate] at hsub
  have hany : rows.any p = true ↔ 0 < (rows.filter p).length := by
    rw [List.length_pos_iff_exists_mem, List.any_eq_true]
    simp only [List.mem_filter]
  by_cases h : rows.any p = true
  · have hpos := hany.mp h
    simp [affectedOne, h, show (rows.filter p).length = 1 by omega]
  · have hpos := mt hany.mpr h
    simp [affectedOne, h, show (rows.filter p).length = 0 by omega]

theorem mem_candidates {locked : List Uuid} (h : row ∈ candidates config now locked rows) :
    row ∈ rows ∧ row.slot.Free config.bounds now := by
  simp only [candidates, List.mem_insertionSort, List.mem_filter, Bool.and_eq_true] at h
  exact ⟨h.1, claimable_iff.mp h.2.1⟩

theorem mem_candidates_of_claimable (hrow : row ∈ rows)
    (h : claimable config now row = true) : row ∈ candidates config now [] rows := by
  rw [candidates, List.mem_insertionSort, List.mem_filter, h]
  exact ⟨hrow, rfl⟩

theorem ranked_append (before after : List OutboxRow) (retained : Nat) :
    ranked retained (before ++ after) =
      ranked retained before ++ ranked (retained + (before.map bodyBytes).sum) after := by
  induction before generalizing retained with
  | nil => rfl
  | cons row rest ih =>
    simp only [List.cons_append, ranked, ih, List.map_cons, List.sum_cons, Nat.add_assoc]

theorem mem_bounded {before : List OutboxRow} (after : List OutboxRow)
    (h : ((before ++ [row]).map bodyBytes).sum ≤ config.relayMaxInFlightBytes) :
    row ∈ bounded config (before ++ row :: after) := by
  rw [bounded, ranked_append, List.mem_map]
  refine ⟨(row, 0 + (before.map bodyBytes).sum + row.bodyBytes), List.mem_filter.mpr ⟨?_, ?_⟩, rfl⟩
  · exact List.mem_append_right _ List.mem_cons_self
  · simpa using h

theorem fst_ranked (retained : Nat) : (ranked retained rows).map Prod.fst = rows := by
  induction rows generalizing retained with
  | nil => rfl
  | cons row rest ih => rw [ranked, List.map_cons, ih]

theorem bounded_sublist : (bounded config rows).Sublist rows := by
  have h := (List.filter_sublist
    (l := ranked 0 rows) (p := fun entry => entry.2 ≤ config.relayMaxInFlightBytes)).map Prod.fst
  rwa [fst_ranked] at h

/-- The running totals only grow. -/
theorem le_of_mem_ranked {retained : Nat} {entry : OutboxRow × Nat}
    (h : entry ∈ ranked retained rows) : retained ≤ entry.2 := by
  induction rows generalizing retained with
  | nil => exact absurd h List.not_mem_nil
  | cons row rest ih =>
    rcases List.mem_cons.mp h with rfl | hrest
    · exact Nat.le_add_right _ _
    · have hle := ih hrest
      omega

theorem ranked_bytes_le (limit : Nat) (rows : List OutboxRow) {retained : Nat}
    (h : retained ≤ limit) :
    retained + ((((ranked retained rows).filter fun entry => entry.2 ≤ limit).map Prod.fst).map
      bodyBytes).sum ≤ limit := by
  induction rows generalizing retained with
  | nil => simpa [ranked] using h
  | cons row rest ih =>
    by_cases hfits : retained + row.bodyBytes ≤ limit
    · have hrest := ih hfits
      simp only [ranked, List.filter_cons, hfits, decide_true, if_true, List.map_cons,
        List.sum_cons]
      omega
    · -- Once a total is over the limit, so are all later ones.
      have hnone : (ranked (retained + row.bodyBytes) rest).filter
          (fun entry => entry.2 ≤ limit) = [] := by
        refine List.filter_eq_nil_iff.mpr fun entry hentry => ?_
        have hle := le_of_mem_ranked hentry
        simp only [decide_eq_true_eq]
        omega
      simpa [ranked, hfits, hnone] using h

theorem bounded_bytes_le :
    ((bounded config rows).map bodyBytes).sum ≤ config.relayMaxInFlightBytes := by
  have h := ranked_bytes_le config.relayMaxInFlightBytes rows (Nat.zero_le _)
  rwa [Nat.zero_add] at h

@[simp] theorem bodyBytes_leased (row : OutboxRow) :
    (leased config now worker row).bodyBytes = row.bodyBytes := by
  simp only [leased, bodyBytes]

@[simp] theorem recordId_leased (row : OutboxRow) :
    (leased config now worker row).recordId = row.recordId := by
  simp only [leased]

variable (config now worker rows) in
/-- Claiming either fails and leaves the rows alone, or leases a batch within the bounds
to the claim owner. -/
theorem claimOutboxBatch_cases (locked lockedLater : List Uuid) :
    (∃ error, claimOutboxBatch config now worker locked lockedLater rows = (rows, .error error)) ∨
      ∃ claimed : List OutboxRow,
        (∀ row ∈ claimed, row ∈ rows ∧ row.slot.Free config.bounds now) ∧
        claimed.length ≤ config.relayBatchSize ∧
        (claimed.map bodyBytes).sum ≤ config.relayMaxInFlightBytes ∧
        claimOutboxBatch config now worker locked lockedLater rows =
          (update rows (fun row => (claimed.map OutboxRow.recordId).contains row.recordId)
              (leased config now worker),
            .ok (claimed.map (leased config now worker))) := by
  simp only [claimOutboxBatch]
  split_ifs with h1 h2 h3 h4
  · exact .inl ⟨_, rfl⟩
  · exact .inl ⟨_, rfl⟩
  · exact .inl ⟨_, rfl⟩
  · exact .inl ⟨_, rfl⟩
  · split
    · exact .inl ⟨_, rfl⟩
    · refine .inr ⟨_, fun row hrow => ?_, ?_, bounded_bytes_le, rfl⟩
      · exact mem_candidates (List.mem_of_mem_take (bounded_sublist.mem hrow))
      · exact bounded_sublist.length_le.trans (List.length_take_le _ _)

/-- What a successful claim returns. -/
theorem claimOutboxBatch_ok {locked lockedLater : List Uuid} {claimed : List OutboxRow}
    (h : (claimOutboxBatch config now worker locked lockedLater rows).2 = .ok claimed) :
    claimed.length ≤ config.relayBatchSize ∧
      (claimed.map bodyBytes).sum ≤ config.relayMaxInFlightBytes ∧
      ∀ row ∈ claimed, row.claimToken = some worker := by
  rcases claimOutboxBatch_cases config now worker rows locked lockedLater with
    ⟨error, heq⟩ | ⟨batch, -, hlength, hbytes, heq⟩
  · simp [heq] at h
  · obtain rfl : batch.map (leased config now worker) = claimed := by simpa [heq] using h
    refine ⟨by simpa using hlength, ?_, fun row hrow => ?_⟩
    · simpa [Function.comp_def] using hbytes
    · obtain ⟨source, -, rfl⟩ := List.mem_map.mp hrow
      rfl

/-- A claim that meets no lock returns every row whose place among the claimable rows, and the bytes
up to it, are within the bounds. -/
theorem claimOutboxBatch_claims (hconfig : config.Representable) (hworker : worker ≠ 0)
    {older younger : List OutboxRow}
    (hwaiting : candidates config now [] rows = older ++ row :: younger)
    (hplace : older.length < config.relayBatchSize)
    (hbytes : ((older ++ [row]).map bodyBytes).sum ≤ config.relayMaxInFlightBytes) :
    ∃ claimed, (claimOutboxBatch config now worker [] [] rows).2 = .ok claimed ∧
      leased config now worker row ∈ claimed := by
  have holdest : ((older ++ row :: younger).head?.filter fun oldest =>
      config.relayMaxInFlightBytes < oldest.bodyBytes) = none := by
    cases older with
    | nil => simpa using hbytes
    | cons oldest rest =>
      simp only [List.cons_append, List.map_cons, List.sum_cons] at hbytes
      have hfits : oldest.bodyBytes ≤ config.relayMaxInFlightBytes := by omega
      simpa using hfits
  have hbatch : row ∈ bounded config ((older ++ row :: younger).take config.relayBatchSize) := by
    obtain ⟨more, hmore⟩ : ∃ more, config.relayBatchSize - older.length = more + 1 :=
      Nat.exists_eq_succ_of_ne_zero (by omega)
    rw [List.take_append, List.take_of_length_le hplace.le, hmore, List.take_succ_cons]
    exact mem_bounded _ hbytes
  simp only [claimOutboxBatch, if_neg hworker, if_neg (Nat.not_lt.mpr hconfig.batchSize),
    if_neg (Nat.not_lt.mpr hconfig.inFlightBytes), if_neg (Nat.not_lt.mpr hconfig.claimLease),
    hwaiting, holdest]
  exact ⟨_, rfl, List.mem_map_of_mem hbatch⟩

variable (hnodup : (rows.map OutboxRow.recordId).Nodup)

include hnodup

theorem claimOutboxBatch_moves (locked lockedLater : List Uuid) :
    Moves config now worker rows
      (claimOutboxBatch config now worker locked lockedLater rows).1
      (Fault.none.entries (claimOutboxBatch config now worker locked lockedLater rows)
        .claimed) := by
  rcases claimOutboxBatch_cases config now worker rows locked lockedLater with
    ⟨error, heq⟩ | ⟨claimed, hfree, -, -, heq⟩
  · rw [heq]
    exact .refl rows
  · rw [heq]
    have hids : (claimed.map (leased config now worker)).map OutboxRow.recordId =
        claimed.map OutboxRow.recordId := by
      simp [Function.comp_def]
    refine .of_update (.acquire worker) (fun _ => rfl) (fun row hrow hp => ?_)
      (fun row hrow hp => ?_) (fun id hnone => ?_) hnodup
    · obtain ⟨other, hother, hid⟩ := List.mem_map.mp (List.contains_iff_mem.mp hp)
      obtain ⟨hmem, hslot⟩ := hfree other hother
      rw [List.inj_on_of_nodup_map hnodup hmem hrow hid] at hslot
      exact .acquire hslot
    · have hmem := List.contains_iff_mem.mp hp
      simp [Fault.entries, Entry.action, hids, hmem]
    · have hmem : id ∉ claimed.map OutboxRow.recordId := by
        intro hmem
        obtain ⟨row, hrow, rfl⟩ := List.mem_map.mp hmem
        have hfalse := hnone row (hfree row hrow).1 rfl
        rw [List.contains_iff_mem.mpr hmem] at hfalse
        exact absurd hfalse (by decide)
      simp [Fault.entries, Entry.action, hids, hmem]

omit hnodup in
theorem admitted_iff :
    admitted config recordId worker row = true ↔
      row.recordId = recordId ∧ row.slot.holder = some worker ∧ row.slot.finishedAt = none ∧
        row.slot.attempts < config.bounds.maxAttempts := by
  simp [admitted, owned, slot, TransactionalInboxConfig.bounds, and_assoc]

omit hnodup in
theorem started_iff :
    started recordId worker row = true ↔
      row.recordId = recordId ∧ row.slot.holder = some worker ∧ row.slot.finishedAt = none ∧
        0 < row.slot.attempts := by
  simp [started, owned, slot, and_assoc]

theorem beginOutboxPublish_moves :
    Moves config now worker rows (beginOutboxPublish config recordId worker now rows).1
      (Fault.none.entries (beginOutboxPublish config recordId worker now rows)
        fun _ => .began recordId) := by
  simp only [beginOutboxPublish]
  split_ifs with hlease
  · exact .refl rows
  · have hmoves : Moves config now worker rows
        (update rows (admitted config recordId worker) (attempted config now))
        (if rows.any (admitted config recordId worker) then [.began recordId] else []) := by
      refine .of_fenced (fun row h => (admitted_iff.mp h).1) (fun _ => rfl) (fun row h => ?_)
        (fun _ => rfl) hnodup
      obtain ⟨-, hholder, hunfinished, hbudget⟩ := admitted_iff.mp h
      exact .start hholder hunfinished hbudget
    have hany : rows.any (admitted config recordId worker) =
        (rows.filter (admitted config recordId worker)).head?.isSome := by
      rw [Bool.eq_iff_iff, List.any_eq_true, List.head?_filter, List.find?_isSome]
    rw [hany] at hmoves
    cases h : (rows.filter (admitted config recordId worker)).head? with
    | none | some row => simpa [h, Fault.entries] using hmoves

/-- The two statements that end a publish log themselves if they affect their row. -/
theorem entries_affectedOne {entry : Entry} {rows' : List OutboxRow} :
    Fault.none.entries (rows', affectedOne rows (started recordId worker)) (fun _ => entry) =
      if rows.any (started recordId worker) then [entry] else [] := by
  rw [affectedOne_eq hnodup fun row h => (started_iff.mp h).1]
  split_ifs <;> rfl

theorem markOutboxDelivered_moves (token : Option Uuid) :
    Moves config now worker rows (markOutboxDelivered recordId worker now rows).1
      (Fault.none.entries (markOutboxDelivered recordId worker now rows)
        fun _ => .marked recordId token) := by
  simp only [markOutboxDelivered]
  rw [entries_affectedOne hnodup]
  refine .of_fenced (fun row h => (started_iff.mp h).1) (fun _ => rfl) (fun row h => ?_)
    (fun _ => rfl) hnodup
  obtain ⟨-, hholder, hunfinished, hstarted⟩ := started_iff.mp h
  exact .finish hholder hunfinished hstarted

theorem recordOutboxFailure_moves {retryAfter : Nat}
    (hretry : retryAfter ≤ config.relayRetryMaxBackoffMillis) (code : String) :
    Moves config now worker rows (recordOutboxFailure recordId worker now retryAfter code rows).1
      (Fault.none.entries (recordOutboxFailure recordId worker now retryAfter code rows)
        fun _ => .released recordId) := by
  simp only [recordOutboxFailure]
  split_ifs with hcode hdelay
  · exact .refl rows
  · exact .refl rows
  · rw [entries_affectedOne hnodup]
    refine .of_fenced (fun row h => (started_iff.mp h).1) (fun _ => rfl) (fun row h => ?_)
      (fun _ => rfl) hnodup
    obtain ⟨-, hholder, hunfinished, hstarted⟩ := started_iff.mp h
    exact .release hholder hunfinished hstarted hretry

end Statements

end Lily.Queue.Outbox
