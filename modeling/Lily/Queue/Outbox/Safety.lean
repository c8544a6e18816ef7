import Lily.Queue.Outbox.Discipline

/-!
# No record is lost, and none is delivered twice over

The store keeps one lease history for every record id ever used, also after the row was
cleaned up. Every move of every worker extends these histories by what it did, so what
holds of lease histories holds of the outbox in every run.
-/

namespace Lily.Queue.Outbox

open Transition

/-- What one move does to the store, and which entries of the log go with it. -/
inductive StoreStep (config : TransactionalInboxConfig) (worker : Uuid) (store : Store) :
    Store → List Entry → Prop
  | elapse (millis : Nat) :
      StoreStep config worker store { store with clock := store.clock + millis } []
  | insert (recordId : Uuid) (message : OutboxMessage) (age : Nat)
      (unused : recordId ∉ store.issued) :
      StoreStep config worker store
        { store with
          rows := store.rows ++ [insertedRow recordId message (store.clock - age)]
          issued := recordId :: store.issued } []
  | delete (keep : OutboxRow → Bool)
      (delivered : ∀ row ∈ store.rows, keep row = false → row.deliveredAt ≠ none) :
      StoreStep config worker store { store with rows := store.rows.filter keep } []
  | statement {rows : List OutboxRow} {emitted : List Entry}
      (moves : Moves config store.clock worker store.rows rows emitted) :
      StoreStep config worker store { store with rows := rows } emitted

theorem StoreStep.idle {config : TransactionalInboxConfig} {worker : Uuid} (store : Store) :
    StoreStep config worker store store [] :=
  .statement (.refl store.rows)

variable {rows : List OutboxRow}

variable (config : TransactionalInboxConfig) (worker : Uuid) (event : Event) (store : Store)

/-- Only delivered rows are cleaned up, if no two rows have the same record id. -/
theorem cleanup_eq_filter (now : Nat) (locked : List Uuid)
    (hnodup : (rows.map OutboxRow.recordId).Nodup) :
    ∃ keep : OutboxRow → Bool, cleanup config now locked rows = rows.filter keep ∧
      ∀ row ∈ rows, keep row = false → row.deliveredAt ≠ none := by
  refine ⟨_, rfl, fun row hrow hkeep => ?_⟩
  simp only [Bool.not_eq_false', List.contains_iff_mem] at hkeep
  obtain ⟨other, hother, hid⟩ := List.mem_map.mp hkeep
  have hexpired := List.mem_of_mem_take hother
  simp only [List.mem_insertionSort, List.mem_filter, Bool.and_eq_true] at hexpired
  rw [List.inj_on_of_nodup_map hnodup hexpired.1 hrow hid] at hexpired
  intro hnone
  simp [expired, hnone] at hexpired

theorem retryAfter_le (publishAttempts : Nat) :
    retryAfter config publishAttempts ≤ config.relayRetryMaxBackoffMillis :=
  Nat.min_le_right _ _

/-- Every move changes the store in one of these ways. -/
theorem act_storeStep (phase : Phase) (hnodup : (store.rows.map OutboxRow.recordId).Nodup)
    (htokens : ∀ record ∈ phase.records, record.claimToken = worker) :
    StoreStep config worker store (act config worker event store phase).shared
      (act config worker event store phase).emitted := by
  fun_cases act config worker event store phase with
  | case1 millis => exact .elapse millis
  | case3 recordId message age => exact .insert recordId message age ‹_›
  | case4 locked fault result =>
    obtain ⟨keep, heq, hdelivered⟩ := cleanup_eq_filter config store.clock locked hnodup
    have hdelete : StoreStep config worker store
        { store with rows := cleanup config store.clock locked store.rows } [] :=
      heq ▸ .delete keep hdelivered
    cases fault with
    | lost => exact .idle store
    | none => exact hdelete
    | unacknowledged => exact hdelete
  | case5 locked lockedLater fault result reply =>
    exact .statement (.faulty fault (claimOutboxBatch_moves hnodup locked lockedLater))
  | case7 fault record rest result reply =>
    obtain rfl : record.claimToken = worker := htokens record List.mem_cons_self
    exact .statement (.faulty fault (beginOutboxPublish_moves hnodup))
  | case8 outcome record rest =>
    -- the broker does not touch the rows
    exact .statement ⟨⟨id, by simp, fun _ _ => ⟨rfl, .kept rfl rfl⟩⟩, fun _ _ => rfl⟩
  | case9 fault record rest result reply =>
    obtain rfl : record.claimToken = worker := htokens record List.mem_cons_self
    exact .statement (.faulty fault (markOutboxDelivered_moves hnodup _))
  | case10 fault record rest code result reply =>
    obtain rfl : record.claimToken = worker := htokens record List.mem_cons_self
    exact .statement (.faulty fault
      (recordOutboxFailure_moves hnodup (retryAfter_le config record.publishAttempts) code))
  | _ => exact .idle store

/-- The store accounts for every record id it ever used. -/
structure Accounted (config : TransactionalInboxConfig) (store : Store)
    (log : List (Uuid × Entry)) : Prop where
  nodup : (store.rows.map OutboxRow.recordId).Nodup
  issued : ∀ row ∈ store.rows, row.recordId ∈ store.issued
  present : ∀ row ∈ store.rows,
    Lease.Trace config.bounds store.clock row.slot (history row.recordId log)
  removed : ∀ id ∈ store.issued, id ∉ store.rows.map OutboxRow.recordId →
    ∃ slot, Lease.Trace config.bounds store.clock slot (history id log) ∧ slot.finishedAt ≠ none
  unissued : ∀ id ∉ store.issued, history id log = []

theorem history_emitted (id worker : Uuid) (emitted : List Entry) :
    history id (emitted.map (Prod.mk worker)) = emitted.filterMap (Entry.action id worker) := by
  simp [history, List.filterMap_map]

namespace Accounted

variable {config : TransactionalInboxConfig} {store : Store} {log : List (Uuid × Entry)}
  {worker : Uuid} (h : Accounted config store log)

include h

theorem elapse (millis : Nat) :
    Accounted config { store with clock := store.clock + millis } log := by
  refine ⟨h.nodup, h.issued, fun row hrow => (h.present row hrow).elapse (Nat.le_add_right _ _),
    fun id hid habsent => ?_, h.unissued⟩
  obtain ⟨slot, htrace, hfinished⟩ := h.removed id hid habsent
  exact ⟨slot, htrace.elapse (Nat.le_add_right _ _), hfinished⟩

theorem insert {recordId : Uuid} (message : OutboxMessage) (age : Nat)
    (unused : recordId ∉ store.issued) :
    Accounted config
      { store with
        rows := store.rows ++ [insertedRow recordId message (store.clock - age)]
        issued := recordId :: store.issued } log := by
  have habsent : recordId ∉ store.rows.map OutboxRow.recordId := by
    intro hmem
    obtain ⟨row, hrow, rfl⟩ := List.mem_map.mp hmem
    exact unused (h.issued row hrow)
  refine ⟨?_, fun row hrow => ?_, fun row hrow => ?_, fun id hid hgone => ?_, fun id hid => ?_⟩
  · simpa [insertedRow, List.nodup_append, h.nodup] using habsent
  · rcases List.mem_append.mp hrow with hold | hnew
    · exact List.mem_cons_of_mem _ (h.issued row hold)
    · simp [List.mem_singleton.mp hnew, insertedRow]
  · rcases List.mem_append.mp hrow with hold | hnew
    · exact h.present row hold
    · rw [List.mem_singleton.mp hnew]
      simp only [insertedRow, h.unissued recordId unused]
      exact (Lease.Trace.fresh (store.clock - age)).elapse (Nat.sub_le _ _)
  · simp only [List.map_append, List.mem_append, not_or] at hgone
    rcases List.mem_cons.mp hid with rfl | hold
    · exact absurd (by simp [insertedRow]) hgone.2
    · exact h.removed id hold hgone.1
  · exact h.unissued id fun hold => hid (List.mem_cons_of_mem _ hold)

theorem delete {keep : OutboxRow → Bool}
    (delivered : ∀ row ∈ store.rows, keep row = false → row.deliveredAt ≠ none) :
    Accounted config { store with rows := store.rows.filter keep } log := by
  refine ⟨h.nodup.sublist (List.filter_sublist.map _),
    fun row hrow => h.issued row (List.mem_filter.mp hrow).1,
    fun row hrow => h.present row (List.mem_filter.mp hrow).1, fun id hid hgone => ?_, h.unissued⟩
  by_cases hpresent : id ∈ store.rows.map OutboxRow.recordId
  · obtain ⟨row, hrow, rfl⟩ := List.mem_map.mp hpresent
    have hkeep : keep row = false := by
      by_contra hkeep
      exact hgone (List.mem_map_of_mem (List.mem_filter.mpr ⟨hrow, by simpa using hkeep⟩))
    exact ⟨row.slot, h.present row hrow, delivered row hrow hkeep⟩
  · exact h.removed id hid hpresent

theorem statement {emitted : List Entry}
    (moves : Moves config store.clock worker store.rows rows emitted) :
    Accounted config { store with rows := rows } (log ++ emitted.map (Prod.mk worker)) := by
  obtain ⟨⟨f, rfl, hf⟩, habsent⟩ := moves
  have hids : (store.rows.map f).map OutboxRow.recordId = store.rows.map OutboxRow.recordId := by
    rw [List.map_map]
    exact List.map_congr_left fun row hrow => (hf row hrow).1
  have hsilent : ∀ id ∉ store.rows.map OutboxRow.recordId,
      history id (log ++ emitted.map (Prod.mk worker)) = history id log := by
    intro id hid
    rw [history_append, history_emitted, habsent id hid, List.append_nil]
  refine ⟨hids ▸ h.nodup, fun row' hrow' => ?_, fun row' hrow' => ?_, fun id hid hgone => ?_,
    fun id hid => ?_⟩
  · obtain ⟨row, hrow, rfl⟩ := List.mem_map.mp hrow'
    exact (hf row hrow).1 ▸ h.issued row hrow
  · obtain ⟨row, hrow, rfl⟩ := List.mem_map.mp hrow'
    obtain ⟨hid, hmoved⟩ := hf row hrow
    rw [hid, history_append, history_emitted]
    cases hmoved with
    | kept same silent =>
      rw [same, silent, List.append_nil]
      exact h.present row hrow
    | moved action step logged =>
      rw [logged]
      exact (h.present row hrow).act step
  · have hgone' : id ∉ store.rows.map OutboxRow.recordId := hids ▸ hgone
    rw [hsilent id hgone']
    exact h.removed id hid hgone'
  · rw [hsilent id fun hmem => ?_]
    · exact h.unissued id hid
    · obtain ⟨row, hrow, rfl⟩ := List.mem_map.mp hmem
      exact hid (h.issued row hrow)

/-- Every step extends the histories of the records it touched. -/
theorem step {store' : Store} {emitted : List Entry}
    (hstep : StoreStep config worker store store' emitted) :
    Accounted config store' (log ++ emitted.map (Prod.mk worker)) := by
  cases hstep with
  | elapse millis => simpa using h.elapse millis
  | insert recordId message age unused => simpa using h.insert message age unused
  | delete keep delivered => simpa using h.delete delivered
  | statement moves => exact h.statement moves

/-- Every id has a lease history, also before its use and after its removal. -/
theorem exists_trace (id : Uuid) :
    ∃ slot, Lease.Trace config.bounds store.clock slot (history id log) := by
  by_cases hissued : id ∈ store.issued
  · by_cases hpresent : id ∈ store.rows.map OutboxRow.recordId
    · obtain ⟨row, hrow, rfl⟩ := List.mem_map.mp hpresent
      exact ⟨row.slot, h.present row hrow⟩
    · obtain ⟨slot, htrace, -⟩ := h.removed id hissued hpresent
      exact ⟨slot, htrace⟩
  · rw [h.unissued id hissued]
    exact ⟨_, .fresh store.clock⟩

omit h

/-- Once a record is finished, nothing more happens to it. -/
theorem finish_last {added : List (Uuid × Entry)} {id : Uuid}
    (h : Accounted config store (log ++ added))
    (hfinish : ∃ action ∈ history id log, action.isFinish = true) : history id added = [] := by
  obtain ⟨action, haction, hfinish⟩ := hfinish
  obtain ⟨slot, htrace⟩ := h.exists_trace id
  obtain ⟨before, after, hsplit⟩ := List.append_of_mem haction
  rw [history_append, hsplit, List.append_assoc, List.cons_append] at htrace
  exact (List.append_eq_nil_iff.mp (htrace.finish_last rfl hfinish)).2

end Accounted

variable {recordId : Uuid}

theorem markOutboxDelivered_token {claimToken : Uuid} {now : Nat}
    (hnodup : (rows.map OutboxRow.recordId).Nodup)
    (h : (markOutboxDelivered recordId claimToken now rows).2 = .ok ()) :
    (rows.find? fun row => row.recordId = recordId).bind (·.claimToken) = some claimToken := by
  have hfence : ∀ row, started recordId claimToken row = true → row.recordId = recordId :=
    fun row hrow => (started_iff.mp hrow).1
  have hany : rows.any (started recordId claimToken) = true := by
    by_contra hnone
    simp [markOutboxDelivered, affectedOne_eq hnodup hfence, hnone] at h
  obtain ⟨row, hrow, hstarted⟩ := List.any_eq_true.mp hany
  obtain ⟨hid, hholder, -⟩ := started_iff.mp hstarted
  cases hfind : rows.find? fun row => row.recordId = recordId with
  | none => exact absurd (by simpa using hid) (List.find?_eq_none.mp hfind row hrow)
  | some found =>
    have hfound : found.recordId = recordId := by simpa using List.find?_some hfind
    rw [List.inj_on_of_nodup_map hnodup (List.mem_of_find?_eq_some hfind) hrow
      (hfound.trans hid.symm)]
    exact hholder

/-- A record is marked under the token of its worker only. -/
theorem act_marked (config : TransactionalInboxConfig) (worker : Uuid) (event : Event)
    (store : Store) (phase : Phase) (hnodup : (store.rows.map OutboxRow.recordId).Nodup)
    (htokens : ∀ record ∈ phase.records, record.claimToken = worker) {token : Option Uuid}
    (h : .marked recordId token ∈ (act config worker event store phase).emitted) :
    token = some worker := by
  revert h
  fun_cases act config worker event store phase with
  | case9 fault record rest result reply =>
    intro h
    obtain ⟨_, hok, hentry⟩ := Fault.mem_entries h
    cases hentry
    rw [← htokens record List.mem_cons_self]
    exact markOutboxDelivered_token hnodup hok
  | case5 | case7 | case10 =>
    intro h
    obtain ⟨_, -, hentry⟩ := Fault.mem_entries h
    cases hentry
  | _ => simp

/-- The invariant of all runs. -/
structure Sound (config : TransactionalInboxConfig) (world : World Uuid Store Phase Entry) :
    Prop where
  accounted : Accounted config world.shared world.log
  disciplined : ∀ worker, Disciplined config worker (world.locals worker) (world.logOf worker)
  fenced : ∀ worker recordId token, (worker, .marked recordId token) ∈ world.log →
    token = some worker

theorem sound_initial (config : TransactionalInboxConfig) : Sound config initial where
  accounted := ⟨List.nodup_nil, by simp [initial], by simp [initial], by simp [initial],
    fun _ _ => rfl⟩
  disciplined worker := ⟨by simp [initial, Phase.records], by simp [initial, Phase.last], .nil⟩
  fenced := by simp [initial]

theorem sound_step (config : TransactionalInboxConfig) (world : World Uuid Store Phase Entry)
    (worker : Uuid) (event : Event) (h : Sound config world) :
    Sound config ((relay config).step world (worker, event)) := by
  have hnodup := h.accounted.nodup
  have htokens := (h.disciplined worker).tokens
  refine ⟨?_, fun other => ?_, fun other recordId token hmem => ?_⟩
  · rw [Machine.step_shared, Machine.step_log]
    exact h.accounted.step (act_storeStep config worker event _ _ hnodup htokens)
  · exact Machine.step_each _ other (I := Disciplined config)
      (act_disciplined config worker event _ _ _ (h.disciplined worker))
      fun other _ => h.disciplined other
  · rw [Machine.step_log] at hmem
    rcases List.mem_append.mp hmem with hold | hnew
    · exact h.fenced other recordId token hold
    · obtain ⟨entry, hentry, heq⟩ := List.mem_map.mp hnew
      cases heq
      exact act_marked config worker event _ _ hnodup htokens hentry

theorem sound_run (config : TransactionalInboxConfig) (moves : List (Uuid × Event)) :
    Sound config ((relay config).run initial moves) :=
  (relay config).run_induct (sound_initial config) (sound_step config) moves

/-- An entry that says something about the row of a record. -/
def Entry.Touches (recordId : Uuid) : Entry → Prop
  | .claimed rows => recordId ∈ rows.map OutboxRow.recordId
  | .began id | .marked id _ | .released id => id = recordId
  | .published _ _ => False

theorem Entry.action_eq_none {worker : Uuid} {entry : Entry} :
    entry.action recordId worker = none ↔ ¬ entry.Touches recordId := by
  cases entry <;> simp [Entry.action, Entry.Touches]

theorem exists_marked {log : List (Uuid × Entry)}
    (h : ∃ action ∈ history recordId log, action.isFinish = true) :
    ∃ worker token, (worker, .marked recordId token) ∈ log := by
  obtain ⟨action, haction, hfinish⟩ := h
  obtain ⟨⟨worker, entry⟩, hentry, heq⟩ := List.mem_filterMap.mp haction
  cases entry with
  | marked id token =>
    simp only [Entry.action, Option.ite_none_right_eq_some] at heq
    exact ⟨worker, token, heq.1 ▸ hentry⟩
  | published id outcome => cases heq
  | _ =>
    simp only [Entry.action, Option.ite_none_right_eq_some, Option.some.injEq] at heq
    rw [← heq.2] at hfinish
    exact absurd hfinish (by simp [Lease.Action.isFinish])

/-- For all runs of all workers. -/
theorem relay_safe (config : TransactionalInboxConfig) (moves : List (Uuid × Event)) :
    let world := (relay config).run initial moves
    -- The publishes started are the attempts, and there are at most the maximum.
    (∀ recordId, world.log.countP (fun entry => entry.2 = .began recordId) ≤
      config.relayMaxPublishAttempts) ∧
    (∀ row ∈ world.shared.rows,
      world.log.countP (fun entry => entry.2 = .began row.recordId) = row.publishAttempts) ∧
    -- The broker gets a record right after the worker began to publish it.
    (∀ worker before after recordId outcome,
      world.logOf worker = before ++ .published recordId outcome :: after →
        before.getLast? = some (.began recordId)) ∧
    -- A row is marked by a worker that began it, under the row's own token, after a confirm.
    (∀ before after worker recordId token,
      world.log = before ++ (worker, .marked recordId token) :: after →
        token = some worker ∧ (worker, .began recordId) ∈ before ∧
          (worker, .published recordId .confirmed) ∈ before) ∧
    -- Nothing happens to a delivered row any more, and it stays delivered.
    (∀ row ∈ world.shared.rows, row.deliveredAt ≠ none → ∀ later,
      let final := (relay config).run world later
      (∃ added, final.log = world.log ++ added ∧
        ∀ entry ∈ added, ¬ entry.2.Touches row.recordId) ∧
      ∀ row' ∈ final.shared.rows, row'.recordId = row.recordId → row'.deliveredAt ≠ none) ∧
    -- Batches are bounded.
    (∀ worker rows, (worker, .claimed rows) ∈ world.log →
      rows.length ≤ config.relayBatchSize ∧
        (rows.map OutboxRow.bodyBytes).sum ≤ config.relayMaxInFlightBytes) ∧
    -- A record is in the table until it was delivered.
    (∀ recordId ∈ world.shared.issued,
      recordId ∈ world.shared.rows.map OutboxRow.recordId ∨
        ∃ other token, (other, .marked recordId token) ∈ world.log) ∧
    -- It becomes claimable again, whatever happened to the workers that held it, and a claim
    -- returns it unless older rows fill the batch.
    (∀ row ∈ world.shared.rows, row.deliveredAt = none →
      row.publishAttempts < config.relayMaxPublishAttempts → ∀ now,
      world.shared.clock + max config.outboxClaimLeaseMillis config.relayRetryMaxBackoffMillis ≤
        now → claimable config now row = true ∧
          ∃ older younger, candidates config now [] world.shared.rows = older ++ row :: younger ∧
            (config.Representable → older.length < config.relayBatchSize →
              ((older ++ [row]).map OutboxRow.bodyBytes).sum ≤ config.relayMaxInFlightBytes →
              ∀ token ≠ 0, ∃ claimed,
                (claimOutboxBatch config now token [] [] world.shared.rows).2 = .ok claimed ∧
                  leased config now token row ∈ claimed)) := by
  intro world
  have h : Sound config world := sound_run config moves
  refine ⟨fun recordId => ?_, fun row hrow => ?_,
    fun worker before after recordId outcome => (h.disciplined worker).justified before _ after,
    fun before after worker recordId token hsplit => ?_, fun row hrow hdelivered later => ?_,
    fun worker rows hmem => ?_, fun recordId hissued => ?_,
    fun row hrow hpending hbudget now hnow => ?_⟩
  · obtain ⟨slot, htrace⟩ := h.accounted.exists_trace recordId
    rw [← countP_history, htrace.attempts_eq]
    exact htrace.attempts_le
  · rw [← countP_history]
    exact (h.accounted.present row hrow).attempts_eq
  · refine ⟨h.fenced worker recordId token (by simp [hsplit]), ?_⟩
    obtain ⟨earlier, rest, hlog, hearlier⟩ := World.logOf_split hsplit
    obtain ⟨hbegan, hpublished⟩ := (h.disciplined worker).marked hlog
    exact ⟨hearlier _ hbegan, hearlier _ hpublished⟩
  · intro final
    have hfinal : Sound config final := by
      have hrun := sound_run config (moves ++ later)
      rwa [Machine.run_append] at hrun
    have hfinish := (h.accounted.present row hrow).finished_iff.mp hdelivered
    obtain ⟨added, hlog⟩ := (relay config).run_log world later
    refine ⟨⟨added, hlog, fun entry hentry => ?_⟩, fun row' hrow' hid => ?_⟩
    · have hsilent := (hlog ▸ hfinal.accounted).finish_last hfinish
      exact Entry.action_eq_none.mp (List.filterMap_eq_nil_iff.mp hsilent entry hentry)
    · refine (hfinal.accounted.present row' hrow').finished_iff.mpr ?_
      obtain ⟨action, haction, hfinished⟩ := hfinish
      refine ⟨action, ?_, hfinished⟩
      rw [hid, hlog, history_append]
      exact List.mem_append_left _ haction
  · obtain ⟨before, hbounds, -⟩ := (h.disciplined worker).justified.mem (World.mem_logOf.mpr hmem)
    exact hbounds
  · by_cases hpresent : recordId ∈ world.shared.rows.map OutboxRow.recordId
    · exact .inl hpresent
    · obtain ⟨slot, htrace, hfinished⟩ := h.accounted.removed recordId hissued hpresent
      exact .inr (exists_marked (htrace.finished_iff.mp hfinished))
  · have hclaimable := claimable_iff.mpr
      ((h.accounted.present row hrow).free_later hpending hbudget hnow)
    obtain ⟨older, younger, hwaiting⟩ :=
      List.append_of_mem (mem_candidates_of_claimable hrow hclaimable)
    refine ⟨hclaimable, older, younger, hwaiting, fun hconfig hplace hbytes token htoken => ?_⟩
    exact claimOutboxBatch_claims hconfig htoken hwaiting hplace hbytes

end Lily.Queue.Outbox
