import Lily.Queue.Outbox.Refinement
import Lily.Transition.Precedence

/-!
# What one worker holds

A worker only carries records that it claimed under its own token, publishes what it has
just begun, and marks what the broker has just confirmed. These are facts about the worker
alone: they hold whatever the store answers and whatever the other workers do.
-/

namespace Lily.Queue.Outbox

open Transition

/-- The last entry of a worker that is in the middle of a publish. -/
def Phase.last : Phase → Option Entry
  | .publishing record _ => some (.began record.recordId)
  | .confirmed record _ => some (.published record.recordId .confirmed)
  | .idle | .polled | .batch _ | .failing _ _ _ | .stopped _ => none

/-- All records a worker still holds. -/
def Phase.records : Phase → List RelayRecord
  | .batch records => records
  | .publishing record rest | .confirmed record rest | .failing record rest _ => record :: rest
  | .idle | .polled | .stopped _ => []

/-- A worker between two publishes, with no more than these records. -/
def Phase.Rests (phase : Phase) (rest : List RelayRecord) : Prop :=
  phase.records ⊆ rest ∧ phase.last = none

/-- What a worker did just before: it publishes what it began, and marks what the broker
confirmed. Batches are bounded. -/
def Permitted (config : TransactionalInboxConfig) (before : List Entry) : Entry → Prop
  | .claimed rows => rows.length ≤ config.relayBatchSize ∧
      (rows.map OutboxRow.bodyBytes).sum ≤ config.relayMaxInFlightBytes
  | .published recordId _ => before.getLast? = some (.began recordId)
  | .marked recordId _ => before.getLast? = some (.published recordId .confirmed)
  | .began _ | .released _ => True

/-- What a worker holds and logs, whatever the others do. -/
structure Disciplined (config : TransactionalInboxConfig) (worker : Uuid) (phase : Phase)
    (log : List Entry) : Prop where
  tokens : ∀ record ∈ phase.records, record.claimToken = worker
  last : ∀ entry ∈ phase.last, log.getLast? = some entry
  justified : Justified (Permitted config) log

section Answers

variable {α : Type} {fault : Fault} {rows : List OutboxRow}
  {result : List OutboxRow × Except PostgresReliabilityError α} {entry : α → Entry}

/-- An answer that arrives is the answer of a statement that ran. -/
theorem Fault.run_ok {value : α} (h : (fault.run rows result).2 = .ok value) :
    fault = .none ∧ result.2 = .ok value := by
  cases fault with
  | none => exact ⟨rfl, h⟩
  | lost | unacknowledged => simp [Fault.run] at h

variable (fault result entry) in
/-- A statement leaves no entry, or that of its success. -/
theorem Fault.entries_cases : fault.entries result entry = [] ∨
    ∃ value, result.2 = .ok value ∧ fault.entries result entry = [entry value] := by
  cases fault with
  | lost => exact .inl rfl
  | none | unacknowledged =>
    cases hresult : result.2 with
    | error error => exact .inl (by simp only [Fault.entries, hresult])
    | ok value => exact .inr ⟨value, rfl, by simp only [Fault.entries, hresult]⟩

theorem Fault.mem_entries {e : Entry} (h : e ∈ fault.entries result entry) :
    ∃ value, result.2 = .ok value ∧ e = entry value := by
  rcases fault.entries_cases result entry with hnone | ⟨value, hok, hone⟩
  · exact absurd h (hnone ▸ List.not_mem_nil)
  · exact ⟨value, hok, List.mem_singleton.mp (hone ▸ h)⟩

end Answers

section Phases

variable {config : TransactionalInboxConfig} {record : RelayRecord} {rest : List RelayRecord}

theorem rests_afterRecord : (afterRecord rest).Rests rest := by
  cases rest with
  | nil => exact ⟨List.nil_subset _, rfl⟩
  | cons record rest => exact ⟨List.Subset.refl _, rfl⟩

theorem rests_stopped (failure : Option String) : (Phase.stopped failure).Rests rest :=
  ⟨List.nil_subset _, rfl⟩

theorem rests_afterMark (answer : Except PostgresReliabilityError Unit) :
    (afterMark config record rest answer).Rests rest := by
  cases answer with
  | ok value => exact rests_afterRecord
  | error error =>
    simp only [afterMark]
    split_ifs
    · exact rests_stopped _
    · exact rests_afterRecord

theorem rests_afterFailure : (afterFailure config record rest).Rests rest := by
  simp only [afterFailure]
  split_ifs
  · exact rests_stopped _
  · exact rests_afterRecord

variable (config record rest) in
/-- The worker goes on with the record it began, or without it. -/
theorem rests_afterBegin (answer : Except PostgresReliabilityError Nat) :
    (∃ attempt, answer = .ok attempt ∧ afterBegin config record rest answer =
        .publishing { record with publishAttempts := attempt } rest) ∨
      (afterBegin config record rest answer).Rests rest := by
  cases answer with
  | ok attempt =>
    simp only [afterBegin]
    split_ifs
    · exact .inr (rests_stopped _)
    · exact .inl ⟨attempt, rfl, rfl⟩
  | error error =>
    right
    cases error with
    | outboxClaimLost => exact rests_afterRecord
    | _ => exact rests_stopped _

variable (config) in
theorem records_afterClaim (answer : Except PostgresReliabilityError (List OutboxRow)) :
    (afterClaim config answer).last = none ∧
      ∀ record ∈ (afterClaim config answer).records,
        ∃ rows, answer = .ok rows ∧ ∃ row ∈ rows, record = RelayRecord.ofRow row := by
  cases answer with
  | ok rows =>
    cases rows with
    | nil => simp [afterClaim, Phase.records, Phase.last]
    | cons row rows =>
      simp only [afterClaim]
      split_ifs
      · simp [Phase.records, Phase.last]
      · refine ⟨rfl, fun record hrecord => ⟨_, rfl, ?_⟩⟩
        obtain ⟨source, hsource, rfl⟩ := List.mem_map.mp hrecord
        exact ⟨source, hsource, rfl⟩
  | error error => cases error <;> simp [afterClaim, Phase.records, Phase.last]

end Phases

namespace Disciplined

variable {config : TransactionalInboxConfig} {worker : Uuid} {phase phase' : Phase}
  {log emitted : List Entry}

/-- A move logs at most one entry. -/
theorem extend (h : Disciplined config worker phase log)
    (tokens : ∀ record ∈ phase'.records, record.claimToken = worker)
    (last : ∀ entry ∈ phase'.last, (log ++ emitted).getLast? = some entry)
    (permitted : emitted = [] ∨ ∃ entry, emitted = [entry] ∧ Permitted config log entry) :
    Disciplined config worker phase' (log ++ emitted) := by
  refine ⟨tokens, last, ?_⟩
  rcases permitted with rfl | ⟨entry, rfl, hentry⟩
  · rw [List.append_nil]
    exact h.justified
  · exact h.justified.snoc hentry

/-- A move that adds nothing, and takes up no record. -/
theorem silent (h : Disciplined config worker phase log) (records : phase'.records ⊆ phase.records)
    (last : ∀ entry ∈ phase'.last, entry ∈ phase.last) :
    Disciplined config worker phase' (log ++ []) :=
  h.extend (fun record hrecord => h.tokens record (records hrecord))
    (fun entry hentry => by simpa using h.last entry (last entry hentry)) (.inl rfl)

/-- The answer of a statement after which the worker is between two publishes. -/
theorem rest {α : Type} {fault : Fault}
    {result : List OutboxRow × Except PostgresReliabilityError α} {entry : α → Entry}
    {rest : List RelayRecord} (h : Disciplined config worker phase log)
    (rests : phase'.Rests rest) (held : rest ⊆ phase.records)
    (permitted : ∀ value, result.2 = .ok value → Permitted config log (entry value)) :
    Disciplined config worker phase' (log ++ fault.entries result entry) := by
  refine h.extend (fun record hrecord => h.tokens record (held (rests.1 hrecord)))
    (by simp [rests.2]) ?_
  rcases fault.entries_cases result entry with hnone | ⟨value, hok, hone⟩
  · exact .inl hnone
  · exact .inr ⟨entry value, hone, permitted value hok⟩

/-- What a worker marks was begun and then confirmed. -/
theorem marked (h : Disciplined config worker phase log) {before after : List Entry}
    {recordId : Uuid} {token : Option Uuid}
    (hsplit : log = before ++ .marked recordId token :: after) :
    .began recordId ∈ before ∧ .published recordId .confirmed ∈ before := by
  have hconfirmed : before.getLast? = some (.published recordId .confirmed) :=
    h.justified before _ after hsplit
  obtain ⟨earlier, rfl⟩ := List.getLast?_eq_some_iff.mp hconfirmed
  rw [List.append_assoc] at hsplit
  have hbegan : earlier.getLast? = some (.began recordId) := h.justified earlier _ _ hsplit
  exact ⟨List.mem_append_left _ (List.mem_of_getLast? hbegan), List.mem_of_getLast? hconfirmed⟩

end Disciplined

/-- Every move keeps the discipline of its worker. -/
theorem act_disciplined (config : TransactionalInboxConfig) (worker : Uuid) (event : Event)
    (store : Store) (phase : Phase) (log : List Entry) (h : Disciplined config worker phase log) :
    Disciplined config worker (act config worker event store phase).own
      (log ++ (act config worker event store phase).emitted) := by
  fun_cases act config worker event store phase with
  | case1 | case2 | case3 | case4 | case14 => exact h.silent (List.Subset.refl _) fun _ => id
  | case5 locked lockedLater fault result reply =>
    obtain ⟨hlast, hrecords⟩ := records_afterClaim config reply.2
    refine h.extend (fun record hrecord => ?_) (by simp [hlast]) ?_
    · obtain ⟨rows, hok, row, hrow, rfl⟩ := hrecords record hrecord
      have hclaimed := claimOutboxBatch_ok (Fault.run_ok hok).2
      simp [RelayRecord.ofRow, hclaimed.2.2 row hrow]
    · rcases fault.entries_cases result .claimed with hnone | ⟨claimed, hok, hone⟩
      · exact .inl hnone
      · have hclaimed := claimOutboxBatch_ok hok
        exact .inr ⟨_, hone, hclaimed.1, hclaimed.2.1⟩
  | case6 fault reply =>
    refine h.silent ?_ ?_
    all_goals split <;> simp [exhausted, Phase.records, Phase.last]
  | case7 fault record rest result reply =>
    rcases rests_afterBegin config record rest reply.2 with ⟨attempt, hok, hphase⟩ | hrests
    · rw [hphase]
      obtain ⟨rfl, hresult⟩ := Fault.run_ok hok
      have hemitted : Fault.none.entries result (fun _ => .began record.recordId) =
          [.began record.recordId] := by simp only [Fault.entries, hresult]
      rw [hemitted]
      refine h.extend (fun other hother => ?_) (fun entry hentry => ?_) (.inr ⟨_, rfl, trivial⟩)
      · rcases List.mem_cons.mp hother with rfl | hrest
        · exact h.tokens record List.mem_cons_self
        · exact h.tokens other (List.mem_cons_of_mem _ hrest)
      · rw [List.getLast?_concat]
        exact hentry
    · exact h.rest hrests (List.subset_cons_self _ _) fun _ _ => trivial
  | case8 outcome record rest =>
    have hpermitted : Permitted config log (.published record.recordId outcome) := h.last _ rfl
    refine h.extend (fun other hother => h.tokens other ?_) (fun entry hentry => ?_)
      (.inr ⟨_, rfl, hpermitted⟩)
    · cases outcome <;> exact hother
    · cases outcome with
      | confirmed =>
        rw [List.getLast?_concat]
        exact hentry
      | failed code | timedOut => cases hentry
  | case9 fault record rest result reply =>
    exact h.rest (rests_afterMark _) (List.subset_cons_self _ _) fun _ _ => h.last _ rfl
  | case10 fault record rest code result reply =>
    exact h.rest rests_afterFailure (List.subset_cons_self _ _) fun _ _ => trivial
  | case11 | case12 | case13 => exact h.silent (List.nil_subset _) (by simp [Phase.last])

end Lily.Queue.Outbox
