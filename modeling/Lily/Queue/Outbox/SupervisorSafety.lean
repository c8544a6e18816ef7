import Lily.Queue.Outbox.Supervisor

/-!
# What the relay shows while it drains

The state word is written by seven accesses. Two of them ask for the value they replace, and
leave a drain alone. Two do not: a failure is recorded over whatever the state was, and so is
the readiness of a supervisor without workers. Once a drain has been published, the state
remains one of a drain exactly until one of these two happens. After a recorded failure the
word can be promoted again, up to a relay that calls itself ready while it drains.
-/

namespace Lily.Queue.Outbox.Supervisor

open Transition

/-- The states of a relay that does not take new work any more. -/
def OutboxRelayState.closing : OutboxRelayState → Bool
  | .draining | .stopped | .failed => true
  | .starting | .ready | .degraded => false

/-- The writes that do not look at what they replace. -/
def Entry.overwrites : Entry → Bool
  | .failureRecorded | .emptyStarted => true
  | _ => false

/-- What one move can do to the state word. -/
inductive Writes : OutboxRelayState → OutboxRelayState → List Entry → Prop where
  | silent (state : OutboxRelayState) : Writes state state []
  | failureRecorded (state : OutboxRelayState) : Writes state .degraded [.failureRecorded]
  | promoted {state : OutboxRelayState} (h : state.closing = false) :
      Writes state .ready [.promoted]
  | emptyStarted (state : OutboxRelayState) : Writes state .ready [.emptyStarted]
  | draining (state : OutboxRelayState) : Writes state .draining [.draining]
  | drained (state : OutboxRelayState) (succeeded : Bool) :
      Writes state (if succeeded then .stopped else .failed) [.drained succeeded]
  | readiness {state : OutboxRelayState} {answer : Bool} (h : answer = true → state = .ready) :
      Writes state state [.readiness answer]

theorem Promotion.accepts_closing {promotion : Promotion} {state : OutboxRelayState}
    (h : promotion.accepts state = true) : state.closing = false := by
  cases promotion <;> cases state <;> first | rfl | cases h

variable (key : String) (event : Event) (s : OutboxRelaySupervisor) (task : WorkerTask)

theorem Access.perform_writes (degradation : UInt8) (access : Access) :
    Writes s.ledger.state (access.perform key s degradation).supervisor.ledger.state
      (access.perform key s degradation).entries := by
  cases access with
  | storeDegraded => exact .failureRecorded _
  | promote promotion =>
    by_cases haccepts : promotion.accepts s.ledger.state = true
    · simp only [Access.perform, haccepts, if_true]
      exact .promoted (Promotion.accepts_closing haccepts)
    · simp only [Access.perform, haccepts]
      exact .silent _
  | increment counter | decrement counter =>
    simp only [Access.perform, OutboxRelaySupervisor.onLedger, Counter.add_state]
    exact .silent _
  | _ => exact .silent _

theorem WorkerTask.act_writes :
    Writes s.ledger.state (task.act key event s).shared.ledger.state
      (task.act key event s).emitted := by
  unfold WorkerTask.act
  cases hpending : task.pending with
  | cons access rest => exact access.perform_writes key s task.degradation
  | nil =>
    cases (s.worker? key).bind fun worker => task.point.next worker event with
    | some plan => exact .silent _
    | none => exact .silent _

theorem Call.act_writes (call : Call) :
    Writes s.ledger.state (call.act event s).shared.ledger.state (call.act event s).emitted := by
  fun_cases Call.act event s call
  all_goals first
    | exact .silent _
    | exact .emptyStarted _
    | exact .draining _
    | exact .drained _ _
    | refine .readiness fun h => ?_
  simp only [Bool.and_eq_true, beq_iff_eq] at h
  exact h.1.2

/-- Every move logs what it writes to the relay state. -/
theorem act_writes (component : Component) (event : Event) (s : OutboxRelaySupervisor)
    (own : Local) :
    Writes s.ledger.state (act component event s own).shared.ledger.state
      (act component event s own).emitted := by
  cases component with
  | worker key =>
    cases own with
    | worker task => exact task.act_writes key event s
    | call call => exact .silent _
  | call id =>
    cases own with
    | worker task => exact .silent _
    | call call => exact call.act_writes event s

/-- What a move leaves of a drain, and what it tells about readiness. -/
def Quiet (state : OutboxRelayState) (entries : List Entry) : Prop :=
  state.closing = true ∧ Entry.readiness true ∉ entries

theorem Writes.quiet_iff {before after : OutboxRelayState} {entries : List Entry}
    (h : Writes before after entries) (hclosing : before.closing = true) :
    Quiet after entries ↔ ∀ entry ∈ entries, entry.overwrites = false := by
  cases h with
  | silent => simpa [Quiet] using hclosing
  | failureRecorded | emptyStarted | draining =>
    simp [Quiet, OutboxRelayState.closing, Entry.overwrites]
  | promoted hopen => simp [hopen] at hclosing
  | drained succeeded =>
    cases succeeded <;> simp [Quiet, OutboxRelayState.closing, Entry.overwrites]
  | @readiness answer hready =>
    cases answer with
    | false => simpa [Quiet, Entry.overwrites] using hclosing
    | true => simp [hready rfl, OutboxRelayState.closing] at hclosing

variable (w : World Component OutboxRelaySupervisor Local Entry) (moves : List (Component × Event))

/-- The word of a world. -/
def state : OutboxRelayState :=
  w.shared.ledger.state

/-- From a drain on: at every point of the run the state is one of a drain, and nobody is told
that the relay is ready. -/
def StaysClosing : Prop :=
  (∀ earlier, earlier <+: moves → (state (relays.run w earlier)).closing = true) ∧
    ∀ entry ∈ relays.emitted w moves, entry.2 ≠ .readiness true

theorem staysClosing_cons {w : World Component OutboxRelaySupervisor Local Entry}
    (hclosing : (state w).closing = true) (move : Component × Event)
    (rest : List (Component × Event)) :
    StaysClosing w (move :: rest) ↔
      Quiet (state (relays.step w move))
          (relays.act move.1 move.2 w.shared (w.locals move.1)).emitted ∧
        StaysClosing (relays.step w move) rest := by
  simp only [StaysClosing, Quiet, Machine.emitted, List.forall_mem_append, List.forall_mem_map]
  constructor
  · rintro ⟨hstate, hnow, hlater⟩
    refine ⟨⟨?_, fun hmem => hnow _ hmem rfl⟩, fun earlier hprefix => ?_, hlater⟩
    · exact hstate [move] ⟨rest, rfl⟩
    · exact hstate (move :: earlier) ((List.prefix_cons_inj move).mpr hprefix)
  · rintro ⟨⟨hstate, hnow⟩, hrest, hlater⟩
    refine ⟨fun earlier hprefix => ?_, fun entry hentry heq => hnow (heq ▸ hentry), hlater⟩
    cases earlier with
    | nil => exact hclosing
    | cons first earlier =>
      obtain ⟨rfl, htail⟩ := List.cons_prefix_cons.mp hprefix
      exact hrest earlier htail

/-- A run keeps a drain exactly if none of its moves overwrites the state. -/
theorem staysClosing_iff {w : World Component OutboxRelaySupervisor Local Entry}
    (hclosing : (state w).closing = true) (moves : List (Component × Event)) :
    StaysClosing w moves ↔
      ∀ entry ∈ relays.emitted w moves, entry.2.overwrites = false := by
  induction moves generalizing w with
  | nil =>
    constructor
    · intro _ entry hentry
      cases hentry
    · intro _
      refine ⟨fun earlier hprefix => ?_, fun entry hentry => ?_⟩
      · rw [List.prefix_nil.mp hprefix]
        exact hclosing
      · cases hentry
  | cons move rest ih =>
    have hstep : Quiet (state (relays.step w move))
        (relays.act move.1 move.2 w.shared (w.locals move.1)).emitted ↔
          ∀ entry ∈ (relays.act move.1 move.2 w.shared (w.locals move.1)).emitted,
            entry.overwrites = false :=
      (act_writes move.1 move.2 w.shared (w.locals move.1)).quiet_iff hclosing
    rw [staysClosing_cons hclosing, Machine.emitted, List.forall_mem_append, List.forall_mem_map]
    constructor
    · rintro ⟨hquiet, hrest⟩
      exact ⟨hstep.mp hquiet, (ih hquiet.1).mp hrest⟩
    · rintro ⟨hnow, hlater⟩
      have hquiet := hstep.mpr hnow
      exact ⟨hquiet, (ih hquiet.1).mpr hlater⟩

theorem Entry.overwrites_eq_false {entry : Entry} :
    entry.overwrites = false ↔ entry ≠ .failureRecorded ∧ entry ≠ .emptyStarted := by
  cases entry <;> simp [Entry.overwrites]

/-- Once `stop_admission` has published its drain, in any run: the state stays within draining,
stopped and failed, and nobody is told that the relay is ready, exactly until a worker records a
failure or a start that found no workers publishes that it is ready. -/
theorem drain_kept_iff (before after : List (Component × Event)) {id : Nat}
    {workers : List String} {next : After} (hstop : (relays.run initial before).locals (.call id) =
      .call (.publishingDraining workers next)) :
    let draining := relays.step (relays.run initial before) (.call id, .tick)
    StaysClosing draining after ↔
      ∀ entry ∈ relays.emitted draining after,
        entry.2 ≠ .failureRecorded ∧ entry.2 ≠ .emptyStarted := by
  intro draining
  have hact : relays.act (.call id) .tick (relays.run initial before).shared
      ((relays.run initial before).locals (.call id)) =
        ⟨(relays.run initial before).shared.onLedger fun l => { l with state := .draining },
          .call (.cancelling workers next), [.draining]⟩ := by
    rw [hstop]
    rfl
  have hclosing : (state draining).closing = true := by
    change (relays.act (.call id) .tick (relays.run initial before).shared
      ((relays.run initial before).locals (.call id))).shared.ledger.state.closing = true
    rw [hact]
    rfl
  rw [staysClosing_iff hclosing]
  simp only [Entry.overwrites_eq_false]

section Sample

def sampleRecord (recordId : Uuid) : RelayRecord where
  recordId
  claimToken := 1
  message := ⟨recordId, "orders", "orders.created", 1, "json", "application/json", [0], none⟩
  publishAttempts := 0

def ticks (component : Component) (n : Nat) : List (Component × Event) :=
  List.replicate n (component, .tick)

/-- One worker is registered and started, and has claimed two records. Its publish of the first
is under way when another call stops admission, and is about to publish the drain. -/
def sampleBefore : List (Component × Event) :=
  [(.call 0, .invoke (.register "cell" {})), (.call 0, .tick), (.call 0, .schema (.ok ()))] ++
    ticks (.call 0) 5 ++
    [(.call 0, .invoke .start)] ++ ticks (.call 0) 3 ++ [(.call 0, .pick "cell")] ++
    ticks (.worker "cell") 7 ++ ticks (.call 0) 3 ++ ticks (.worker "cell") 1 ++
    [(.worker "cell", .claim (.ok [sampleRecord 1, sampleRecord 2]))] ++
    ticks (.worker "cell") 2 ++ [(.worker "cell", .begin (.ok (some 1)))] ++
    [(.call 1, .invoke .stopAdmission)] ++ ticks (.call 1) 2

/-- The broker confirms the publish of a record, and the store that it was delivered. -/
def sampleDelivery : List (Component × Event) :=
  [(.worker "cell", .publish .confirmed), (.worker "cell", .mark (.ok ()))]

/-- Both publishes are confirmed and the drain is completed. -/
def sampleDrain : List (Component × Event) :=
  ticks (.call 1) 2 ++ sampleDelivery ++ ticks (.worker "cell") 7 ++
    [(.worker "cell", .begin (.ok (some 1)))] ++ sampleDelivery ++ ticks (.worker "cell") 12 ++
    [(.call 2, .invoke (.drain false))] ++ ticks (.call 2) 2 ++
    [(.call 2, .joined (.ok ())), (.call 2, .tick)]

theorem sample_drain_kept :
    StaysClosing (relays.step (relays.run initial sampleBefore) (.call 1, .tick)) sampleDrain ∧
      state (relays.run (relays.step (relays.run initial sampleBefore) (.call 1, .tick))
        sampleDrain) = .stopped := by
  have hstop : (relays.run initial sampleBefore).locals (.call 1) =
      .call (.publishingDraining ["cell"] .done) := rfl
  refine ⟨(drain_kept_iff sampleBefore sampleDrain hstop).mpr ?_, ?_⟩
  · decide
  · decide

/-- The first publish fails after admission was stopped, and the second is confirmed. -/
def sampleRecovery : List (Component × Event) :=
  [(.worker "cell", .publish (.failed "QUEUE_PUBLISH_NOT_CONFIRMED"))] ++
    ticks (.worker "cell") 5 ++ [(.worker "cell", .recordFailure (.ok ()))] ++
    ticks (.worker "cell") 5 ++ [(.worker "cell", .begin (.ok (some 1)))] ++ sampleDelivery ++
    ticks (.worker "cell") 8 ++ [(.call 2, .invoke .isReady)] ++ ticks (.call 2) 4

/-- `stop_admission` has returned and the relay is draining. A publish that fails and one that
is confirmed later it is ready again, and says so. -/
theorem draining_relay_ready :
    let stopped := relays.run initial (sampleBefore ++ ticks (.call 1) 3)
    stopped.locals (.call 1) = .call (.returned (.ok ())) ∧ state stopped = .draining ∧
      state (relays.run stopped sampleRecovery) = .ready ∧
      (Component.call 2, Entry.readiness true) ∈ relays.emitted stopped sampleRecovery := by
  refine ⟨rfl, ?_, ?_, ?_⟩
  all_goals decide

end Sample

end Lily.Queue.Outbox.Supervisor
