import Lily.Mongodb.MigrationLease
import Lily.Transition.Precedence

/-!
# The history of a namespace

Whatever the runners of a namespace do, its history is the rows of a first part of the plan. A
runner goes through the plan in order from what it read, and a row that it writes either is the
next one or is there already and refused; that it may have lost its lease does not matter.
-/

namespace Lily.Mongodb.Migration

open Transition Validation Statement

variable (d : Deployment)

/-! ## Plans and their statements -/

theorem Deployment.increasing (space : MigrationNamespace) :
    ((d.plan space).map MongoMigration.version).Pairwise (· < ·) := by
  have hvalid := d.valid space
  simp only [validatePlan, bind_ok_iff, pure, Except.pure] at hvalid
  obtain ⟨-, -, last, hfold, -⟩ := hvalid
  refine (foldlM_invariant (P := fun done previous =>
    (done.map MongoMigration.version).Pairwise (· < ·) ∧
      ∀ v ∈ done.map MongoMigration.version, v ≤ previous) hfold ⟨.nil, by simp⟩ ?_).1
  rintro done migration rest previous next - ⟨hsorted, hle⟩ hstep
  simp only [bind_ok_iff, ensure_ok_iff] at hstep
  obtain ⟨-, -, -, hlt, heq⟩ := hstep
  cases heq
  refine ⟨?_, ?_⟩
  · rw [List.map_append, List.pairwise_append]
    refine ⟨hsorted, List.pairwise_singleton _ _, fun v hv w hw => ?_⟩
    obtain rfl : w = migration.version := by simpa using hw
    exact (hle v hv).trans_lt hlt
  · intro v hv
    rcases List.mem_append.mp (List.map_append ▸ hv) with hv | hv
    · exact (hle v hv).trans hlt.le
    · exact (List.mem_singleton.mp hv).le

theorem Deployment.nodup (space : MigrationNamespace) : (d.plan space).Nodup :=
  List.Nodup.of_map _ ((d.increasing space).imp ne_of_lt)

def Statement.inserted : Statement → Option MongoMigration
  | .insertOne migration => some migration
  | _ => none

variable (i j : Nat) (migration : MongoMigration) (statement : Statement)

def Statement.ended : Statement → Option MongoMigrationStep
  | .endStep other step => if other = migration then some step else none
  | _ => none

variable (todo : List Statement)

/-- The rows that are still to be written. -/
def inserts : List MongoMigration := todo.filterMap inserted

/-- The steps of a migration that are still to be run. -/
def remaining : List MongoMigrationStep :=
  todo.filterMap (ended migration)

@[simp] theorem inserts_cons :
    inserts (statement :: todo) = statement.inserted.toList ++ inserts todo := by
  cases h : statement.inserted <;> simp [inserts, h]

@[simp] theorem remaining_cons : remaining migration (statement :: todo) =
      (statement.ended migration).toList ++ remaining migration todo := by
  cases h : statement.ended migration <;> simp [remaining, h]

/-- What comes before the row of a migration. -/
def preparation : List Statement :=
  (migration.steps.flatMap fun step =>
    [.renewLock, .beginStep migration step, .endStep migration step, .renewLock]) ++ [.renewLock]

theorem statements_cons (rest : List MongoMigration) :
    statements (migration :: rest) =
      preparation migration ++ .insertOne migration :: statements rest := by
  simp [statements, preparation]

theorem statements_append (before after : List MongoMigration) :
    statements (before ++ after) = statements before ++ statements after := List.flatMap_append

theorem filterMap_preparation {α : Type} {f : Statement → Option α} {migration : MongoMigration}
    (hrenew : f .renewLock = none) (hbegin : ∀ step, f (.beginStep migration step) = none) :
    (preparation migration).filterMap f =
      migration.steps.filterMap fun step => f (.endStep migration step) := by
  rw [preparation, List.filterMap_append]
  induction migration.steps with
  | nil => simp [hrenew]
  | cons step rest ih =>
    cases h : f (.endStep migration step) <;> simpa [h, hrenew, hbegin] using ih

theorem inserts_preparation : inserts (preparation migration) = [] := by
  rw [inserts, filterMap_preparation rfl fun _ => rfl]
  simp [inserted]

theorem inserts_statements (migrations : List MongoMigration) :
    inserts (statements migrations) = migrations := by
  induction migrations with
  | nil => rfl
  | cons migration rest ih =>
    rw [statements_cons, inserts, List.filterMap_append]
    exact congrArg₂ (· ++ ·) (inserts_preparation migration) (congrArg (migration :: ·) ih)

theorem remaining_preparation (migration other : MongoMigration) :
    remaining migration (preparation other) = if other = migration then other.steps else [] := by
  rw [remaining, filterMap_preparation rfl fun _ => rfl]
  split_ifs with heq <;> simp [ended, heq]

theorem remaining_statements_cons (migration other : MongoMigration) (rest : List MongoMigration) :
    remaining migration (statements (other :: rest)) =
      (if other = migration then other.steps else []) ++ remaining migration (statements rest) := by
  rw [statements_cons, remaining, List.filterMap_append]
  exact congrArg (· ++ remaining migration (statements rest))
    (remaining_preparation migration other)

theorem remaining_statements_of_notMem {migration : MongoMigration}
    {migrations : List MongoMigration} (h : migration ∉ migrations) :
    remaining migration (statements migrations) = [] := by
  induction migrations with
  | nil => rfl
  | cons other rest ih =>
    obtain ⟨hne, hrest⟩ := not_or.mp (List.mem_cons.not.mp h)
    rw [remaining_statements_cons, if_neg (Ne.symm hne), ih hrest, List.append_nil]

theorem remaining_statements {migration : MongoMigration} {migrations : List MongoMigration}
    (hnodup : migrations.Nodup) (h : migration ∈ migrations) :
    remaining migration (statements migrations) = migration.steps := by
  induction migrations with
  | nil => cases h
  | cons other rest ih =>
    obtain ⟨hfresh, hrest⟩ := List.nodup_cons.mp hnodup
    rw [remaining_statements_cons]
    obtain rfl | heq := eq_or_ne other migration
    · rw [if_pos rfl, remaining_statements_of_notMem hfresh, List.append_nil]
    · rw [if_neg heq, ih hrest ((List.mem_cons.mp h).resolve_left (Ne.symm heq)), List.nil_append]

theorem of_insert_suffix {migration : MongoMigration} {todo : List Statement}
    {migrations : List MongoMigration}
    (h : .insertOne migration :: todo <:+ statements migrations) :
    ∃ later, todo = statements later ∧ migration :: later <:+ migrations := by
  induction migrations with
  | nil => simp [statements] at h
  | cons other rest ih =>
    obtain ⟨before, hsplit⟩ := h
    rw [statements_cons] at hsplit
    rcases List.append_eq_append_iff.mp hsplit with
      ⟨_ | ⟨head, tail⟩, hfirst, htail⟩ | ⟨_ | ⟨head, tail⟩, -, htail⟩
    case inl.cons =>
      -- No row is written before the steps have run.
      obtain ⟨rfl, -⟩ := List.cons.inj htail
      have hnone := inserts_preparation other
      rw [hfirst, inserts, List.filterMap_append] at hnone
      simp [inserted] at hnone
    case inr.cons =>
      obtain ⟨later, htodo, hsuffix⟩ := ih ⟨tail, (List.cons.inj htail).2.symm⟩
      exact ⟨later, htodo, hsuffix.trans (List.suffix_cons other rest)⟩
    all_goals
      cases htail
      exact ⟨rest, rfl, List.suffix_rfl⟩

/-! ## What the runners know -/

def Action.stepOf (i : Nat) (migration : MongoMigration) : Action → Option MongoMigrationStep
  | .stepDone j other step => if j = i ∧ other = migration then some step else none
  | .recorded _ _ => none

def Action.versionOf (i : Nat) : Action → Option Int
  | .recorded j migration => if j = i then some migration.version else none
  | .stepDone _ _ _ => none

/-- The steps of a migration that a runner has completed, in order. -/
def doneBy (i : Nat) (migration : MongoMigration) (log : List Action) : List MongoMigrationStep :=
  log.filterMap (Action.stepOf i migration)

def recordedBy (i : Nat) (log : List Action) : List Int := log.filterMap (Action.versionOf i)

@[simp] theorem doneBy_append (i : Nat) (migration : MongoMigration) (log log' : List Action) :
    doneBy i migration (log ++ log') = doneBy i migration log ++ doneBy i migration log' :=
  List.filterMap_append

@[simp] theorem recordedBy_append (i : Nat) (log log' : List Action) :
    recordedBy i (log ++ log') = recordedBy i log ++ recordedBy i log' := List.filterMap_append

@[simp] theorem doneBy_recorded (migration other : MongoMigration) :
    doneBy i migration [.recorded j other] = [] := by
  simp [doneBy, Action.stepOf]

theorem recordedBy_recorded :
    recordedBy i [.recorded j migration] = if j = i then [migration.version] else [] := by
  by_cases h : j = i <;> simp [recordedBy, Action.versionOf, h]

@[simp] theorem recordedBy_stepsDone : recordedBy i (State.stepsDone j statement) = [] := by
  cases statement <;> rfl

theorem doneBy_stepsDone :
    doneBy i migration (State.stepsDone j statement) =
      if j = i then (statement.ended migration).toList else [] := by
  cases statement with
  | endStep other step =>
    by_cases h : j = i <;> by_cases h' : other = migration <;>
      simp [doneBy, State.stepsDone, Action.stepOf, ended, h, h']
  | _ => simp [doneBy, State.stepsDone, ended]

/-- A row may only follow all steps of its migration, done in order by the runner that writes it. -/
def Completed (before : List Action) : Action → Prop
  | .recorded i migration =>
    migration ∈ d.plan (d.space i) ∧ doneBy i migration before = migration.steps
  | .stepDone _ _ _ => True

/-- A row that a runner is about to write: all before it in the plan are among the `count` rows that
are written, and its steps are done. -/
structure Ready (i count : Nat) (log : List Action) (migration : MongoMigration) : Prop where
  position : ∃ later, migration :: later <:+ d.plan (d.space i) ∧
    (d.plan (d.space i)).length ≤ count + later.length + 1
  steps : doneBy i migration log = migration.steps

/-- What a runner in its loop has done, and has still to do. -/
structure Working (i count : Nat) (log : List Action) (todo : List Statement)
    (report : MongoMigrationReport) : Prop where
  suffix : todo <:+ statements (d.plan (d.space i))
  count_le : (d.plan (d.space i)).length ≤ count + (inserts todo).length
  steps : ∀ migration ∈ inserts todo,
    doneBy i migration log ++ remaining migration todo = migration.steps
  newly : report.newlyApplied = recordedBy i log

/-- A call that is bound to return an error, or nothing. -/
def Phase.over : Phase → Bool
  | failed _ | releasing (.error _) | done (.error _) | crashed => true
  | _ => false

/-- What the phase of a runner says about the `count` rows of its namespace and the log. -/
def Knows (i count : Nat) (log : List Action) : Phase → Prop
  | .idle | .acquiring | .reading =>
    (∀ migration, doneBy i migration log = []) ∧ recordedBy i log = []
  | .working todo report => Working d i count log todo report
  | .releasing (.ok report) | .done (.ok report) =>
    (d.plan (d.space i)).length ≤ count ∧ report.newlyApplied = recordedBy i log
  | _ => True

variable {d} {i count : Nat} {log : List Action} {todo : List Statement}
  {report : MongoMigrationReport} {migration : MongoMigration}

variable {phase : Phase} {count' : Nat} {log' : List Action}

theorem Knows.mono (h : Knows d i count log phase) (hcount : count ≤ count')
    (hdone : ∀ migration, doneBy i migration log' = doneBy i migration log)
    (hrecorded : recordedBy i log' = recordedBy i log) : Knows d i count' log' phase := by
  cases phase with
  | idle | acquiring | reading => exact ⟨fun m => (hdone m).trans (h.1 m), hrecorded.trans h.2⟩
  | working todo report =>
    exact ⟨h.suffix, h.count_le.trans (by omega), fun m hm => hdone m ▸ h.steps m hm,
      h.newly.trans hrecorded.symm⟩
  | releasing result | done result =>
    cases result with
    | ok report => exact ⟨h.1.trans hcount, h.2.trans hrecorded.symm⟩
    | error error => trivial
  | failed _ | crashed => trivial

theorem Ready.mono (h : Ready d i count log migration)
    (hcount : count ≤ count') (hdone : doneBy i migration log' = doneBy i migration log) :
    Ready d i count' log' migration := by
  obtain ⟨later, hlater, hle⟩ := h.position
  exact ⟨⟨later, hlater, by omega⟩, hdone.trans h.steps⟩

namespace Working

theorem ready (h : Working d i count log (.insertOne migration :: todo) report) :
    Ready d i count log migration := by
  obtain ⟨later, rfl, hlater⟩ := of_insert_suffix h.suffix
  refine ⟨⟨later, hlater, ?_⟩, ?_⟩
  · simpa [inserted, inserts_statements, Nat.add_assoc] using h.count_le
  · -- Nothing of the migration is left behind its row.
    have hfresh : migration ∉ later :=
      (List.nodup_cons.mp ((d.nodup _).sublist hlater.sublist)).1
    simpa [ended, remaining_statements_of_notMem hfresh] using
      h.steps migration (by simp [inserted])

/-- The next statement of a runner that writes no row. -/
theorem advance {statement : Statement} (h : Working d i count log (statement :: todo) report)
    (hinsert : statement.inserted = none) :
    Working d i count (log ++ State.stepsDone i statement) todo report where
  suffix := (List.suffix_cons statement todo).trans h.suffix
  count_le := by simpa [hinsert] using h.count_le
  steps m hm := by
    simpa [doneBy_stepsDone] using h.steps m (by simpa [hinsert] using hm)
  newly := by simpa using h.newly

theorem record (h : Working d i count log (.insertOne migration :: todo) report) :
    Working d i (count + 1) (log ++ [.recorded i migration]) todo
      { report with newlyApplied := report.newlyApplied ++ [migration.version] } where
  suffix := (List.suffix_cons _ todo).trans h.suffix
  count_le := by simpa [inserted, Nat.add_assoc, Nat.add_comm] using h.count_le
  steps m hm := by simpa [ended] using h.steps m (by simp [hm])
  newly := by simp [recordedBy_recorded, h.newly]

/-- The work that is left after the history was read. -/
theorem start (hdone : ∀ migration, doneBy i migration log = []) (hrecorded : recordedBy i log = [])
    (hcount : count ≤ (d.plan (d.space i)).length) (previously : Nat) :
    Working d i count log (statements ((d.plan (d.space i)).drop count)) ⟨previously, []⟩ where
  suffix := by
    conv_rhs => rw [← List.take_append_drop count (d.plan (d.space i)), statements_append]
    exact List.suffix_append _ _
  count_le := by
    rw [inserts_statements, List.length_drop]
    omega
  steps m hm := by
    rw [inserts_statements] at hm
    rw [hdone, List.nil_append]
    exact remaining_statements ((d.nodup _).sublist (List.drop_sublist _ _)) hm
  newly := hrecorded.symm

end Working

/-! ## The rows of a namespace -/

theorem historyFilter_of_historyRow {space other : MigrationNamespace} {row : Row}
    (h : d.historyRow space migration = some row) :
    other.historyFilter row = decide (other = space) := by
  obtain ⟨checksum, -, rfl⟩ := Option.map_eq_some_iff.mp h
  cases space <;> cases other <;>
    simp [MigrationNamespace.historyFilter, MigrationNamespace.applyHistoryIdentity, eq_comm,
      beq_eq_decide]

theorem versions_of_historyRow {space : MigrationNamespace} {rows : List Row}
    {migrations : List MongoMigration} (h : rows.map some = migrations.map (d.historyRow space)) :
    rows.map Row.version = migrations.map MongoMigration.version := by
  induction rows generalizing migrations with
  | nil => simp [List.map_eq_nil_iff.mp h.symm]
  | cons row rows ih =>
    cases migrations with
    | nil => cases h
    | cons migration migrations =>
      obtain ⟨hrow, hrest⟩ := List.cons.inj h
      obtain ⟨checksum, -, rfl⟩ := Option.map_eq_some_iff.mp hrow.symm
      exact congrArg (migration.version :: ·) (ih hrest)

namespace Database

variable {b : Database} {row : Row}

theorem execute_cases (b : Database) (i : Nat) (statement : Statement) :
    ((b.execute d i statement).1.history = b.history ∧ (b.execute d i statement).2.1 = [] ∧
      ∀ migration, statement = .insertOne migration →
        ∃ error, (b.execute d i statement).2.2 = .error error) ∨
    ∃ migration row, statement = .insertOne migration ∧
      d.historyRow (d.space i) migration = some row ∧ (∀ old ∈ b.history, old.id ≠ row.id) ∧
      b.execute d i statement =
        ({ b with history := b.history ++ [row] }, [.recorded i migration], .ok []) := by
  fun_cases b.execute d i statement with
  | case14 migration row hrow hnew =>
    exact .inr ⟨migration, row, rfl, hrow, by simpa using hnew, rfl⟩
  | _ => simp [setLock]

/-- The history of each namespace is that of a first part of its plan. -/
def Prefixed (d : Deployment) (b : Database) : Prop :=
  ∀ space, (b.rows space).map some =
    ((d.plan space).take (b.rows space).length).map (d.historyRow space)

namespace Prefixed

theorem count_le (h : b.Prefixed d) (space : MigrationNamespace) :
    (b.rows space).length ≤ (d.plan space).length := by
  have hlength := congrArg List.length (h space)
  simp only [List.length_map, List.length_take] at hlength
  omega

theorem rows_append (hrow : d.historyRow (d.space i) migration = some row)
    (space : MigrationNamespace) :
    ({ b with history := b.history ++ [row] } : Database).rows space =
      b.rows space ++ if space = d.space i then [row] else [] := by
  rw [rows, List.filter_append]
  refine congrArg (b.rows space ++ ·) ?_
  by_cases hspace : space = d.space i <;>
    simp [historyFilter_of_historyRow hrow, hspace]

theorem record (h : b.Prefixed d) (hready : Ready d i (b.rows (d.space i)).length log migration)
    (hrow : d.historyRow (d.space i) migration = some row)
    (hnew : ∀ old ∈ b.history, old.id ≠ row.id) :
    ({ b with history := b.history ++ [row] } : Database).Prefixed d := by
  intro space
  rw [rows_append hrow]
  by_cases hspace : space = d.space i
  · subst hspace
    obtain ⟨later, ⟨before, hplan⟩, hle⟩ := hready.position
    have hbefore : before.length ≤ (b.rows (d.space i)).length := by
      have := congrArg List.length hplan
      simp only [List.length_append, List.length_cons] at this
      omega
    -- Were the row of the migration among those written, it would be refused.
    have hcount : before.length = (b.rows (d.space i)).length := by
      by_contra hne
      have hmem : some row ∈ (b.rows (d.space i)).map some := by
        rw [h (d.space i), ← hplan, ← hrow]
        refine List.mem_map_of_mem ?_
        have hpos : before.length < (b.rows (d.space i)).length := by omega
        obtain ⟨n, hn⟩ := Nat.exists_eq_add_of_lt hpos
        simp [List.take_append, hn, Nat.add_assoc]
      obtain ⟨old, hold, heq⟩ := List.mem_map.mp hmem
      cases heq
      exact hnew row (List.mem_of_mem_filter hold) rfl
    have hfirst : (d.plan (d.space i)).take ((b.rows (d.space i)).length + 1) =
        (d.plan (d.space i)).take (b.rows (d.space i)).length ++ [migration] := by
      simp [← hplan, ← hcount, List.take_append, List.take_of_length_le]
    simp [hfirst, h (d.space i), hrow]
  · simpa [hspace] using h space

/-- What is missing from the history is the rest of the plan. -/
theorem pending_eq (h : b.Prefixed d) (i : Nat) : d.pending i (b.rows (d.space i)) =
    (d.plan (d.space i)).drop (b.rows (d.space i)).length := by
  have hversions := versions_of_historyRow (h (d.space i))
  have hincreasing := d.increasing (d.space i)
  rw [Deployment.pending, hversions]
  generalize (b.rows (d.space i)).length = count
  rw [← List.take_append_drop count (d.plan (d.space i)), List.map_append,
    List.pairwise_append] at hincreasing
  conv_lhs => rw [← List.take_append_drop count (d.plan (d.space i))]
  rw [List.filter_append, List.filter_eq_nil_iff.mpr, List.filter_eq_self.mpr, List.nil_append]
  · intro m hm
    have hfresh : m.version ∉ ((d.plan (d.space i)).take count).map MongoMigration.version :=
      fun hmem => (hincreasing.2.2 _ hmem _ (List.mem_map_of_mem hm)).false
    simpa using hfresh
  · intro m hm
    have hmem := List.mem_map_of_mem (f := MongoMigration.version) hm
    simpa using hmem

end Prefixed

end Database

/-! ## Runs -/

/-- How database and runners stand to what was done. -/
structure Sound (d : Deployment) (s : State) (log : List Action) : Prop where
  prefixed : s.database.Prefixed d
  logged : ∀ row ∈ s.database.history, ∃ i migration, .recorded i migration ∈ log ∧
    d.historyRow (d.space i) migration = some row
  completed : Justified (Completed d) log
  phases : ∀ i, Knows d i (s.database.rows (d.space i)).length log (s.runners i).phase
  orphans : ∀ i migration, (i, .insertOne migration) ∈ s.orphans →
    (s.runners i).phase.over = true ∧ Ready d i (s.database.rows (d.space i)).length log migration

namespace Sound

variable {s s' : State} {phase : Phase}

theorem init : Sound d {} [] where
  prefixed _ := rfl
  logged := by simp
  completed := .nil
  phases _ := ⟨fun _ => rfl, rfl⟩
  orphans := by simp

variable (h : Sound d s log)

include h

/-- Locks, clock and heartbeats do not matter, nor do orphans that write nothing. -/
theorem congr (hhistory : s'.database.history = s.database.history)
    (hphases : ∀ j, (s'.runners j).phase = (s.runners j).phase)
    (horphans : ∀ j migration, (j, .insertOne migration) ∈ s'.orphans →
      (j, .insertOne migration) ∈ s.orphans) : Sound d s' log := by
  have hrows : s'.database.rows = s.database.rows := by
    funext space
    rw [Database.rows, hhistory, Database.rows]
  refine ⟨fun space => ?_, ?_, h.completed, fun j => ?_, fun j migration hmem => ?_⟩
  · rw [hrows]
    exact h.prefixed space
  · rw [hhistory]
    exact h.logged
  · rw [hrows, hphases]
    exact h.phases j
  · rw [hrows, hphases]
    exact h.orphans j migration (horphans j migration hmem)

omit h in
theorem phase_setPhase (i j : Nat) (phase : Phase) (s : State) :
    ((s.setPhase i phase).runners j).phase = if j = i then phase else (s.runners j).phase := by
  obtain rfl | hj := eq_or_ne j i
  · simp [State.setPhase]
  · simp [State.setPhase, hj]

/-- A runner goes on without a row. -/
theorem step (statement : Statement)
    (hknows : Knows d i (s.database.rows (d.space i)).length
      (log ++ State.stepsDone i statement) phase)
    (hover : (s.runners i).phase.over = true →
      phase.over = true ∧ State.stepsDone i statement = []) :
    Sound d (s.setPhase i phase) (log ++ State.stepsDone i statement) where
  prefixed := h.prefixed
  logged row hrow := by
    obtain ⟨j, migration, hmem, heq⟩ := h.logged row hrow
    exact ⟨j, migration, List.mem_append_left _ hmem, heq⟩
  completed := by
    cases statement with
    | endStep migration step => exact h.completed.snoc trivial
    | _ => exact (List.append_nil log).symm ▸ h.completed
  phases j := by
    rw [phase_setPhase]
    split
    next hj => exact hj ▸ hknows
    next hj =>
      exact (h.phases j).mono le_rfl (by simp [doneBy_stepsDone, Ne.symm hj]) (by simp)
  orphans j migration hmem := by
    obtain ⟨hj, hready⟩ := h.orphans j migration hmem
    rw [phase_setPhase]
    obtain rfl | heq := eq_or_ne j i
    · obtain ⟨hphase, hnone⟩ := hover hj
      simpa [hnone] using ⟨hphase, hready⟩
    · rw [if_neg heq]
      exact ⟨hj, hready.mono le_rfl (by simp [doneBy_stepsDone, Ne.symm heq])⟩

theorem setPhase (hknows : Knows d i (s.database.rows (d.space i)).length log phase)
    (hover : (s.runners i).phase.over = true → phase.over = true) :
    Sound d (s.setPhase i phase) log := by
  have hstep : Sound d (s.setPhase i phase) (log ++ State.stepsDone i .find) :=
    h.step .find (by simpa [State.stepsDone] using hknows) fun hi => ⟨hover hi, rfl⟩
  simpa [State.stepsDone] using hstep

/-- A row is written, by a runner that goes on or by one that has given up. -/
theorem record {row : Row} (hready : Ready d i (s.database.rows (d.space i)).length log migration)
    (hrow : d.historyRow (d.space i) migration = some row)
    (hnew : ∀ old ∈ s.database.history, old.id ≠ row.id)
    (hknows : Knows d i ((s.database.rows (d.space i)).length + 1)
      (log ++ [.recorded i migration]) phase)
    (hover : (s.runners i).phase.over = true → phase.over = true) :
    Sound d (State.setPhase i phase
      { s with database := { s.database with history := s.database.history ++ [row] } })
      (log ++ [.recorded i migration]) where
  prefixed := h.prefixed.record hready hrow hnew
  logged old hold := by
    rcases List.mem_append.mp hold with hold | hold
    · obtain ⟨j, other, hmem, heq⟩ := h.logged old hold
      exact ⟨j, other, List.mem_append_left _ hmem, heq⟩
    · obtain rfl := List.mem_singleton.mp hold
      exact ⟨i, migration, by simp, hrow⟩
  completed := h.completed.snoc (by
    obtain ⟨later, hlater, -⟩ := hready.position
    exact ⟨hlater.subset (List.mem_cons_self ..), hready.steps⟩)
  phases j := by
    rw [phase_setPhase]
    split
    next hj =>
      subst hj
      simpa [State.setPhase, Database.Prefixed.rows_append hrow] using hknows
    next hj =>
      refine (h.phases j).mono ?_ (by simp) (by simp [recordedBy_recorded, Ne.symm hj])
      simp [State.setPhase, Database.Prefixed.rows_append hrow]
  orphans j other hmem := by
    obtain ⟨hj, hother⟩ := h.orphans j other hmem
    refine ⟨?_, hother.mono ?_ (by simp)⟩
    · rw [phase_setPhase]
      split
      next heq => exact hover (heq ▸ hj)
      next => exact hj
    · simp [State.setPhase, Database.Prefixed.rows_append hrow]

omit h in
theorem knows_of_over (h : phase.over = true) : Knows d i count log phase := by
  unfold Phase.over at h
  split at h
  · trivial
  · trivial
  · trivial
  · trivial
  · cases h

omit h in
theorem ready_of_statement (h : Knows d i count log phase)
    (hstatement : phase.statement = some (.insertOne migration)) :
    Ready d i count log migration := by
  cases phase with
  | working todo report =>
    cases todo with
    | nil => cases hstatement
    | cons statement todo =>
      obtain rfl := Option.some.inj hstatement
      exact Working.ready h
  | _ => cases hstatement

/-- A call gives up. What it waited for may still be a row. -/
theorem abandon (hover : phase.over = true) : Sound d ((s.orphan i).setPhase i phase) log := by
  have hset : Sound d (s.setPhase i phase) log :=
    h.setPhase (knows_of_over hover) fun _ => hover
  unfold State.orphan
  split
  next => exact hset
  next => exact hset
  next statement _ hstatement =>
    refine ⟨hset.prefixed, hset.logged, hset.completed, hset.phases, fun j migration hmem => ?_⟩
    rcases List.mem_append.mp hmem with hmem | hmem
    · exact hset.orphans j migration hmem
    · obtain ⟨rfl, rfl⟩ := Prod.mk.inj (List.mem_singleton.mp hmem)
      exact ⟨by simpa [phase_setPhase] using hover, ready_of_statement (h.phases j) hstatement⟩

theorem orphanBeat (i : Nat) : Sound d (s.orphanBeat i) log := by
  unfold State.orphanBeat
  split
  · exact h.congr rfl (fun _ => rfl) (by simp)
  · exact h

theorem setHeartbeat (i : Nat) (heartbeat : Heartbeat) :
    Sound d (s.setHeartbeat i heartbeat) log := by
  refine h.congr rfl (fun j => ?_) fun _ _ hmem => hmem
  obtain rfl | hj := eq_or_ne j i
  · simp [State.setHeartbeat]
  · simp [State.setHeartbeat, hj]

theorem execute {statement : Statement}
    (hready : ∀ migration, statement = .insertOne migration → (s.runners i).phase.over = true ∧
      Ready d i (s.database.rows (d.space i)).length log migration) :
    Sound d { s with database := (s.database.execute d i statement).1 }
      (log ++ (s.database.execute d i statement).2.1) := by
  rcases s.database.execute_cases i statement with
    ⟨hhistory, hlog, -⟩ | ⟨migration, row, rfl, hrow, hnew, heq⟩
  · rw [hlog, List.append_nil]
    exact h.congr hhistory (fun _ => rfl) fun _ _ hmem => hmem
  · obtain ⟨hover, hready⟩ := hready migration rfl
    rw [heq]
    refine (h.record hready hrow hnew (knows_of_over hover) id).congr rfl (fun j => ?_)
      fun _ _ hmem => hmem
    rw [phase_setPhase]
    split
    next hj => rw [hj]
    next => rfl

omit h in
/-- What a runner knows after an answer that writes no row. -/
theorem knows_next {b : Database} {statement : Statement} (hprefixed : b.Prefixed d)
    (h : Knows d i (b.rows (d.space i)).length log phase)
    (hstatement : phase.statement = some statement)
    (hrefused : ∀ migration, statement = .insertOne migration →
      ∃ error, (b.execute d i statement).2.2 = .error error) :
    Knows d i (b.rows (d.space i)).length (log ++ State.stepsDone i statement)
      (phase.next d i (b.execute d i statement).2.2) := by
  cases phase with
  | idle | failed _ | done _ | crashed => cases hstatement
  | acquiring =>
    obtain rfl := Option.some.inj hstatement
    rw [show State.stepsDone i .acquireLock = [] from rfl, List.append_nil]
    cases (b.execute d i .acquireLock).2.2 with
    | ok _ => exact h
    | error _ => trivial
  | reading =>
    obtain rfl := Option.some.inj hstatement
    rw [show State.stepsDone i .find = [] from rfl, List.append_nil]
    simp only [Database.execute, Phase.next]
    split
    · rw [hprefixed.pending_eq]
      exact Working.start h.1 h.2 (hprefixed.count_le _) _
    · trivial
  | working todo report =>
    cases todo with
    | nil => cases hstatement
    | cons first todo =>
      obtain rfl := Option.some.inj hstatement
      cases hresult : (b.execute d i first).2.2 with
      | error error => cases first <;> trivial
      | ok rows =>
        cases hinserted : first.inserted with
        | none =>
          have hadvance := Working.advance h hinserted
          cases first with
          | insertOne migration => cases hinserted
          | _ => exact hadvance
        | some migration =>
          cases first with
          | insertOne _ =>
            obtain ⟨error, herror⟩ := hrefused _ rfl
            cases hresult.symm.trans herror
          | _ => cases hinserted
  | releasing result =>
    obtain rfl := Option.some.inj hstatement
    rw [show State.stepsDone i .releaseLock = [] from rfl, List.append_nil]
    cases result <;> cases (b.execute d i .releaseLock).2.2 <;> first | exact h | trivial

omit h in
theorem over_next {statement : Statement} {result : Except MongoRepositoryError (List Row)}
    (h : phase.over = true) (hstatement : phase.statement = some statement) :
    (phase.next d i result).over = true ∧ State.stepsDone i statement = [] := by
  cases phase with
  | releasing outcome =>
    obtain rfl := Option.some.inj hstatement
    cases outcome with
    | ok report => cases h
    | error error => cases result <;> exact ⟨rfl, rfl⟩
  | working | acquiring | reading => cases h
  | _ => cases hstatement

theorem reply (i : Nat) : Sound d (s.reply d i).1 (log ++ (s.reply d i).2) := by
  unfold State.reply
  split
  next => simpa using h
  next statement hstatement =>
    suffices hphase : Sound d (State.setPhase i
        ((s.runners i).phase.next d i (s.database.execute d i statement).2.2)
        { s with database := (s.database.execute d i statement).1 })
        (log ++ ((s.database.execute d i statement).2.1 ++ State.stepsDone i statement)) by
      unfold State.answered
      split
      · exact hphase.setHeartbeat i .sleeping
      · exact hphase
    rcases s.database.execute_cases i statement with
      ⟨hhistory, hlog, hrefused⟩ | ⟨migration, row, rfl, hrow, hnew, heq⟩
    · have hsame : Sound d { s with database := (s.database.execute d i statement).1 } log :=
        h.congr hhistory (fun _ => rfl) fun _ _ hmem => hmem
      rw [hlog, List.nil_append]
      refine hsame.step statement ?_ fun hover => over_next hover hstatement
      have hrows : (s.database.execute d i statement).1.rows = s.database.rows := by
        funext space
        rw [Database.rows, hhistory, Database.rows]
      rw [hrows]
      exact knows_next h.prefixed (h.phases i) hstatement hrefused
    · have hknows := h.phases i
      rw [heq]
      cases hphase : (s.runners i).phase with
      | working todo report =>
        rw [hphase] at hstatement hknows
        cases todo with
        | nil => cases hstatement
        | cons first todo =>
          obtain rfl := Option.some.inj hstatement
          exact h.record (Working.ready hknows) hrow hnew (Working.record hknows)
            fun hover => by simp [hphase, Phase.over] at hover
      | _ => simp [hphase, Phase.statement] at hstatement

theorem fail (i : Nat) (error : MongoRepositoryError) : Sound d (s.fail d i error) log := by
  have hknows := h.phases i
  unfold State.fail
  cases hphase : (s.runners i).phase with
  | acquiring | reading => exact h.abandon rfl
  | releasing result => cases result <;> exact h.abandon rfl
  | working todo report =>
    refine h.abandon ?_
    cases todo with
    | nil => rfl
    | cons statement todo => cases statement <;> rfl
  | _ =>
    rw [hphase] at hknows
    have hsame : s.orphan i = s := by simp [State.orphan, hphase, Phase.statement]
    rw [hsame]
    refine h.setPhase hknows fun hover => ?_
    rwa [hphase] at hover

theorem notice (i : Nat) : Sound d (s.notice i) log := by
  unfold State.notice
  split
  · exact (h.abandon rfl).setHeartbeat i .off
  · exact (h.abandon rfl).setHeartbeat i .off
  · exact h

theorem stop (i : Nat) : Sound d (s.stop i) log := by
  have hknows := h.phases i
  unfold State.stop
  split
  next => exact (h.setPhase (knows_of_over rfl) fun _ => rfl).setHeartbeat i .off
  next report _ hphase _ =>
    rw [hphase] at hknows
    refine ((h.setPhase ?_ ?_).orphanBeat i).setHeartbeat i .off
    · exact ⟨hknows.count_le, hknows.newly⟩
    · simp [hphase, Phase.over]
  next =>
    exact ((h.setPhase (knows_of_over rfl) fun _ => rfl).orphanBeat i).setHeartbeat i .off
  next => exact h

theorem quiet : Sound d s (log ++ []) := (List.append_nil log).symm ▸ h

theorem start (i : Nat) : Sound d (s.start i) log := by
  have hknows := h.phases i
  unfold State.start
  split
  next hphase =>
    rw [hphase] at hknows
    exact h.setPhase hknows (by simp [hphase, Phase.over])
  next => exact h

theorem beat (i : Nat) : Sound d (s.beat d i) log := by
  unfold State.beat
  split
  · refine Sound.setHeartbeat ?_ i _
    refine h.congr ?_ (fun _ => rfl) fun _ _ hmem => hmem
    rcases s.database.execute_cases i .renewLock with ⟨hhistory, -⟩ | ⟨_, _, hnot, -⟩
    · exact hhistory
    · cases hnot
  · exact h

/-- Statements, late ones included, keep the history a prefix of the plan. -/
theorem act (event : Event) :
    Sound d (Migration.act d event s).1 (log ++ (Migration.act d event s).2) := by
  cases event with
  | reply i => exact h.reply i
  | land k =>
    simp only [Migration.act, State.land]
    split
    next => simpa using h
    next i statement hk =>
      have hmem : (i, statement) ∈ s.orphans := List.mem_of_getElem? hk
      exact (h.execute fun migration heq => h.orphans i migration (heq ▸ hmem)).congr rfl
        (fun _ => rfl) fun _ _ hin => List.mem_of_mem_eraseIdx hin
  | tick millis => exact quiet (h.congr rfl (fun _ => rfl) fun _ _ hmem => hmem)
  | start i => exact quiet (h.start i)
  | fail i error => exact quiet (h.fail i error)
  | wake i =>
    refine quiet ?_
    simp only [Migration.act, State.wake]
    split
    · exact h.setHeartbeat i .renewing
    · exact h
  | beat i => exact quiet (h.beat i)
  | beatFail i error =>
    refine quiet ?_
    simp only [Migration.act, State.beatFail]
    split
    · exact (h.orphanBeat i).setHeartbeat i (.failed error)
    · exact h
  | notice i => exact quiet (h.notice i)
  | stop i => exact quiet (h.stop i)
  | crash i => exact quiet (((h.abandon rfl).orphanBeat i).setHeartbeat i .off)

end Sound

theorem run_sound (d : Deployment) (events : List Event) :
    Sound d ((system d).run ({}, []) events).1 ((system d).run ({}, []) events).2 :=
  (system d).run_induct Sound.init (fun _ _ event h => h.act event) events

theorem run_leased (d : Deployment) (events : List Event) :
    ((system d).run ({}, []) events).1.database.Leased d :=
  (system d).run_induct (P := fun s _ => s.database.Leased d) Database.Leased.init
    (fun _ _ event h => act_leased d h event) events

theorem Database.execute_other {b : Database} {space : MigrationNamespace} (statement : Statement)
    (h : d.space i ≠ space) : (b.execute d i statement).1.rows space = b.rows space ∧
      (b.execute d i statement).1.lock space = b.lock space := by
  have hkey : space.lockId ≠ (d.space i).lockId :=
    fun heq => h (MigrationNamespace.lockId_injective heq).symm
  have hset (lease : Option Lease) : (b.setLock d i lease).rows space = b.rows space ∧
      (b.setLock d i lease).lock space = b.lock space :=
    ⟨rfl, Function.update_of_ne hkey _ _⟩
  fun_cases b.execute d i statement with
  | case14 migration row hrow => exact ⟨by simp [Prefixed.rows_append hrow, Ne.symm h], rfl⟩
  | _ => simp [hset]

/-- A lease that has run out, or that was released, is taken by the next runner that asks. -/
theorem acquire_of_expired {s : State} (hphase : (s.runners i).phase = .acquiring)
    (hexpired : ∀ lease, s.database.lock (d.space i) = some lease →
      lease.leaseUntil ≤ s.database.now) :
    ((act d (.reply i) s).1.runners i).phase = .reading ∧
      (act d (.reply i) s).1.database.Holds d i := by
  have hcan : s.database.canAcquire d i = true := by
    unfold Database.canAcquire
    split
    next => rfl
    next lease hlease => simp [hexpired lease hlease]
  have hexecute : s.database.execute d i .acquireLock =
      (s.database.setLock d i (some ⟨i, s.database.now + lockLeaseMillis⟩), [], .ok []) := by
    simp [Database.execute, hcan]
  have hreply : act d (.reply i) s = ((State.setPhase i .reading
      { s with
        database := s.database.setLock d i
          (some ⟨i, s.database.now + lockLeaseMillis⟩) }).setHeartbeat i .sleeping, []) := by
    simp [act, State.reply, State.answered, hphase, Phase.statement, Phase.next, hexecute,
      State.stepsDone]
  rw [hreply]
  refine ⟨by simp [State.setHeartbeat, State.setPhase],
    ⟨i, s.database.now + lockLeaseMillis⟩, ?_, rfl, Nat.lt_add_of_pos_right (by decide)⟩
  simp [Database.lock, Database.setLock, State.setHeartbeat, State.setPhase]

/-- What a run has made of the history and of the runners' results. -/
structure Applied (d : Deployment) (s : State) (log : List Action) : Prop where
  history : ∀ space, ∃ first, first <+: d.plan space ∧
    (s.database.rows space).map some = first.map (d.historyRow space)
  increasing : ∀ space, ((s.database.rows space).map Row.version).Pairwise (· < ·)
  completed : ∀ row ∈ s.database.history, ∃ i migration before after,
    log = before ++ .recorded i migration :: after ∧
    d.historyRow (d.space i) migration = some row ∧ doneBy i migration before = migration.steps
  result : ∀ i report, (s.runners i).phase = .done (.ok report) →
    (s.database.rows (d.space i)).map some = (d.plan (d.space i)).map (d.historyRow (d.space i)) ∧
      report.newlyApplied = recordedBy i log
  separate : ∀ event space, (∀ i, s.actor event = some i → d.space i ≠ space) →
    (act d event s).1.database.rows space = s.database.rows space ∧
      (act d event s).1.database.lock space = s.database.lock space

theorem Sound.applied {s : State} (h : Sound d s log) : Applied d s log where
  history space := ⟨_, List.take_prefix _ _, h.prefixed space⟩
  increasing space := by
    rw [versions_of_historyRow (h.prefixed space), List.map_take]
    exact (d.increasing space).take
  completed row hrow := by
    obtain ⟨i, migration, hmem, heq⟩ := h.logged row hrow
    obtain ⟨before, after, hsplit⟩ := List.append_of_mem hmem
    exact ⟨i, migration, before, after, hsplit, heq, (h.completed _ _ _ hsplit).2⟩
  result i report hphase := by
    have hknows := h.phases i
    rw [hphase] at hknows
    have hrows := h.prefixed (d.space i)
    rw [List.take_of_length_le hknows.1] at hrows
    exact ⟨hrows, hknows.2⟩
  separate event space hactor := by
    rcases act_database d event s with heq | ⟨millis, heq⟩ | ⟨i, statement, hi, heq⟩ <;> rw [heq]
    · exact ⟨rfl, rfl⟩
    · exact ⟨rfl, rfl⟩
    · exact Database.execute_other statement (hactor i hi)

/-- After any run the history of each namespace is that of a first part of its plan, each row after
its steps; a call that returned `Ok` finds the whole plan recorded and reports what it recorded
itself; the other namespaces are left alone. Once the time of a lease has passed without a renewal,
whoever crashed, the next runner that asks for it gets it. -/
theorem migrations_applied (d : Deployment) (events : List Event) :
    Applied d ((system d).run ({}, []) events).1 ((system d).run ({}, []) events).2 ∧
    ∀ (later : List Event) (i : Nat),
      ((system d).run ({}, []) (events ++ later)).1.database.lock (d.space i) =
        ((system d).run ({}, []) events).1.database.lock (d.space i) →
      ((system d).run ({}, []) events).1.database.now + lockLeaseMillis ≤
        ((system d).run ({}, []) (events ++ later)).1.database.now →
      (((system d).run ({}, []) (events ++ later)).1.runners i).phase = .acquiring →
      (((system d).run ({}, []) (events ++ later ++ [.reply i])).1.runners i).phase = .reading ∧
        ((system d).run ({}, []) (events ++ later ++ [.reply i])).1.database.Holds d i := by
  refine ⟨(run_sound d events).applied, fun later i hlock hnow hphase => ?_⟩
  rw [Reactive.run_append]
  refine acquire_of_expired hphase fun lease hlease => ?_
  have hleased := run_leased d events
  obtain ⟨t, ht, huntil⟩ := (hleased.owner _ lease (hlock ▸ hlease)).2
  have hpast := hleased.past _ t ht
  omega

end Lily.Mongodb.Migration
