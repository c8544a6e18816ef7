import Lily.Mongodb.Migration

/-!
# Who owns the migrations of a namespace

The lock document names one owner, so at most one runner of a namespace holds an unexpired lease. A
runner renews its lease before it begins a step and before it writes a history row, but by another
statement: whether it still holds the lease at that moment depends on the time in between.
-/

namespace Lily.Mongodb.Migration

open Transition

variable (d : Deployment)

theorem MigrationNamespace.lockId_injective : Function.Injective MigrationNamespace.lockId := by
  intro a b h
  -- The two forms differ in their first letter.
  have hhead : a.lockId.toList.head? = b.lockId.toList.head? := by rw [h]
  cases a <;> cases b
  · rfl
  · simp [lockId, String.toList_append] at hhead
  · simp [lockId, String.toList_append] at hhead
  · simpa [lockId] using h

/-! ## What one move does to the database -/

variable (i : Nat) (statement : Statement) (result : Except MongoRepositoryError (List Row))
  (s : State)

/-- The runner whose statement an event brings to the server. -/
def State.actor : Event → Option Nat
  | .reply i | .beat i => some i
  | .land k => s.orphans[k]?.map Prod.fst
  | _ => none

@[simp] theorem State.setPhase_database (phase : Phase) (s : State) :
    (s.setPhase i phase).database = s.database := by
  simp only [State.setPhase]

@[simp] theorem State.setHeartbeat_database (heartbeat : Heartbeat) (s : State) :
    (s.setHeartbeat i heartbeat).database = s.database := by
  simp only [State.setHeartbeat]

@[simp] theorem State.orphan_database : (s.orphan i).database = s.database := by
  unfold State.orphan
  split <;> rfl

@[simp] theorem State.orphanBeat_database : (s.orphanBeat i).database = s.database := by
  unfold State.orphanBeat
  split <;> rfl

@[simp] theorem State.answered_database :
    (s.answered d i statement result).database = s.database := by
  unfold State.answered
  split <;> rfl

/-- An event leaves the database alone, lets time pass, or brings one statement to it. -/
theorem act_database (event : Event) (s : State) :
    (act d event s).1.database = s.database ∨
      (∃ millis, (act d event s).1.database = { s.database with now := s.database.now + millis }) ∨
      ∃ i statement, s.actor event = some i ∧
        (act d event s).1.database = (s.database.execute d i statement).1 := by
  cases event with
  | tick millis => exact .inr (.inl ⟨millis, rfl⟩)
  | reply i =>
    simp only [act, State.reply]
    split
    next => exact .inl rfl
    next statement _ => exact .inr (.inr ⟨i, statement, rfl, by simp⟩)
  | beat i =>
    simp only [act, State.beat]
    split
    next => exact .inr (.inr ⟨i, .renewLock, rfl, rfl⟩)
    next => exact .inl rfl
  | land k =>
    simp only [act, State.land]
    split
    next => exact .inl rfl
    next i statement h => exact .inr (.inr ⟨i, statement, by simp [State.actor, h], rfl⟩)
  | fail | crash => simp [act, State.fail, State.crash]
  | start | wake | beatFail | notice | stop =>
    simp only [act, State.start, State.wake, State.beatFail, State.notice, State.stop]
    split <;> simp

/-! ## Leases -/

namespace Database

variable {d} {b : Database} {i : Nat}

/-- A runner holds the lease of its namespace, by the server's clock. -/
def Holds (d : Deployment) (b : Database) (i : Nat) : Prop :=
  ∃ lease, b.lock (d.space i) = some lease ∧ lease.owner = i ∧ b.now < lease.leaseUntil

/-- Less than the lease's time has passed since the runner took or renewed it. -/
def Renewed (b : Database) (i : Nat) : Prop :=
  ∃ t, b.renewedAt i = some t ∧ b.now < t + lockLeaseMillis

theorem Holds.unique {j : Nat} (hi : b.Holds d i) (hj : b.Holds d j)
    (hspace : d.space j = d.space i) : j = i := by
  obtain ⟨lease, hlease, rfl, -⟩ := hi
  obtain ⟨lease', hlease', rfl, -⟩ := hj
  rw [hspace, hlease] at hlease'
  rw [Option.some.inj hlease']

/-- A lock document is of its owner's namespace and runs from the owner's last renewal. A runner
that is not named in it was last renewed a lease ago. -/
structure Leased (d : Deployment) (b : Database) : Prop where
  owner : ∀ key lease, b.locks key = some lease → key = (d.space lease.owner).lockId ∧
    ∃ t, b.renewedAt lease.owner = some t ∧ lease.leaseUntil = t + lockLeaseMillis
  past : ∀ i t, b.renewedAt i = some t → t ≤ b.now
  expired : ∀ i t, b.renewedAt i = some t →
    (∃ lease, b.lock (d.space i) = some lease ∧ lease.owner = i) ∨ t + lockLeaseMillis ≤ b.now

namespace Leased

theorem init : Leased d {} := by
  constructor <;> simp

theorem tick (h : Leased d b) (millis : Nat) : Leased d { b with now := b.now + millis } where
  owner := h.owner
  past i t ht := (h.past i t ht).trans (Nat.le_add_right _ _)
  expired i t ht := (h.expired i t ht).imp_right fun hle => hle.trans (Nat.le_add_right _ _)

/-- The lock is given to a runner, or deleted by it, where nobody else holds it. -/
theorem setLock (h : Leased d b) {lease : Option Lease}
    (hfree : ∀ old, b.lock (d.space i) = some old → old.owner = i ∨ old.leaseUntil ≤ b.now)
    (hlease : ∀ new, lease = some new → new = ⟨i, b.now + lockLeaseMillis⟩) :
    Leased d (b.setLock d i lease) where
  owner key new hnew := by
    by_cases hkey : key = (d.space i).lockId
    · subst hkey
      have hsome : lease = some new := by simpa [Database.setLock] using hnew
      obtain rfl := hlease new hsome
      exact ⟨rfl, b.now, by simp [Database.setLock, hsome], rfl⟩
    · have hold : b.locks key = some new := by
        simpa [Database.setLock, Function.update_of_ne hkey] using hnew
      obtain ⟨howner, t, ht, huntil⟩ := h.owner key new hold
      have hne : new.owner ≠ i := fun heq => hkey (heq ▸ howner)
      exact ⟨howner, t, by simpa [Database.setLock, Function.update_of_ne hne] using ht, huntil⟩
  past j t ht := by
    obtain rfl | hj := eq_or_ne j i
    · have : ∃ new, lease = some new ∧ b.now = t := by
        simpa [Database.setLock] using ht
      obtain ⟨-, -, rfl⟩ := this
      exact le_rfl
    · exact h.past j t (by simpa [Database.setLock, Function.update_of_ne hj] using ht)
  expired j t ht := by
    obtain rfl | hj := eq_or_ne j i
    · have : ∃ new, lease = some new ∧ b.now = t := by
        simpa [Database.setLock] using ht
      obtain ⟨new, hsome, -⟩ := this
      obtain rfl := hlease new hsome
      exact .inl
        ⟨⟨j, b.now + lockLeaseMillis⟩, by simp [Database.lock, Database.setLock, hsome], rfl⟩
    · have ht' : b.renewedAt j = some t := by
        simpa [Database.setLock, Function.update_of_ne hj] using ht
      rcases h.expired j t ht' with ⟨old, hold, rfl⟩ | hle
      · by_cases hkey : (d.space old.owner).lockId = (d.space i).lockId
        · -- The lock changes hands: its lease had run out.
          right
          have hspace := MigrationNamespace.lockId_injective hkey
          obtain ⟨t', ht'', huntil⟩ := (h.owner _ old hold).2
          have hout := (hfree old (hspace ▸ hold)).resolve_left hj
          obtain rfl := Option.some.inj (ht'.symm.trans ht'')
          rwa [huntil] at hout
        · left
          refine ⟨old, ?_, rfl⟩
          simpa [Database.lock, Database.setLock, Function.update_of_ne hkey] using hold
      · exact .inr hle

theorem execute (h : Leased d b) (i : Nat) (statement : Statement) :
    Leased d (b.execute d i statement).1 := by
  fun_cases b.execute d i statement with
  | case1 hcan =>
    refine h.setLock (fun old hold => ?_) (by simp)
    simpa [canAcquire, hold, or_comm] using hcan
  | case3 lease hlease howner | case6 lease hlease howner =>
    exact h.setLock (by simp [hlease, howner]) (by simp)
  | case14 => exact ⟨h.owner, h.past, h.expired⟩
  | _ => exact h

theorem holds_iff (h : Leased d b) (i : Nat) : b.Holds d i ↔ b.Renewed i := by
  constructor
  · rintro ⟨lease, hlease, rfl, hnow⟩
    obtain ⟨t, ht, huntil⟩ := (h.owner _ lease hlease).2
    exact ⟨t, ht, huntil ▸ hnow⟩
  · rintro ⟨t, ht, hnow⟩
    obtain ⟨lease, hlease, rfl⟩ := (h.expired i t ht).resolve_right (by omega)
    obtain ⟨t', ht', huntil⟩ := (h.owner _ lease hlease).2
    obtain rfl := Option.some.inj (ht.symm.trans ht')
    exact ⟨lease, hlease, rfl, huntil ▸ hnow⟩

end Leased

end Database

/-- Time and statements keep every lease with the one who renewed it last. -/
theorem act_leased {s : State} (h : s.database.Leased d) (event : Event) :
    (act d event s).1.database.Leased d := by
  rcases act_database d event s with heq | ⟨millis, heq⟩ | ⟨i, statement, -, heq⟩ <;> rw [heq]
  · exact h
  · exact h.tick millis
  · exact h.execute i statement

/-! ## Fencing -/

variable (s : State) (event : Event)

def State.begins : Event → Option (Nat × MongoMigration)
  | .reply i =>
    match (s.runners i).phase.statement with
    | some (.beginStep migration _) => some (i, migration)
    | _ => none
  | _ => none

/-- A step of the version has begun and not ended, though its runner may have stopped waiting. -/
def State.Running (i : Nat) (version : Int) : Prop :=
  ∃ migration step, migration.version = version ∧
    ((s.runners i).phase.statement = some (.endStep migration step) ∨
      (i, .endStep migration step) ∈ s.orphans)

/-- What the comments of the source ask for: a runner begins a step or writes a row only while it
holds the lease, and no other runner of the namespace is still in a step of that version. -/
def Fenced : Prop :=
  (∀ i migration, s.begins event = some (i, migration) → s.database.Holds d i ∧
    ∀ j, j ≠ i → d.space j = d.space i → ¬s.Running j migration.version) ∧
  ∀ i migration, .recorded i migration ∈ (act d event s).2 → s.database.Holds d i

/-- The time since the last renewal is less than the lease: of the runner that begins a step or
writes a row, and of all that are in a step of the version. -/
def InTime : Prop :=
  (∀ i migration, s.begins event = some (i, migration) → s.database.Renewed i ∧
    ∀ j, d.space j = d.space i → s.Running j migration.version → s.database.Renewed j) ∧
  ∀ i migration, .recorded i migration ∈ (act d event s).2 → s.database.Renewed i

theorem fenced_iff_inTime {s : State} (h : s.database.Leased d) (event : Event) :
    Fenced d s event ↔ InTime d s event := by
  simp only [Fenced, InTime, h.holds_iff]
  refine and_congr_left fun _ => ?_
  constructor
  · intro hfenced i migration hbegins
    obtain ⟨hrenewed, hothers⟩ := hfenced i migration hbegins
    refine ⟨hrenewed, fun j hspace hrunning => ?_⟩
    by_cases hj : j = i
    · exact hj ▸ hrenewed
    · exact absurd hrunning (hothers j hj hspace)
  · intro hinTime i migration hbegins
    obtain ⟨hrenewed, hothers⟩ := hinTime i migration hbegins
    refine ⟨hrenewed, fun j hj hspace hrunning => hj ?_⟩
    -- Two runners of one namespace that are both in time are one.
    exact ((h.holds_iff i).mpr hrenewed).unique ((h.holds_iff j).mpr (hothers j hspace hrunning))
      hspace

/-- In every run at most one runner of a namespace holds an unexpired lease at any moment, and the
steps and rows of the run are fenced exactly if each comes in time. -/
theorem fenced_iff_renewed_in_time (d : Deployment) (events : List Event) :
    (∀ i j, d.space j = d.space i → ((system d).run ({}, []) events).1.database.Holds d i →
      ((system d).run ({}, []) events).1.database.Holds d j → j = i) ∧
    ((system d).Meets (Fenced d) {} events ↔ (system d).Meets (InTime d) {} events) := by
  refine ⟨fun i j hspace hi hj => hi.unique hj hspace, ?_⟩
  exact (system d).meets_congr (P := fun s => s.database.Leased d)
    (fun s event hs => act_leased d hs event) (fun s event hs => fenced_iff_inTime d hs event)
    Database.Leased.init events

def users : MongoMigration := ⟨1, "users", [.ensureCollection "users"]⟩

def sample : Deployment where
  plan
    | .legacyApplication => [users]
    | .component _ => []
  valid
    | .legacyApplication => by decide
    | .component _ => rfl
  space _ := .legacyApplication
  checksum _ := some "digest"

/-- Runner 0 has run its step and renewed the lease. Before its row reaches the server, the lease
runs out and runner 1 takes it. -/
def overtaken : List Event :=
  [.start 0, .reply 0, .reply 0, .reply 0, .reply 0, .reply 0, .reply 0, .reply 0, .tick 360000,
    .start 1, .reply 1]

theorem row_written_after_takeover :
    .recorded 0 users ∈ (act sample (.reply 0) ((system sample).run ({}, []) overtaken).1).2 ∧
      ((system sample).run ({}, []) overtaken).1.database.Holds sample 1 ∧
      ¬((system sample).run ({}, []) overtaken).1.database.Holds sample 0 := by
  have hlock : ((system sample).run ({}, []) overtaken).1.database.lock .legacyApplication =
      some ⟨1, 720000⟩ := by rfl
  refine ⟨by decide, ⟨_, hlock, rfl, by decide⟩, ?_⟩
  rintro ⟨lease, hlease, howner, -⟩
  obtain rfl := Option.some.inj (hlock.symm.trans hlease)
  exact absurd howner (by decide)

end Lily.Mongodb.Migration
