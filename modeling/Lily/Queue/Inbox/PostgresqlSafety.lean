import Lily.Queue.Inbox.Postgresql

/-!
# Each event is applied once, and reported as it was

Every move of every execution is a step of the transactions of `Once`, made by the
execution's own transaction. What an execution holds at each point of its way is a fact
about that transaction alone.
-/

namespace Lily.Queue.Inbox.Postgresql

open Once InboxRow Transition
open Outbox (Uuid TransactionalInboxConfig)

variable {ω : Type} {config : TransactionalInboxConfig} {advisoryKey : InboxKey → Int}

/-! ## What an execution holds -/

variable (key : InboxKey) (execution : TransactionalExecution)

/-- A transaction that is ready to report an execution. -/
def Ready (tx : Tx ω) : Prop :=
  match execution with
  | .applied => ∃ row, tx.doc = some row ∧ row.finished = true
  | .alreadyCompleted | .inProgress => tx.doc = none

def Holds (token : Uuid) (server : Server ω) : Phase → Prop
  | .idle => token ∉ server.begun
  | .opened key _ | .locked key _ => server.live token = some ⟨key, none, [], false⟩
  | .body key _ _ | .completing key _ _ => ∃ tx, server.live token = some tx ∧ tx.key = key ∧
      tx.doc ≠ none ∧ tx.requested = false
  | .finalizing key execution => ∃ tx, server.live token = some tx ∧ tx.key = key ∧
      tx.requested = false ∧ Ready execution tx
  | .committing key execution => ∃ tx, server.live token = some tx ∧ tx.key = key ∧
      tx.requested = true ∧ Ready execution tx
  | .abandoned | .done => True

/-- The moves of others do not change what an execution holds. -/
theorem Holds.of_steps {token other : Uuid} {server server' : Server ω}
    {marks : List (Once.Mark InboxKey Uuid (Effect ω))} {phase : Phase}
    (h : Holds token server phase)
    (hsteps : Once.Steps finished other server marks server') (hne : token ≠ other) :
    Holds token server' phase := by
  have hlive := hsteps.live_of_ne hne
  have hbegun := hsteps.begun_of_ne hne
  cases phase with
  | abandoned | done => trivial
  | _ => simpa only [Holds, hlive, hbegun] using h

def Phase.Ended : Phase → Prop
  | .abandoned | .done => True
  | _ => False

/-- An execution that is about to report that somebody else holds the delivery, or has. -/
def Phase.Turned : Phase → Prop
  | .finalizing _ .inProgress | .committing _ .inProgress | .abandoned | .done => True
  | _ => False

def Phase.Reports : Phase → Prop
  | .finalizing k e | .committing k e => k = key ∧ e = execution
  | _ => False

/-- A transaction with nothing to commit. -/
def Barren (token : Uuid) (server : Server ω) : Prop :=
  ∀ tx, server.live token = some tx → tx.doc = none

/-- One move, as its own execution sees it. -/
structure Good (token : Uuid) (database : Database ω) (phase : Phase)
    (turn : Turn (Database ω) Phase (Entry ω)) : Prop where
  steps : Once.Steps finished token database.server
    (turn.emitted.filterMap Once.Entry.mark?) turn.shared.server
  holds : Holds token turn.shared.server turn.own
  found : ∀ key, turn.own.Reports key .alreadyCompleted → phase.Reports key .alreadyCompleted ∨
    database.server.done finished key = true
  returned : ∀ key execution, .noted (.returned key (.ok execution)) ∈ turn.emitted →
    phase.Reports key execution ∧ ∃ marks : List (Once.Mark InboxKey Uuid (Effect ω)),
      turn.emitted = marks.map .marked ++ [.noted (.returned key (.ok execution))] ∧
        (execution = .applied → .committed token key ∈ marks)
  closed : ∀ key result, .noted (.returned key result) ∈ turn.emitted →
    turn.own.Ended ∧ ¬ phase.Ended
  ended : phase.Ended → turn.own.Ended
  refused : .noted .refused ∈ turn.emitted → turn.own.Turned ∧ ¬ phase.Ended ∧
    turn.emitted = [.noted .refused] ∧
      ∃ tx, turn.shared.server.live token = some tx ∧ tx.doc = none
  turned : phase.Turned → Barren token database.server → turn.own.Turned ∧
    Barren token turn.shared.server ∧
      ∀ key, .committed token key ∉ turn.emitted.filterMap Once.Entry.mark?

section Moves

variable {token : Uuid} {database : Database ω} {phase phase' : Phase} {key : InboxKey}
  {began : Nat} {tx : Tx ω}

variable {database' : Database ω} (marks : List (Once.Mark InboxKey Uuid (Effect ω)))

/-- A move that leaves the transaction as it is, and reports nothing new. -/
theorem Good.quiet (hserver : database'.server = database.server)
    (holds : Holds token database.server phase')
    (found : ∀ key, phase'.Reports key .alreadyCompleted →
      phase.Reports key .alreadyCompleted ∨ database.server.done finished key = true)
    (ended : phase.Ended → phase'.Ended) (turned : phase.Turned → phase'.Turned) :
    Good token database phase ⟨database', phase', []⟩ where
  steps := hserver ▸ .refl _
  holds := hserver ▸ holds
  found := found
  returned := by simp
  closed := by simp
  ended := ended
  refused := by simp
  turned hturned hbarren := ⟨turned hturned, hserver ▸ hbarren, by simp⟩

theorem Good.stay (hserver : database'.server = database.server)
    (holds : Holds token database.server phase) :
    Good token database phase ⟨database', phase, []⟩ :=
  .quiet hserver holds (fun _ => .inl) id id

/-- A step of the transaction on the way to its commit. -/
theorem Good.progress (step : Once.Step finished token database.server marks database'.server)
    (holds : Holds token database'.server phase')
    (found : ∀ key, ¬ phase'.Reports key .alreadyCompleted)
    (open' : ¬ phase.Ended) (unturned : ¬ phase.Turned) :
    Good token database phase ⟨database', phase', marks.map .marked⟩ where
  steps := by simpa only [filterMap_marked] using step.steps
  holds := holds
  found key h := absurd h (found key)
  returned := by simp
  closed := by simp
  ended h := absurd h open'
  refused := by simp
  turned h := absurd h unturned

theorem barren_release (server : Server ω) : Barren token (server.release token) := by
  intro tx hlive
  simp at hlive

theorem good_failed (hopen : ¬ phase.Ended) (error : QueueHandlerError) :
    Good token database phase (failed database token key error) where
  steps := Once.Step.rollback.steps
  holds := trivial
  found _ h := h.elim
  returned := by simp [failed]
  closed _ _ _ := ⟨trivial, hopen⟩
  ended _ := trivial
  refused := by simp [failed]
  turned _ _ := ⟨trivial, barren_release _, by simp [failed, Once.Entry.mark?]⟩

/-- A delivery that is turned away before it has a transaction. -/
theorem good_rejected (error : QueueHandlerError) :
    Good token database .idle ⟨database, .done, [.noted (.returned key (.error error))]⟩ where
  steps := .refl _
  holds := trivial
  found _ h := h.elim
  returned := by simp
  closed _ _ _ := ⟨trivial, id⟩
  ended h := h.elim
  refused := by simp
  turned h := h.elim

theorem good_start (h : Holds token database.server .idle) (key : InboxKey) (admitted : Bool) :
    Good token database .idle (start token key admitted database) := by
  simp only [start]
  split_ifs
  · exact good_rejected _
  · exact good_rejected _
  · exact .progress [] (.begin key h) (Once.Server.live_begin ..) (fun _ => id)
      id id

theorem good_tryLock (h : Holds token database.server (.opened key began)) :
    Good token database (.opened key began) (tryLock advisoryKey token key began database) := by
  simp only [tryLock]
  split
  · exact .quiet rfl h (fun _ => False.elim) id id
  · refine ⟨.refl _, ⟨_, h, rfl, rfl, rfl⟩, ?_, by simp, by simp, id, fun _ => ?_, False.elim⟩
    · rintro key ⟨-, hreport⟩
      cases hreport
    · exact ⟨trivial, id, rfl, _, h, rfl⟩

theorem good_claim (h : Holds token database.server (.locked key began))
    (hlive : database.server.live token = some tx) :
    Good token database (.locked key began) (claim config token key began tx database) := by
  obtain rfl : ⟨key, none, [], false⟩ = tx := Option.some.inj (h.symm.trans hlive)
  simp only [claim]
  split_ifs with htimeout hwriter
  · exact good_failed id _
  · exact .stay rfl h
  · have hfree : database.server.writer key = none := by simpa using hwriter
    cases hrow : claimedRow config token began (database.server.docs key) with
    | some row =>
      -- Only a missing row or one in processing is claimed.
      have hunfinished : database.server.done finished key = false := by
        cases hdoc : database.server.docs key with
        | none => simp [Once.Server.done, hdoc]
        | some old =>
          rw [hdoc] at hrow
          by_cases hold : old.state = .processing ∧ old.lockedUntil ≤ began
          · simp [Once.Server.done, hdoc, finished, hold.1]
          · simp [claimedRow, hold] at hrow
      exact .progress [] (.claim row hlive rfl hfree hunfinished)
        ⟨_, Once.Server.live_write .., rfl, by simp, rfl⟩ (fun _ => id) id id
    | none =>
      refine .quiet rfl ⟨_, h, rfl, rfl, ?_⟩ ?_ id False.elim
      · cases hdoc : database.server.docs key with
        | none => rfl
        | some row =>
          simp only [unclaimed]
          split_ifs <;> rfl
      · rintro k ⟨rfl, hreport⟩
        right
        cases hdoc : database.server.docs key with
        | none => simp [unclaimed, hdoc] at hreport
        | some row =>
          by_cases hrow : row.state = .completed
          · simp [Once.Server.done, hdoc, finished, hrow]
          · simp [unclaimed, hdoc, hrow] at hreport

theorem good_perform {aborted : Bool} (h : Holds token database.server (.body key began aborted))
    (hlive : database.server.live token = some tx) (effect : Effect ω) :
    Good token database (.body key began aborted)
      (perform token aborted effect tx (.body key began aborted) database) := by
  obtain ⟨tx', hlive', hkey, hdoc, hrequested⟩ := h
  obtain rfl : tx' = tx := Option.some.inj (hlive'.symm.trans hlive)
  simp only [perform]
  split_ifs
  · exact .stay rfl ⟨tx', hlive', hkey, hdoc, hrequested⟩
  · exact .progress [.performed token effect] (.perform effect hlive hrequested hdoc)
      ⟨_, Once.Server.live_perform .., hkey, hdoc, hrequested⟩ (fun _ => id) id id

theorem good_complete {aborted : Bool}
    (h : Holds token database.server (.completing key began aborted))
    (hlive : database.server.live token = some tx) :
    Good token database (.completing key began aborted)
      (complete token key began aborted tx database) := by
  obtain ⟨tx', hlive', hkey, hdoc, hrequested⟩ := h
  obtain rfl : tx' = tx := Option.some.inj (hlive'.symm.trans hlive)
  simp only [complete]
  split
  · split_ifs
    · refine .progress [] (.amend _ hlive hrequested hdoc)
        ⟨_, Once.Server.live_write .., hkey, hrequested, _, rfl, rfl⟩ ?_ id id
      rintro key ⟨-, hreport⟩
      cases hreport
    · exact good_failed id _
  · exact good_failed id _

theorem good_finalize {execution : TransactionalExecution}
    (h : Holds token database.server (.finalizing key execution))
    (hlive : database.server.live token = some tx) :
    Good token database (.finalizing key execution)
      ⟨{ database with server := database.server.request token tx }, .committing key execution,
        []⟩ := by
  obtain ⟨tx', hlive', hkey, hrequested, hready⟩ := h
  obtain rfl : tx' = tx := Option.some.inj (hlive'.symm.trans hlive)
  have hfinished : ∀ row ∈ tx'.doc, row.finished = true := by
    intro row hrow
    cases execution with
    | applied =>
      obtain ⟨found, hfound, hfinished⟩ := hready
      obtain rfl : found = row := Option.some.inj (hfound.symm.trans hrow)
      exact hfinished
    | alreadyCompleted | inProgress => cases hready.symm.trans hrow
  refine ⟨(Once.Step.request hlive hfinished).steps,
    ⟨_, Once.Server.live_request .., hkey, rfl, hready⟩, fun _ => .inl, by simp, by simp, id,
    by simp, fun hturned hempty => ⟨?_, fun tx htx => ?_, by simp⟩⟩
  · cases execution <;> exact hturned
  · obtain rfl : { tx' with requested := true } = tx := by simpa using htx
    exact hempty tx' hlive

/-- A transaction without a document leaves no mark. -/
theorem marks_of_barren (h : tx.doc = none) : tx.marks token = [] := by
  simp [Once.Tx.marks, h]

theorem barren_commit (server : Server ω) : Barren token (server.commit token tx) := by
  intro tx hlive
  simp at hlive

theorem good_committed (hlive : database.server.live token = some tx)
    (hrequested : tx.requested = true) (hopen : ¬ phase.Ended)
    (result : Except QueueHandlerError TransactionalExecution)
    (hresult : ∀ execution, result = .ok execution → phase.Reports key execution ∧
      (execution = .applied → .committed token key ∈ tx.marks token)) :
    Good token database phase ⟨database.commit token tx, .done,
      (tx.marks token).map .marked ++ [.noted (.returned key result)]⟩ where
  steps := by
    rw [filterMap_marked_noted]
    exact (Once.Step.commit hlive hrequested).steps
  holds := trivial
  found _ := False.elim
  returned k execution hmem := by
    obtain ⟨rfl, rfl⟩ : k = key ∧ .ok execution = result := by simpa using hmem
    exact ⟨(hresult execution rfl).1, tx.marks token, rfl, (hresult execution rfl).2⟩
  closed _ _ _ := ⟨trivial, hopen⟩
  ended _ := trivial
  refused := by simp
  turned _ hempty := ⟨trivial, barren_commit _, by
    rw [filterMap_marked_noted]
    simp [marks_of_barren (hempty tx hlive)]⟩

theorem good_commit {execution : TransactionalExecution}
    (h : Holds token database.server (.committing key execution))
    (hlive : database.server.live token = some tx) (answer : CommitAnswer) :
    Good token database (.committing key execution)
      (commit token key execution tx answer database) := by
  obtain ⟨tx', hlive', hkey, hrequested, hready⟩ := h
  obtain rfl : tx' = tx := Option.some.inj (hlive'.symm.trans hlive)
  cases answer with
  | failed => exact good_failed id _
  | acknowledged =>
    refine good_committed hlive hrequested id (.ok execution) fun e he => ?_
    obtain rfl : e = execution := by simpa using he.symm
    refine ⟨⟨rfl, rfl⟩, ?_⟩
    rintro rfl
    obtain ⟨row, hdoc, -⟩ := hready
    simp [Once.Tx.marks, hdoc, hkey]
  | lost =>
    exact good_committed hlive hrequested id (.error storageFailed) fun e he => by simp at he

theorem good_reap (hlive : database.server.live token = some tx) (commits : Bool) :
    Good token database .abandoned (reap token commits tx database) := by
  simp only [reap]
  split_ifs with hcommits
  · have hrequested : tx.requested = true := (Bool.and_eq_true_iff.mp hcommits).2
    refine ⟨?_, trivial, fun _ => False.elim, by simp, by simp, fun _ => trivial, by simp,
      fun _ hempty => ⟨trivial, barren_commit _, ?_⟩⟩
    · rw [filterMap_marked]
      exact (Once.Step.commit hlive hrequested).steps
    · simp [marks_of_barren (hempty tx hlive)]
  · exact ⟨Once.Step.rollback.steps, trivial, fun _ => False.elim, by simp, by simp,
      fun _ => trivial, by simp, fun _ _ => ⟨trivial, barren_release _, by simp⟩⟩

/-- Cleanup removes finished rows, and touches nothing else. -/
theorem cleanup_steps (config : TransactionalInboxConfig) (token : Uuid) (keys : List InboxKey)
    (database : Database ω) :
    ∃ marks : List (Once.Mark InboxKey Uuid (Effect ω)),
      (cleanup config database keys).2 = marks.map .marked ∧
      Once.Steps finished token database.server marks
        (cleanup config database keys).1.server ∧
      (cleanup config database keys).1.server.live = database.server.live ∧
      (cleanup config database keys).1.server.begun = database.server.begun ∧
      ∀ t key, .committed t key ∉ marks := by
  induction keys generalizing database with
  | nil => exact ⟨[], rfl, .refl _, rfl, rfl, by simp⟩
  | cons key keys ih =>
    by_cases hexpired : expired config database key = true
    · obtain ⟨marks, hmarks, hsteps, hlive, hbegun, hnone⟩ :=
        ih { database with server := database.server.remove key }
      have hdone : database.server.done finished key = true := by
        cases hdoc : database.server.docs key with
        | none => simp [expired, hdoc] at hexpired
        | some row =>
          simp only [expired, hdoc, Option.any_some, Bool.and_eq_true] at hexpired
          simp [Once.Server.done, hdoc, hexpired.1]
      simp only [cleanup, hexpired, if_true]
      exact ⟨.removed key :: marks, by rw [hmarks, List.map_cons],
        .head (.remove key hdone) hsteps, hlive, hbegun, by simpa using hnone⟩
    · simpa [cleanup, hexpired] using ih database

theorem good_cleanup (h : Holds token database.server phase) (keys : List InboxKey) :
    Good token database phase
      ⟨(cleanup config database keys).1, phase, (cleanup config database keys).2⟩ := by
  obtain ⟨marks, hmarks, hsteps, hlive, hbegun, hnone⟩ :=
    cleanup_steps config token keys database
  have hbarren : Barren token database.server →
      Barren token (cleanup config database keys).1.server := by
    intro hempty tx htx
    exact hempty tx (by rwa [hlive] at htx)
  refine ⟨?_, ?_, fun _ => .inl, by simp [hmarks], by simp [hmarks], id, by simp [hmarks],
    fun hturned hempty => ⟨hturned, hbarren hempty, ?_⟩⟩
  · simpa only [hmarks, filterMap_marked] using hsteps
  · cases phase with
    | abandoned | done => trivial
    | _ => simpa only [Holds, hlive, hbegun] using h
  · simpa only [hmarks, filterMap_marked] using hnone token

theorem good_interrupted {key : InboxKey} (hkey : phase.key = some key)
    (interruption : Interruption) :
    Good token database phase ⟨database, .abandoned, interruption.entries key⟩ := by
  have hopen : ¬ phase.Ended := by
    cases phase <;> simp_all [Phase.key, Phase.Ended]
  cases interruption <;>
    exact ⟨.refl _, trivial, fun _ => False.elim, by simp [Interruption.entries],
      fun _ _ _ => ⟨trivial, hopen⟩, fun _ => trivial, by simp [Interruption.entries],
      fun _ hempty => ⟨trivial, hempty, by simp [Interruption.entries]⟩⟩

/-- Every move is good for its own execution. -/
theorem act_good (config : TransactionalInboxConfig) (advisoryKey : InboxKey → Int) (token : Uuid)
    (event : Event ω) (database : Database ω) (phase : Phase)
    (h : Holds token database.server phase) :
    Good token database phase (act config advisoryKey token event database phase) := by
  fun_cases act config advisoryKey token event database phase with
  | case1 millis | case8 | case16 | case18 => exact .stay rfl h
  | case2 keys result => exact good_cleanup h _
  | case3 key admitted => exact good_start h key admitted
  | case4 key began => exact good_tryLock h
  | case5 key began tx hlive => exact good_claim h hlive
  | case6 write key began aborted tx hlive => exact good_perform h hlive _
  | case7 recordId message key began aborted tx hlive effect => exact good_perform h hlive _
  | case9 key began aborted | case10 key began aborted =>
    exact .quiet rfl h (fun _ => False.elim) id id
  | case11 error key began aborted => exact good_failed id _
  | case12 key began aborted tx hlive => exact good_complete h hlive
  | case13 key execution tx hlive => exact good_finalize h hlive
  | case14 answer key execution tx hlive => exact good_commit h hlive answer
  | case15 => exact good_interrupted ‹_› _
  | case17 commits tx hlive => exact good_reap hlive commits

end Moves

/-! ## All executions -/

/-- What a result needs to have happened before. -/
def Justified (token : Uuid) (key : InboxKey) (marks : List (Once.Mark InboxKey Uuid (Effect ω))) :
    TransactionalExecution → Prop
  | .applied => .committed token key ∈ marks
  | .alreadyCompleted => ∃ t, .committed t key ∈ marks
  | .inProgress => True

abbrev Executions (ω : Type) := World Uuid (Database ω) Phase (Entry ω)

/-- One execution among the others. -/
structure Client (token : Uuid) (server : Server ω) (phase : Phase) (log : List (Uuid × Entry ω)) :
    Prop where
  holds : Holds token server phase
  found : ∀ key, phase.Reports key .alreadyCompleted → ∃ t, .committed t key ∈ marksOf log
  ended : ∀ key result, (token, .noted (.returned key result)) ∈ log → phase.Ended
  refused : (token, .noted .refused) ∈ log → phase.Turned ∧ Barren token server ∧
    ¬ Once.Committed token (marksOf log) ∧
      ∀ key execution, (token, .noted (.returned key (.ok execution))) ∈ log →
        execution = .inProgress

/-- The invariant of all runs. -/
structure Sound (world : Executions ω) : Prop where
  server : Once.Sound finished world.shared.server (marksOf world.log)
  client : ∀ token, Client token world.shared.server (world.locals token) world.log
  justified : ∀ before token key execution after,
    world.log = before ++ (token, .noted (.returned key (.ok execution))) :: after →
      Justified token key (marksOf before) execution

theorem sound_initial (processing : InboxKey → Option (Uuid × Nat)) :
    Sound (initial (ω := ω) processing) where
  server := .initial _ fun key => by
    cases processing key <;> simp [finished]
  client token := ⟨by simp [initial, Holds], fun _ => False.elim, by simp [initial],
    by simp [initial]⟩
  justified := by simp [initial]

theorem Phase.Turned.reports {phase : Phase} {key : InboxKey} {execution : TransactionalExecution}
    (h : phase.Turned) (hreports : phase.Reports key execution) : execution = .inProgress := by
  cases phase with
  | finalizing k e | committing k e =>
    obtain ⟨rfl, rfl⟩ := hreports
    cases e <;> first | rfl | exact h.elim
  | _ => exact hreports.elim

section Step

variable {token other : Uuid} {database : Database ω} {phase phase' : Phase}
  {log : List (Uuid × Entry ω)} {turn : Turn (Database ω) Phase (Entry ω)}

/-- The execution that moves. -/
theorem Client.own (h : Client token database.server phase log)
    (hgood : Good token database phase turn)
    (hbefore : Once.Sound finished database.server (marksOf log))
    (hafter : Once.Sound finished turn.shared.server
      (marksOf (log ++ turn.emitted.map (Prod.mk token)))) :
    Client token turn.shared.server turn.own (log ++ turn.emitted.map (Prod.mk token)) := by
  refine ⟨hgood.holds, fun key hreports => ?_, fun key result hmem => ?_, fun hmem => ?_⟩
  · have hcommitted : ∃ t, .committed t key ∈ marksOf log := by
      rcases hgood.found key hreports with hold | hdone
      · exact h.found key hold
      · exact exists_committed (hbefore.done key ▸ hdone)
    obtain ⟨t, ht⟩ := hcommitted
    exact ⟨t, by rw [marksOf_move]; exact List.mem_append_left _ ht⟩
  · rcases mem_move.mp hmem with hold | ⟨-, hnew⟩
    · exact hgood.ended (h.ended key result hold)
    · exact (hgood.closed key result hnew).1
  · rcases mem_move.mp hmem with hold | ⟨-, hnew⟩
    · obtain ⟨hturned, hbarren, huncommitted, hresults⟩ := h.refused hold
      obtain ⟨hturned', hbarren', hsilent⟩ := hgood.turned hturned hbarren
      refine ⟨hturned', hbarren', ?_, fun key execution hreturned => ?_⟩
      · rintro ⟨key, hkey⟩
        rw [marksOf_move] at hkey
        rcases List.mem_append.mp hkey with hkey | hkey
        · exact huncommitted ⟨key, hkey⟩
        · exact hsilent key hkey
      · rcases mem_move.mp hreturned with hreturned | ⟨-, hreturned⟩
        · exact hresults key execution hreturned
        · exact hturned.reports (hgood.returned key execution hreturned).1
    · obtain ⟨hturned, hopen, honly, tx, hlive, hdoc⟩ := hgood.refused hnew
      refine ⟨hturned, fun tx' hlive' => ?_, (hafter.live token tx hlive).uncommitted,
        fun key execution hreturned => ?_⟩
      · obtain rfl : tx = tx' := Option.some.inj (hlive.symm.trans hlive')
        exact hdoc
      · rcases mem_move.mp hreturned with hreturned | ⟨-, hreturned⟩
        · exact absurd (h.ended key _ hreturned) hopen
        · simp [honly] at hreturned

/-- The executions that do not move. -/
theorem Client.frame (h : Client other database.server phase log)
    (hgood : Good token database phase' turn) (hne : other ≠ token) :
    Client other turn.shared.server phase (log ++ turn.emitted.map (Prod.mk token)) := by
  have hsame : ∀ entry, (other, entry) ∈ log ++ turn.emitted.map (Prod.mk token) →
      (other, entry) ∈ log := by
    intro entry hmem
    rcases mem_move.mp hmem with hold | ⟨heq, -⟩
    · exact hold
    · exact absurd heq hne
  refine ⟨h.holds.of_steps hgood.steps hne, fun key hreports => ?_, fun key result hmem => ?_,
    fun hmem => ?_⟩
  · obtain ⟨t, ht⟩ := h.found key hreports
    exact ⟨t, by rw [marksOf_move]; exact List.mem_append_left _ ht⟩
  · exact h.ended key result (hsame _ hmem)
  · obtain ⟨hturned, hbarren, huncommitted, hresults⟩ := h.refused (hsame _ hmem)
    refine ⟨hturned, fun tx htx => ?_, ?_, fun key execution hreturned =>
      hresults key execution (hsame _ hreturned)⟩
    · exact hbarren tx (by rwa [hgood.steps.live_of_ne hne] at htx)
    · rintro ⟨key, hkey⟩
      rw [marksOf_move] at hkey
      rcases List.mem_append.mp hkey with hkey | hkey
      · exact huncommitted ⟨key, hkey⟩
      · exact hne (hgood.steps.actor hkey)

/-- A result that is returned by this move. -/
theorem Client.justified (h : Client token database.server phase log)
    (hgood : Good token database phase turn) {key : InboxKey}
    {execution : TransactionalExecution} {middle after : List (Uuid × Entry ω)}
    (hsplit : turn.emitted.map (Prod.mk token) =
      middle ++ (other, .noted (.returned key (.ok execution))) :: after) :
    Justified other key (marksOf (log ++ middle)) execution := by
  obtain ⟨middle', rest, hemitted, rfl, hrest⟩ := List.map_eq_append_iff.mp hsplit
  obtain ⟨entry, after', rfl, hentry, -⟩ := List.map_eq_cons_iff.mp hrest
  obtain ⟨rfl, rfl⟩ := Prod.mk.inj hentry
  obtain ⟨hreports, marks, honly, happlied⟩ := hgood.returned key execution (by simp [hemitted])
  have hmiddle : middle' = marks.map .marked := by
    rcases Position.concat_split (honly.symm.trans hemitted) with ⟨rest, hmarks, -⟩ | ⟨heq, -⟩
    · have hmem : Once.Entry.noted (Note.returned key (.ok execution)) ∈ marks.map .marked := by
        rw [hmarks]
        simp
      simp at hmem
    · exact heq
  rw [marksOf_move, hmiddle, filterMap_marked]
  cases execution with
  | applied => exact List.mem_append_right _ (happlied rfl)
  | alreadyCompleted =>
    obtain ⟨t, ht⟩ := h.found key hreports
    exact ⟨t, List.mem_append_left _ ht⟩
  | inProgress => trivial

end Step

/-- A move keeps the server sound and every client in its place. -/
theorem sound_step (world : Executions ω) (token : Uuid) (event : Event ω) (h : Sound world) :
    Sound ((executions config advisoryKey).step world (token, event)) := by
  have hgood := act_good config advisoryKey token event world.shared (world.locals token)
    (h.client token).holds
  have hserver : Once.Sound finished
      ((executions config advisoryKey).step world (token, event)).shared.server
      (marksOf ((executions config advisoryKey).step world (token, event)).log) := by
    rw [Machine.step_shared, Machine.step_log, marksOf_move]
    exact h.server.steps hgood.steps
  refine ⟨hserver, fun other => ?_, fun before other key execution after hsplit => ?_⟩
  · exact Machine.step_each _ other (I := fun other phase _ => Client other _ phase _)
      ((h.client token).own hgood h.server hserver)
      fun other hother => (h.client other).frame hgood hother
  · rw [Machine.step_log] at hsplit
    rcases Position.append_split hsplit with ⟨rest, hlog⟩ | ⟨middle, rfl, hemitted⟩
    · exact h.justified before other key execution rest hlog
    · exact (h.client token).justified hgood hemitted

theorem sound_run (config : TransactionalInboxConfig) (advisoryKey : InboxKey → Int)
    (processing : InboxKey → Option (Uuid × Nat)) (moves : List (Uuid × Event ω)) :
    Sound ((executions config advisoryKey).run (initial processing) moves) :=
  (executions config advisoryKey).run_induct (sound_initial processing) sound_step moves

/-- Every delivery is applied once, together with all its writes, and reported as it was. -/
theorem deliveries_once (config : TransactionalInboxConfig) (advisoryKey : InboxKey → Int)
    (processing : InboxKey → Option (Uuid × Nat)) (moves : List (Uuid × Event ω)) :
    let world := (executions config advisoryKey).run (initial processing) moves
    -- Between two commits for one delivery its row was cleaned up.
    (∀ before middle after i j t u key,
      world.log = before ++ (i, .marked (.committed t key)) ::
        (middle ++ (j, .marked (.committed u key)) :: after) →
      ∃ k, (k, .marked (.removed key)) ∈ middle) ∧
    -- Until then the row is completed.
    (∀ before after i t key, world.log = before ++ (i, .marked (.committed t key)) :: after →
      (∀ k, (k, .marked (.removed key)) ∉ after) →
      ∃ row, world.shared.server.docs key = some row ∧ row.state = .completed) ∧
    -- The writes and outbox rows of an execution are committed as a whole, or not at all.
    (∀ token,
      ((∃ i key, (i, .marked (.committed token key)) ∈ world.log) →
        world.shared.server.effectsOf token = performed token (marksOf world.log)) ∧
      ((∀ i key, (i, .marked (.committed token key)) ∉ world.log) →
        world.shared.server.effectsOf token = [])) ∧
    -- `Applied` is returned by an execution that committed.
    (∀ before token key after,
      world.log = before ++ (token, .noted (.returned key (.ok .applied))) :: after →
      ∃ i, (i, .marked (.committed token key)) ∈ before) ∧
    -- `AlreadyCompleted` is returned if some execution committed.
    (∀ before token key after,
      world.log = before ++ (token, .noted (.returned key (.ok .alreadyCompleted))) :: after →
      ∃ i t, (i, .marked (.committed t key)) ∈ before) ∧
    -- Whoever finds the advisory lock taken commits nothing and reports nothing as done.
    (∀ token, (token, .noted .refused) ∈ world.log →
      (∀ i key, (i, .marked (.committed token key)) ∉ world.log) ∧
      ∀ key execution, (token, .noted (.returned key (.ok execution))) ∈ world.log →
        execution = .inProgress) := by
  intro world
  have h : Sound world := sound_run config advisoryKey processing moves
  refine ⟨fun before middle after i j t u key => h.server.removed,
    fun before after i t key hsplit hkept => ?_, h.server.whole,
    fun before token key after hsplit => ?_, fun before token key after hsplit => ?_,
    fun token hrefused => ⟨fun i key hmem => ?_, ?_⟩⟩
  · obtain ⟨row, hrow, hfinished⟩ := h.server.kept hsplit hkept
    exact ⟨row, hrow, by simpa [finished] using hfinished⟩
  · exact mem_marksOf.mp (h.justified before token key .applied after hsplit)
  · obtain ⟨t, ht⟩ := h.justified before token key .alreadyCompleted after hsplit
    obtain ⟨i, hi⟩ := mem_marksOf.mp ht
    exact ⟨i, t, hi⟩
  · exact ((h.client token).refused hrefused).2.2.1 (committed_marksOf.mpr ⟨i, key, hmem⟩)
  · exact ((h.client token).refused hrefused).2.2.2

end Lily.Queue.Inbox.Postgresql
