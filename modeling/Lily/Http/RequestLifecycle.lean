import Lily.Http.MiddlewareLedger

/-!
# The end of a request

The owner of a request runs the job, finishes the response body and calls `close_scope`. After the
owner has ended, any number of shutdown waiters call `close_scope` again; the registry is sealed
before it is waited for, so none of them starts earlier. A call reads the evidence, takes the lock
on the resources, drops the request and the response, has the middleware ledger finalized, and
starts the close of the scope. Waiters may be dropped at every wait; the owner is not.
-/

namespace Lily.Http.RequestLifecycle

open Transition
open MiddlewareLedger (Ledger)

inductive Owner where
  | job | finishing | closing | ended
  deriving DecidableEq

/-- Where a call of `close_scope` is. -/
inductive Call where
  | idle | locking | releasing | finalizing | closing
  deriving DecidableEq

/-- What the owner of a request has created and not yet released. -/
structure State where
  ledger : Ledger := {}
  owner : Owner := .job
  executionCreated : Bool := false
  executionTerminal : Bool := false
  bodyCreated : Bool := false
  bodyTerminal : Bool := false
  resourceReleaseFailed : Bool := false
  /-- The request and the response are held. -/
  objects : Bool := false
  scopeCreated : Bool := false
  /-- The scope is held, so its close has not been started. -/
  scope : Bool := false
  holder : Option Nat := none
  calls : Nat → Call := fun _ => .idle
  helpers : Nat := 0
  inputs : Nat := 0
  inputFailed : Bool := false
  childrenSealed : Bool := false

inductive Action where
  | ledger (action : MiddlewareLedger.Action)
  | executionCreated
  | executionTerminated
  | bodyCreated
  | sourceReleased
  | objectsDropped
  | childrenTerminal
  | releasePanicked
  | closeStarted

inductive Event where
  | prepareScope
  | createExecution
  /-- A step of the middleware chain. -/
  | chain (event : MiddlewareLedger.Event)
  | endExecution (dropPanics : Bool)
  | createBody
  | spawnHelper
  | joinHelper
  | trackInput
  | dropInput (panics : Bool)
  | endJob (panics : Bool)
  | finishResponse (dropPanics : Bool)
  | closeScope (call : Nat)
  | lock (call : Nat)
  | release (call : Nat) (panics : Bool)
  | finalize (call : Nat)
  | poll (call : Nat) (answers : MiddlewareLedger.Answers)
  | finalized (call : Nat)
  | close (call : Nat)
  | dropWaiter (call : Nat)

def phaseOf (ledger : Ledger) : Option MiddlewareLedger.Phase := ledger.finalizer.map (·.phase)

namespace State

variable (call : Nat) (panics : Bool) (s : State)

/-- What `close_scope` reads first. -/
def permitted : Bool :=
  !s.resourceReleaseFailed && (!s.executionCreated || s.executionTerminal) &&
    (!s.bodyCreated || s.bodyTerminal)

/-- `HttpResourceSnapshot::terminal`. -/
def childrenTerminal : Bool := s.helpers == 0 && s.inputs == 0 && !s.inputFailed

theorem permitted_iff {s : State} : s.permitted = true ↔ s.resourceReleaseFailed = false ∧
    (s.executionCreated → s.executionTerminal) ∧ (s.bodyCreated → s.bodyTerminal) := by
  simp [permitted, and_assoc, ← Bool.not_eq_true, imp_iff_not_or]

theorem childrenTerminal_iff {s : State} :
    s.childrenTerminal = true ↔ s.helpers = 0 ∧ s.inputs = 0 ∧ s.inputFailed = false := by
  simp [childrenTerminal, and_assoc]

def executing : Bool :=
  s.owner == .job && s.executionCreated && !s.executionTerminal && s.ledger.running

def withLedger (result : Ledger × List MiddlewareLedger.Action) : State × List Action :=
  ({ s with ledger := result.1 }, result.2.map .ledger)

def prepareScope : State × List Action :=
  if s.owner = .job ∧ s.scopeCreated = false then
    ({ s with objects := true, scopeCreated := true, scope := true }, [])
  else (s, [])

def createExecution : State × List Action :=
  if s.owner = .job ∧ s.executionCreated = false then
    ({ s with executionCreated := true }, [.executionCreated])
  else (s, [])

def chain (event : MiddlewareLedger.Event) (s : State) : State × List Action :=
  match event with
  | .finalize | .advance _ | .interrupt => (s, [])
  | event => if s.executing then s.withLedger (MiddlewareLedger.act event s.ledger) else (s, [])

/-- The slot is destroyed; a panic leaves it unconfirmed. -/
def endExecution (dropPanics : Bool) (s : State) : State × List Action :=
  if s.executing then
    if dropPanics then ({ s with resourceReleaseFailed := true }, [.releasePanicked])
    else
      ({ s with executionTerminal := true, ledger := { s.ledger with running := false } },
        [.executionTerminated])
  else (s, [])

def createBody : State × List Action :=
  if s.owner = .job ∧ s.bodyCreated = false then ({ s with bodyCreated := true }, [.bodyCreated])
  else (s, [])

def spawnHelper : State × List Action :=
  if s.childrenSealed then (s, []) else ({ s with helpers := s.helpers + 1 }, [])

def trackInput : State × List Action :=
  if s.owner = .job ∧ s.childrenSealed = false then ({ s with inputs := s.inputs + 1 }, [])
  else (s, [])

def dropInput : State × List Action :=
  if s.inputs = 0 then (s, [])
  else if panics then ({ s with inputFailed := true }, [.releasePanicked])
  else ({ s with inputs := s.inputs - 1 }, [])

/-- The end of the factory's future. Without an execution there will be none. -/
def endJob : State × List Action :=
  if s.owner ≠ .job then (s, [])
  else if panics then
    ({ s with owner := .finishing, resourceReleaseFailed := true }, [.releasePanicked])
  else
    ({ s with owner := .finishing
              ledger := { s.ledger with running := s.ledger.running && s.executionCreated } }, [])

def finishResponse (dropPanics : Bool) (s : State) : State × List Action :=
  if s.owner ≠ .finishing then (s, [])
  else if s.bodyCreated = false ∨ s.bodyTerminal then ({ s with owner := .closing }, [])
  else if dropPanics then
    ({ s with owner := .closing, resourceReleaseFailed := true }, [.releasePanicked])
  else ({ s with owner := .closing, bodyTerminal := true }, [.sourceReleased])

def setCall (phase : Call) (s : State) : State :=
  { s with calls := Function.update s.calls call phase }

/-- A call returns: it lets go of the lock, and the owner has ended with its own. -/
def leave : State :=
  { s.setCall call .idle with
      holder := if s.holder = some call then none else s.holder
      owner := if call = 0 ∧ s.owner = .closing then .ended else s.owner }

/-- The owner is caller zero. -/
def closeScope : State × List Action :=
  if s.calls call = .idle ∧ s.owner = (if call = 0 then .closing else .ended) then
    (if s.permitted then s.setCall call .locking else s.leave call, [])
  else (s, [])

def lock : State × List Action :=
  if s.calls call = .locking ∧ s.holder = none then
    ({ s.setCall call .releasing with holder := some call }, [])
  else (s, [])

def release : State × List Action :=
  if s.calls call ≠ .releasing then (s, [])
  else if s.scope = false ∨ s.objects = false then (s.setCall call .finalizing, [])
  else if panics then
    ({ s.leave call with objects := false, resourceReleaseFailed := true }, [.releasePanicked])
  else ({ s.setCall call .finalizing with objects := false }, [.objectsDropped])

def finalize : State × List Action :=
  if s.calls call = .finalizing then s.withLedger s.ledger.finalize else (s, [])

/-- The barrier of the execution's children opens only when they are terminal. -/
def poll (answers : MiddlewareLedger.Answers) (s : State) : State × List Action :=
  if s.calls call ≠ .finalizing then (s, [])
  else match phaseOf s.ledger, answers.children with
    | some .sealing, _ =>
      { s with childrenSealed := true }.withLedger (s.ledger.advance answers)
    | some .executionChildren, some (some _) =>
      if s.childrenTerminal then
        let result := s.withLedger (s.ledger.advance answers)
        (result.1, .childrenTerminal :: result.2)
      else (s, [])
    | _, _ => s.withLedger (s.ledger.advance answers)

def finalized : State × List Action :=
  if s.calls call ≠ .finalizing then (s, [])
  else match phaseOf s.ledger with
    | some (.finished result) =>
      (if result.safeToClose then s.setCall call .closing else s.leave call, [])
    | _ => (s, [])

def close : State × List Action :=
  if s.calls call ≠ .closing then (s, [])
  else if s.scope then ({ s.leave call with scope := false }, [.closeStarted])
  else (s.leave call, [])

def dropWaiter : State × List Action :=
  if call = 0 then (s, []) else (s.leave call, [])

end State

def act : Event → State → State × List Action
  | .prepareScope => State.prepareScope
  | .createExecution => State.createExecution
  | .chain event => State.chain event
  | .endExecution dropPanics => State.endExecution dropPanics
  | .createBody => State.createBody
  | .spawnHelper => State.spawnHelper
  | .joinHelper => fun s => ({ s with helpers := s.helpers - 1 }, [])
  | .trackInput => State.trackInput
  | .dropInput panics => State.dropInput panics
  | .endJob panics => State.endJob panics
  | .finishResponse dropPanics => State.finishResponse dropPanics
  | .closeScope call => State.closeScope call
  | .lock call => State.lock call
  | .release call panics => State.release call panics
  | .finalize call => State.finalize call
  | .poll call answers => State.poll call answers
  | .finalized call => State.finalized call
  | .close call => State.close call
  | .dropWaiter call => State.dropWaiter call

def system : Reactive State Event Action := ⟨act⟩

/-! ## What the log says -/

def ledgerLog (log : List Action) : List MiddlewareLedger.Action :=
  log.filterMap fun | .ledger action => some action | _ => none

/-- The close of the scope needs everything else to be over. -/
@[grind] def Permitted (before : List Action) : Action → Prop
  | .closeStarted => .closeStarted ∉ before ∧ .releasePanicked ∉ before ∧
      (.executionCreated ∈ before → .executionTerminated ∈ before) ∧
      (.bodyCreated ∈ before → .sourceReleased ∈ before) ∧ .objectsDropped ∈ before ∧
      .childrenTerminal ∈ before ∧ ∀ id, MiddlewareLedger.Handled (ledgerLog before) id
  | _ => True

/-- What an observer needs to count the request as retired; the join of the owner and the scope are
observed as they are. -/
def State.retired (s : State) (ownerJoined scopeTerminal : Bool) : Bool :=
  ownerJoined && scopeTerminal && s.permitted && s.childrenTerminal &&
    (List.range s.ledger.registered).all fun id =>
      let evidence := s.ledger.invocations id
      (!evidence.entered || evidence.cleanup != .outstanding) && evidence.stateReleased &&
        !evidence.releaseFailed

/-! ## The state and the log -/

/-- The finalizer has confirmed everything. -/
def Safe (ledger : Ledger) : Prop := ∃ failed, phaseOf ledger = some (.finished ⟨true, failed⟩)

/-- The barrier of the children has been passed. -/
@[grind] def pastChildren : MiddlewareLedger.Phase → Bool
  | .sealing | .executionChildren => false
  | .finished result => result.safeToClose
  | _ => true

/-- How the owner of a request stands to what was done. -/
structure Sound (s : State) (log : List Action) : Prop where
  ledger : MiddlewareLedger.Sound s.ledger (ledgerLog log)
  failed : s.resourceReleaseFailed = true ∨ s.inputFailed = true ↔ .releasePanicked ∈ log
  executionCreated : s.executionCreated ↔ .executionCreated ∈ log
  executionTerminal : s.executionTerminal → .executionTerminated ∈ log
  bodyCreated : s.bodyCreated ↔ .bodyCreated ∈ log
  bodyTerminal : s.bodyTerminal → .sourceReleased ∈ log
  closed : .closeStarted ∈ log → s.scope = false ∧ s.scopeCreated = true
  created : s.scope = true ∨ s.objects = true → s.scopeCreated = true
  objects : s.scopeCreated = true → s.objects = false → s.scope = true →
    .objectsDropped ∈ log ∨ s.resourceReleaseFailed = true
  children : ∀ phase, phaseOf s.ledger = some phase → phase ≠ .sealing → s.childrenSealed = true
  terminal : ∀ phase, phaseOf s.ledger = some phase → pastChildren phase →
    s.helpers = 0 ∧ s.inputs = 0 ∧ s.inputFailed = false ∧ .childrenTerminal ∈ log
  calls : ∀ call, s.calls call ≠ .idle → s.owner = (if call = 0 then .closing else .ended) ∧
    s.resourceReleaseFailed = false ∧ (s.executionCreated → s.executionTerminal) ∧
    (s.bodyCreated → s.bodyTerminal)
  ended : s.owner = .ended → s.resourceReleaseFailed = false →
    (s.executionCreated → s.executionTerminal) → (s.bodyCreated → s.bodyTerminal) →
    s.objects = false ∨ s.scope = false
  holder : ∀ call,
    s.calls call = .releasing ∨ s.calls call = .finalizing ∨ s.calls call = .closing →
      s.holder = some call
  dropped : ∀ call, s.calls call = .finalizing ∨ s.calls call = .closing →
    s.objects = false ∨ s.scope = false
  safe : ∀ call, s.calls call = .closing → Safe s.ledger
  confirmed : .closeStarted ∈ log → Safe s.ledger
  justified : Justified Permitted log

section Log

variable (log : List Action)

@[grind =] theorem ledgerLog_concat (a : Action) : ledgerLog (log ++ [a]) = match a with
    | .ledger action => ledgerLog log ++ [action]
    | _ => ledgerLog log := by
  rw [ledgerLog, List.filterMap_append]
  split <;> simp_all [ledgerLog]

theorem ledgerLog_map (actions : List MiddlewareLedger.Action) :
    ledgerLog (log ++ actions.map .ledger) = ledgerLog log ++ actions := by
  rw [ledgerLog, List.filterMap_append, List.filterMap_map]
  exact congrArg (ledgerLog log ++ ·) (List.filterMap_some ..)

end Log

section Phases

variable {ledger : Ledger}

/-- The steps of the chain leave the finalizer alone. -/
theorem phaseOf_chain {event : MiddlewareLedger.Event} (hfinalize : event ≠ .finalize)
    (hadvance : ∀ answers, event ≠ .advance answers) :
    phaseOf (MiddlewareLedger.act event ledger).1 = phaseOf ledger := by
  cases event with
  | finalize => exact absurd rfl hfinalize
  | advance answers => exact absurd rfl (hadvance answers)
  | interrupt => rfl
  | register =>
    simp only [MiddlewareLedger.act, Ledger.register]
    split <;> [rfl; split <;> rfl]
  | _ =>
    simp only [MiddlewareLedger.act, Ledger.enter, Ledger.setStage, Ledger.normalReturned,
      Ledger.abandon]
    split <;> rfl

theorem phaseOf_finalize :
    phaseOf ledger.finalize.1 = phaseOf ledger ∨
      phaseOf ledger.finalize.1 = some .sealing ∧ ¬ Safe ledger := by
  simp only [Ledger.finalize, Safe, phaseOf]
  grind

/-- The finalizer leaves its barrier only through it, and its end not at all. -/
theorem phaseOf_advance (answers : MiddlewareLedger.Answers) {phase : MiddlewareLedger.Phase}
    (hphase : phaseOf ledger = some phase) :
    ∃ next, phaseOf (ledger.advance answers).1 = some next ∧ next ≠ .sealing ∧
      (pastChildren next → pastChildren phase ∨
        phase = .executionChildren ∧ ∃ failed, answers.children = some (some failed)) ∧
      (∀ result, phase = .finished result → next = phase) := by
  obtain ⟨f, hf, rfl⟩ := Option.map_eq_some_iff.mp hphase
  simp only [Ledger.advance, hf, Ledger.step]
  cases hphase' : f.phase with
  | executionChildren =>
    rcases answers.children with _ | (_ | failed)
    · exact ⟨_, hphase.trans (congrArg some hphase'), by simp, by simp [pastChildren], by simp⟩
    · exact ⟨_, rfl, by simp, by simp [pastChildren], by simp⟩
    · exact ⟨_, rfl, by simp, fun _ => .inr ⟨rfl, failed, rfl⟩, by simp⟩
  | visiting left =>
    cases left with
    | zero => exact ⟨_, rfl, by simp, fun _ => .inl rfl, by simp⟩
    | succ id =>
      simp only [Ledger.visit, Ledger.settle, Ledger.finish, Ledger.notSafe, Ledger.goTo,
        Ledger.update, phaseOf]
      grind
  | _ =>
    simp only [Ledger.conclude, Ledger.releaseState, Ledger.settle, Ledger.finish,
      Ledger.notSafe, Ledger.goTo, Ledger.update, phaseOf]
    grind

end Phases

namespace Sound

variable {s : State} {log : List Action}

theorem initial : Sound {} [] := by
  constructor
  case ledger => exact MiddlewareLedger.Sound.initial
  case justified => exact Justified.nil
  all_goals simp [phaseOf]

variable (h : Sound s log)

include h

/-- A move of the ledger that its barrier allows. -/
theorem withLedger {ledger : Ledger} {actions : List MiddlewareLedger.Action}
    (hledger : MiddlewareLedger.Sound ledger (ledgerLog log ++ actions))
    (hphase : ∀ phase, phaseOf ledger = some phase → phase = .sealing ∨
      s.childrenSealed = true ∧ (pastChildren phase →
        s.helpers = 0 ∧ s.inputs = 0 ∧ s.inputFailed = false ∧ .childrenTerminal ∈ log))
    (hsafe : Safe s.ledger → Safe ledger) :
    Sound (s.withLedger (ledger, actions)).1 (log ++ (s.withLedger (ledger, actions)).2) := by
  simp only [State.withLedger]
  obtain ⟨⟩ := h
  constructor
  case ledger => rwa [ledgerLog_map]
  case justified =>
    refine Justified.append ‹_› fun before a after hsplit => ?_
    have ha : a ∈ actions.map Action.ledger := by rw [hsplit]; simp
    obtain ⟨action, -, rfl⟩ := List.mem_map.mp ha
    trivial
  case children => exact fun phase hp hne => ((hphase phase hp).resolve_left hne).1
  case terminal =>
    intro phase hp hpast
    rcases hphase phase hp with rfl | ⟨-, hterminal⟩
    · cases hpast
    · obtain ⟨hhelpers, hinputs, hfailed, hlog⟩ := hterminal hpast
      exact ⟨hhelpers, hinputs, hfailed, List.mem_append_left _ hlog⟩
  all_goals first | assumption | grind -ring -linarith

/-- A move of the ledger that leaves its finalizer where it is, or starts it anew. -/
theorem kept {ledger : Ledger} {actions : List MiddlewareLedger.Action}
    (hledger : MiddlewareLedger.Sound ledger (ledgerLog log ++ actions))
    (hkept : phaseOf ledger = phaseOf s.ledger ∨
      phaseOf ledger = some .sealing ∧ ¬ Safe s.ledger) :
    Sound (s.withLedger (ledger, actions)).1 (log ++ (s.withLedger (ledger, actions)).2) := by
  refine h.withLedger hledger (fun phase hphase => ?_) fun hsafe => ?_
  · by_cases hsealing : phase = .sealing
    · exact .inl hsealing
    · rcases hkept with hkept | ⟨hkept, -⟩
      · rw [hkept] at hphase
        exact .inr ⟨h.children phase hphase hsealing, h.terminal phase hphase⟩
      · exact absurd (Option.some.inj (hphase.symm.trans hkept)) hsealing
  · rcases hkept with hkept | ⟨-, hunsafe⟩
    · rwa [Safe, hkept]
    · exact absurd hsafe hunsafe

theorem chain (event : MiddlewareLedger.Event) :
    Sound (s.chain event).1 (log ++ (s.chain event).2) := by
  unfold State.chain
  split
  case h_4 hfinalize hadvance hinterrupt =>
    split
    · exact h.kept (h.ledger.act event) (.inl (phaseOf_chain hfinalize hadvance))
    · rwa [List.append_nil]
  all_goals rwa [List.append_nil]

variable (call : Nat) (answers : MiddlewareLedger.Answers)

theorem finalize : Sound (s.finalize call).1 (log ++ (s.finalize call).2) := by
  unfold State.finalize
  split
  · exact h.kept h.ledger.finalize phaseOf_finalize
  · rwa [List.append_nil]

theorem sealChildren : Sound { s with childrenSealed := true } log := by
  obtain ⟨⟩ := h
  constructor
  all_goals first | assumption | grind -ring -linarith

theorem logChildren : Sound s (log ++ [.childrenTerminal]) := by
  obtain ⟨⟩ := h
  constructor
  all_goals first | assumption | grind -ring -linarith

theorem advance (hsealed : phaseOf s.ledger = some .sealing → s.childrenSealed = true)
    (hterminal : phaseOf s.ledger = some .executionChildren →
      (∃ failed, answers.children = some (some failed)) →
      s.helpers = 0 ∧ s.inputs = 0 ∧ s.inputFailed = false ∧ .childrenTerminal ∈ log) :
    Sound (s.withLedger (s.ledger.advance answers)).1
      (log ++ (s.withLedger (s.ledger.advance answers)).2) := by
  cases hphase : phaseOf s.ledger with
  | none =>
    have hnone : s.ledger.finalizer = none := Option.map_eq_none_iff.mp hphase
    have hstay : s.ledger.advance answers = (s.ledger, []) := by rw [Ledger.advance, hnone]
    rw [hstay]
    exact h.kept (by simpa using h.ledger) (.inl rfl)
  | some phase =>
    obtain ⟨next, hnext, -, hpast, hfinished⟩ := phaseOf_advance answers hphase
    refine h.withLedger (h.ledger.act (.advance answers)) (fun phase' hphase' => .inr ?_) ?_
    · obtain rfl : next = phase' := Option.some.inj (hnext.symm.trans hphase')
      constructor
      · by_cases hsealing : phase = .sealing
        · exact hsealed (hsealing ▸ hphase)
        · exact h.children phase hphase hsealing
      · intro hnext'
        rcases hpast hnext' with hpast | ⟨rfl, hchildren⟩
        · exact h.terminal phase hphase hpast
        · exact hterminal hphase hchildren
    · rintro ⟨failed, hsafe⟩
      obtain rfl : phase = _ := Option.some.inj (hphase.symm.trans hsafe)
      exact ⟨failed, by rw [← hfinished _ rfl]; exact hnext⟩

theorem poll : Sound (s.poll call answers).1 (log ++ (s.poll call answers).2) := by
  unfold State.poll
  split
  · rwa [List.append_nil]
  split
  case h_1 hphase =>
    refine h.sealChildren.advance answers (fun _ => rfl) fun hbarrier => ?_
    rw [hphase] at hbarrier
    cases hbarrier
  case h_2 hphase hchildren =>
    split
    next hterminal =>
      obtain ⟨hhelpers, hinputs, hfailed⟩ := State.childrenTerminal_iff.mp hterminal
      have hmoved := h.logChildren.advance answers
        (fun hsealing => by rw [hphase] at hsealing; cases hsealing)
        fun _ _ => ⟨hhelpers, hinputs, hfailed, by simp⟩
      simpa using hmoved
    next => rwa [List.append_nil]
  case h_3 hsealing hbarrier =>
    exact h.advance answers (fun hphase => (hsealing hphase).elim)
      fun hphase ⟨failed, hchildren⟩ => (hbarrier failed hphase hchildren).elim

/-- A step that touches neither the ledger nor the calls. -/
theorem job (event : Event)
    (hevent : event = .prepareScope ∨ event = .createExecution ∨ event = .createBody ∨
      event = .spawnHelper ∨ event = .joinHelper ∨ event = .trackInput ∨
      (∃ panics, event = .dropInput panics) ∨ ∃ dropPanics, event = .finishResponse dropPanics) :
    Sound (act event s).1 (log ++ (act event s).2) := by
  rcases hevent with rfl | rfl | rfl | rfl | rfl | rfl | ⟨_ | _, rfl⟩ | ⟨_ | _, rfl⟩
  all_goals
    simp only [act, State.prepareScope, State.createExecution, State.createBody, State.spawnHelper,
      State.trackInput, State.dropInput, State.finishResponse]
    obtain ⟨⟩ := h
    repeat' split
    all_goals
      constructor
      all_goals first | assumption | grind -ring -linarith

theorem stopLedger (running : Bool) (hrunning : running → s.ledger.running) :
    Sound { s with ledger := { s.ledger with running } } log := by
  have hledger : MiddlewareLedger.Sound { s.ledger with running } (ledgerLog log) := by
    cases running with
    | false => exact h.ledger.interrupt
    | true =>
      have heq : { s.ledger with running := true } = s.ledger := by rw [← hrunning rfl]
      rw [heq]
      exact h.ledger
  rw [← List.append_nil (ledgerLog log)] at hledger
  have hkept := h.kept hledger (.inl rfl)
  rwa [State.withLedger, List.map_nil, List.append_nil] at hkept

theorem endExecution (dropPanics : Bool) :
    Sound (s.endExecution dropPanics).1 (log ++ (s.endExecution dropPanics).2) := by
  unfold State.endExecution
  split
  next hexecuting =>
    have howner : s.owner = .job := by
      simp only [State.executing, Bool.and_eq_true, beq_iff_eq] at hexecuting
      exact hexecuting.1.1.1
    split
    · obtain ⟨⟩ := h
      constructor
      all_goals first | assumption | grind -ring -linarith
    · obtain ⟨⟩ := h.stopLedger false (by simp)
      constructor
      all_goals first | assumption | grind -ring -linarith
  next => rwa [List.append_nil]

theorem endJob (panics : Bool) : Sound (s.endJob panics).1 (log ++ (s.endJob panics).2) := by
  unfold State.endJob
  split
  · rwa [List.append_nil]
  split
  · obtain ⟨⟩ := h
    constructor
    all_goals first | assumption | grind -ring -linarith
  · obtain ⟨⟩ := h.stopLedger (s.ledger.running && s.executionCreated) (by grind)
    constructor
    all_goals first | assumption | grind -ring -linarith

theorem leave (hended : call = 0 → s.resourceReleaseFailed = false →
      (s.executionCreated → s.executionTerminal) → (s.bodyCreated → s.bodyTerminal) →
      s.objects = false ∨ s.scope = false) : Sound (s.leave call) log := by
  simp only [State.leave, State.setCall]
  obtain ⟨⟩ := h
  constructor
  all_goals first | assumption | grind -ring -linarith

theorem closeScope : Sound (s.closeScope call).1 (log ++ (s.closeScope call).2) := by
  unfold State.closeScope
  by_cases hidle : s.calls call = .idle ∧ s.owner = (if call = 0 then .closing else .ended)
  · rw [if_pos hidle, List.append_nil]
    by_cases hpermitted : s.permitted
    · rw [if_pos hpermitted]
      rw [State.permitted_iff] at hpermitted
      simp only [State.setCall]
      obtain ⟨⟩ := h
      constructor
      all_goals first | assumption | grind -ring -linarith
    · rw [if_neg hpermitted]
      rw [State.permitted_iff] at hpermitted
      exact h.leave call fun _ hfailed hexecution hbody =>
        absurd ⟨hfailed, hexecution, hbody⟩ hpermitted
  · rwa [if_neg hidle, List.append_nil]

theorem lock : Sound (s.lock call).1 (log ++ (s.lock call).2) := by
  unfold State.lock
  split
  · simp only [State.setCall]
    obtain ⟨⟩ := h
    constructor
    all_goals first | assumption | grind -ring -linarith
  · rwa [List.append_nil]

theorem release (panics : Bool) :
    Sound (s.release call panics).1 (log ++ (s.release call panics).2) := by
  unfold State.release
  split
  · rwa [List.append_nil]
  simp only [State.leave, State.setCall]
  obtain ⟨⟩ := h
  repeat' split
  all_goals
    constructor
    all_goals first | assumption | grind -ring -linarith

theorem finalized : Sound (s.finalized call).1 (log ++ (s.finalized call).2) := by
  unfold State.finalized
  split
  · rwa [List.append_nil]
  next hcall =>
    have hdropped := h.dropped call (.inl (not_not.mp hcall))
    split
    next result hphase =>
      rw [List.append_nil]
      split
      next hsafe =>
        have hsafe' : Safe s.ledger := ⟨result.failed, by rw [hphase, ← hsafe]⟩
        simp only [State.setCall]
        obtain ⟨⟩ := h
        constructor
        all_goals first | assumption | grind -ring -linarith
      next => exact h.leave call fun _ _ _ _ => hdropped
    next => rwa [List.append_nil]

theorem close : Sound (s.close call).1 (log ++ (s.close call).2) := by
  unfold State.close
  split
  · rwa [List.append_nil]
  next hcall =>
    have hcall : s.calls call = .closing := not_not.mp hcall
    split
    next hscope =>
      have hpermitted : Permitted log .closeStarted := by
        obtain ⟨failed, hphase⟩ := h.safe call hcall
        obtain ⟨f, hf, hfinished⟩ := Option.map_eq_some_iff.mp hphase
        have hterminal := h.terminal _ hphase rfl
        have hhandled : ∀ id, MiddlewareLedger.Handled (ledgerLog log) id := by
          intro id
          rw [h.ledger.handled_iff]
          by_cases hid : id < s.ledger.registered
          · exact (h.ledger.released id (h.ledger.cleared f id hf
              (by simp [hfinished, MiddlewareLedger.Phase.cleared]) hid)).1
          · exact .inl (h.ledger.locking id (.inl (h.ledger.fresh id (by omega)))).1
        have hcalls := h.calls call (by simp [hcall])
        have hdropped := h.dropped call (.inr hcall)
        have := h.closed
        have := h.failed
        have := h.executionCreated
        have := h.executionTerminal
        have := h.bodyCreated
        have := h.bodyTerminal
        have := h.objects (h.created (.inl hscope))
        exact ⟨by grind, by grind, by grind, by grind, by grind, hterminal.2.2.2, hhandled⟩
      simp only [State.leave, State.setCall]
      obtain ⟨⟩ := h
      constructor
      case justified => exact Justified.snoc ‹_› hpermitted
      all_goals first | assumption | grind -ring -linarith
    next =>
      rw [List.append_nil]
      exact h.leave call fun _ _ _ _ => h.dropped call (.inr hcall)

theorem dropWaiter : Sound (s.dropWaiter call).1 (log ++ (s.dropWaiter call).2) := by
  unfold State.dropWaiter
  split
  · rwa [List.append_nil]
  next hcall =>
    rw [List.append_nil]
    exact h.leave call fun hzero => absurd hzero hcall

/-- Every move keeps the owner in step with the log. -/
theorem act (event : Event) : Sound (act event s).1 (log ++ (act event s).2) := by
  cases event with
  | chain event => exact h.chain event
  | endExecution dropPanics => exact h.endExecution dropPanics
  | endJob panics => exact h.endJob panics
  | closeScope call => exact h.closeScope call
  | lock call => exact h.lock call
  | release call panics => exact h.release call panics
  | finalize call => exact h.finalize call
  | poll call answers => exact h.poll call answers
  | finalized call => exact h.finalized call
  | close call => exact h.close call
  | dropWaiter call => exact h.dropWaiter call
  | _ => exact h.job _ (by simp)

theorem not_retired (ownerJoined scopeTerminal : Bool) (hpanicked : .releasePanicked ∈ log ∨
      ∃ id, id < s.ledger.registered ∧ (s.ledger.invocations id).releaseFailed) :
    s.retired ownerJoined scopeTerminal = false := by
  rw [State.retired, ← Bool.not_eq_true]
  simp only [Bool.and_eq_true, State.permitted_iff, State.childrenTerminal_iff, List.all_eq_true,
    List.mem_range]
  rintro ⟨⟨⟨-, hfailed, -⟩, -, -, hinput⟩, hevidence⟩
  rcases hpanicked with hpanicked | ⟨id, hid, hrelease⟩
  · rcases h.failed.mpr hpanicked with h | h
    · exact absurd h (by simp [hfailed])
    · exact absurd h (by simp [hinput])
  · have := (hevidence id hid).2
    simp [hrelease] at this

/-- From the close of the scope on no helper runs and no input is held. -/
theorem children_terminal (hclosed : .closeStarted ∈ log) : s.helpers = 0 ∧ s.inputs = 0 := by
  obtain ⟨failed, hphase⟩ := h.confirmed hclosed
  obtain ⟨hhelpers, hinputs, -⟩ := h.terminal _ hphase rfl
  exact ⟨hhelpers, hinputs⟩

theorem not_closed {id : Nat} (hid : id < s.ledger.registered)
    (hrelease : (s.ledger.invocations id).releaseFailed) : .closeStarted ∉ log := by
  intro hclosed
  obtain ⟨failed, hphase⟩ := h.confirmed hclosed
  obtain ⟨f, hf, hfinished⟩ := Option.map_eq_some_iff.mp hphase
  have hreleased := h.ledger.cleared f id hf
    (by simp [hfinished, MiddlewareLedger.Phase.cleared]) hid
  simp [(h.ledger.released id hreleased).2.1] at hrelease

end Sound

/-! ## Runs -/

/-- In every run of the owner, its execution, its body, its middleware chain and any number of
waiters, the close of the scope is started at most once, after all that has to be over is over, and
from then on there is no helper and no input. It is never started once a release has panicked, and
the request then never counts as retired. -/
theorem scope_close_safe (events : List Event) :
    let w := system.run ({}, []) events
    Justified Permitted w.2 ∧
      (.closeStarted ∈ w.2 → w.1.helpers = 0 ∧ w.1.inputs = 0) ∧
      (∀ id, id < w.1.ledger.registered → (w.1.ledger.invocations id).releaseFailed →
        .closeStarted ∉ w.2) ∧
      ((.releasePanicked ∈ w.2 ∨ ∃ id, id < w.1.ledger.registered ∧
        (w.1.ledger.invocations id).releaseFailed) →
          ∀ ownerJoined scopeTerminal, w.1.retired ownerJoined scopeTerminal = false) := by
  intro w
  have hsound : Sound w.1 w.2 :=
    system.run_induct (P := Sound) Sound.initial (fun s log event h => h.act event) events
  exact ⟨hsound.justified, hsound.children_terminal,
    fun id hid hrelease => hsound.not_closed hid hrelease,
    fun hpanicked ownerJoined scopeTerminal =>
      hsound.not_retired ownerJoined scopeTerminal hpanicked⟩

end Lily.Http.RequestLifecycle
