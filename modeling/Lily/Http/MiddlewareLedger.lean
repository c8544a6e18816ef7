import Lily.Transition.Precedence
import Lily.Transition.Reactive

/-!
# The middleware ledger of a request

An invocation of a middleware is registered, entered, and either returns or is dropped with its
frame; what an outer middleware does with an abandoned inner one is its own business, so the frames
move independently of each other. Once the execution is over the ledger is finalized by one retained
future. Any number of waiters poll it, none of them owns it, and it is replaced only after it has
finished without having made the scope safe to close. What the hooks, the helpers, the destructors
and the clock do is part of a move.
-/

namespace Lily.Http.MiddlewareLedger

open Transition

inductive HttpMiddlewareStage where
  | before | delegatingToNext | after
  deriving DecidableEq

inductive CleanupOutcome where
  | succeeded | failed | timedOut | cancelled | panicked | notStarted | unknown
  deriving DecidableEq

inductive MiddlewareCleanupEvidence where
  | outstanding
  | normalReturned
  | terminationSettled (outcome : CleanupOutcome)
  deriving DecidableEq

structure InvocationEvidence where
  entered : Bool := false
  stage : HttpMiddlewareStage := .before
  cleanup : MiddlewareCleanupEvidence := .outstanding
  terminationStarted : Bool := false
  stateReleased : Bool := false
  releaseFailed : Bool := false

/-- Where an invocation is in the chain. -/
inductive Frame where
  | absent | locking | handling | gone
  deriving DecidableEq

structure Finalization where
  safeToClose : Bool
  failed : Bool
  deriving DecidableEq

/-- Where the finalizer is. `visiting n` has the entries below `n` before it. -/
inductive Phase where
  | sealing
  | executionChildren
  | visiting (left : Nat)
  | invoking (id : Nat)
  | polling (id : Nat)
  | concluding (id : Nat) (outcome : CleanupOutcome)
  | joining (id : Nat)
  | releasing (id : Nat)
  | finished (result : Finalization)
  deriving DecidableEq

/-- The loop that finalizes a fixed number of entries, from the last to the first. -/
structure Finalizer where
  entries : Nat
  phase : Phase := .sealing
  failed : Bool := false

/-- The invocations by their order of registration, with the frames of the chain they are in. -/
structure Ledger where
  running : Bool := true
  sealed : Bool := false
  registered : Nat := 0
  invocations : Nat → InvocationEvidence := fun _ => {}
  frames : Nat → Frame := fun _ => .absent
  finalizer : Option Finalizer := none

/-- What the log says of the invocations. -/
inductive Action where
  | registered (id : Nat)
  | panicked
  | entered (id : Nat)
  | returned (id : Nat)
  | sealed
  | hookStarted (id : Nat)
  | settled (id : Nat) (outcome : CleanupOutcome)
  | stateDropped (id : Nat)
  | finished (result : Finalization)

inductive HookPoll where
  | pending | returned | failed | panicked

/-- What surrounds the finalizer answers during a move: the helpers (still running, out of time or
not releasable, or joined), the clock, the hook, and the destructors. -/
structure Answers where
  children : Option (Option Bool) := none
  expired : Bool := false
  hook : HookPoll := .pending
  dropPanics : Bool := false

/-- What the chain or a finalizer does next. -/
inductive Event where
  | register
  | enter (id : Nat)
  | delegate (id : Nat)
  | resume (id : Nat)
  | return (id : Nat)
  | abandon (id : Nat)
  | interrupt
  | finalize
  | advance (answers : Answers)

namespace Ledger

variable (f : Finalizer) (id : Nat) (outcome : CleanupOutcome) (dropPanics : Bool) (s : Ledger)

def update (f : InvocationEvidence → InvocationEvidence) (s : Ledger) : Ledger :=
  { s with invocations := Function.update s.invocations id (f (s.invocations id)) }

def setFrame (frame : Frame) (s : Ledger) : Ledger :=
  { s with frames := Function.update s.frames id frame }

/-- `register_current`. -/
def register : Ledger × List Action :=
  if s.running = false then (s, [])
  else if s.sealed then (s, [.panicked])
  else
    ({ s.setFrame s.registered .locking with registered := s.registered + 1 },
      [.registered s.registered])

/-- The first poll of the callback, with its state locked. -/
def enter : Ledger × List Action :=
  if s.running ∧ s.frames id = .locking then
    ((s.setFrame id .handling).update id ({ · with entered := true }), [.entered id])
  else (s, [])

def setStage (stage : HttpMiddlewareStage) (s : Ledger) : Ledger × List Action :=
  if s.running ∧ s.frames id = .handling then (s.update id ({ · with stage }), []) else (s, [])

def normalReturned : Ledger × List Action :=
  if s.running ∧ s.frames id = .handling then
    ((s.setFrame id .gone).update id ({ · with cleanup := .normalReturned }), [.returned id])
  else (s, [])

/-- The frame is dropped before it has returned. -/
def abandon : Ledger × List Action :=
  if s.frames id = .absent then (s, []) else (s.setFrame id .gone, [])

/-- `MiddlewareLedger::finalize`, which is called once the execution has ended. -/
def finalize : Ledger × List Action :=
  if s.running then (s, [])
  else match s.finalizer with
    | some { phase := .finished ⟨false, _⟩, .. } | none =>
      ({ s with sealed := true, finalizer := some { entries := s.registered } }, [.sealed])
    | some _ => (s, [])

def goTo (phase : Phase) (s : Ledger) : Ledger :=
  { s with finalizer := some { f with phase } }

def finish (result : Finalization) (s : Ledger) : Ledger × List Action :=
  (s.goTo f (.finished result), [.finished result])

def notSafe : Ledger × List Action := s.finish f ⟨false, true⟩

/-- `settle`, and on to the helpers of the invocation. -/
def settle : Ledger × List Action :=
  ((s.update id ({ · with cleanup := .terminationSettled outcome })).goTo
    { f with failed := f.failed || outcome != .succeeded } (.joining id), [.settled id outcome])

/-- One entry of the loop, up to its first wait. -/
def visit (expired : Bool) (s : Ledger) : Ledger × List Action :=
  let evidence := s.invocations id
  if evidence.entered = false ∨ evidence.cleanup = .normalReturned then
    (s.goTo f (.releasing id), [])
  else match evidence.cleanup with
    | .terminationSettled outcome =>
      if evidence.releaseFailed then s.notSafe f
      else (s.goTo { f with failed := f.failed || outcome != .succeeded } (.joining id), [])
    | _ => if expired then s.settle f id .notStarted else (s.goTo f (.invoking id), [])

/-- The end of `invoke`: the slot of the hook is dropped. -/
def conclude : Ledger × List Action :=
  if dropPanics then
    ((s.update id ({ · with
        cleanup := .terminationSettled .panicked, releaseFailed := true })).goTo f
      (.finished ⟨false, true⟩), [.settled id .panicked])
  else s.settle f id outcome

def releaseState : Ledger × List Action :=
  let evidence := s.invocations id
  if evidence.stateReleased then (s.goTo f (.visiting id), [])
  else if evidence.releaseFailed then s.notSafe f
  else if dropPanics then
    ((s.update id ({ · with releaseFailed := true })).goTo f (.finished ⟨false, true⟩),
      [.stateDropped id])
  else ((s.update id ({ · with stateReleased := true })).goTo f (.visiting id), [.stateDropped id])

/-- One move of the free function `finalize`. -/
def step (answers : Answers) (s : Ledger) : Ledger × List Action :=
  match f.phase with
  | .sealing => (s.goTo f .executionChildren, [])
  | .executionChildren => match answers.children with
    | none => (s, [])
    | some none => s.notSafe f
    | some (some failed) => (s.goTo { f with failed } (.visiting f.entries), [])
  | .visiting 0 => s.finish f ⟨true, f.failed⟩
  | .visiting (id + 1) => s.visit f id answers.expired
  | .invoking id =>
    if answers.expired then (s.goTo f (.concluding id .notStarted), [])
    else
      ((s.update id ({ · with terminationStarted := true })).goTo f (.polling id),
        [.hookStarted id])
  | .polling id =>
    if answers.expired then (s.goTo f (.concluding id .timedOut), [])
    else match answers.hook with
      | .pending => (s, [])
      | .returned => (s.goTo f (.concluding id .succeeded), [])
      | .failed => (s.goTo f (.concluding id .failed), [])
      | .panicked => (s.goTo f (.concluding id .panicked), [])
  | .concluding id outcome => s.conclude f id outcome answers.dropPanics
  | .joining id => match answers.children with
    | none => (s, [])
    | some none => s.notSafe f
    | some (some failed) => (s.goTo { f with failed := f.failed || failed } (.releasing id), [])
  | .releasing id => s.releaseState f id answers.dropPanics
  | .finished _ => (s, [])

def advance (answers : Answers) (s : Ledger) : Ledger × List Action :=
  match s.finalizer with
  | none => (s, [])
  | some f => s.step f answers

end Ledger

def act : Event → Ledger → Ledger × List Action
  | .register => Ledger.register
  | .enter id => Ledger.enter id
  | .delegate id => Ledger.setStage id .delegatingToNext
  | .resume id => Ledger.setStage id .after
  | .return id => Ledger.normalReturned id
  | .abandon id => Ledger.abandon id
  | .interrupt => fun s => ({ s with running := false }, [])
  | .finalize => Ledger.finalize
  | .advance answers => Ledger.advance answers

def system : Reactive Ledger Event Action := ⟨act⟩

/-! ## What the log says -/

/-- The invocation asks for no hook any more. -/
def Handled (log : List Action) (id : Nat) : Prop :=
  .entered id ∈ log → .returned id ∈ log ∨ ∃ outcome, .settled id outcome ∈ log

/-- What has to stand in the log before an action. -/
@[grind] def Permitted (before : List Action) : Action → Prop
  | .registered id => .sealed ∉ before ∧ .registered id ∉ before
  | .entered id => .registered id ∈ before ∧ .sealed ∉ before
  | .hookStarted id => .entered id ∈ before ∧ .returned id ∉ before ∧ .hookStarted id ∉ before ∧
      .stateDropped id ∉ before ∧ (∀ later, id < later → Handled before later) ∧
      ∀ other, .hookStarted other ∈ before → id < other
  | .settled id _ => ∀ outcome, .settled id outcome ∉ before
  | .stateDropped id => .stateDropped id ∉ before ∧ Handled before id
  | .returned id => .hookStarted id ∉ before
  | _ => True

/-! ## The state and the log -/

/-- The finalizer will not come to the entry any more. -/
@[grind] def Phase.passed (id : Nat) : Phase → Prop
  | .visiting left => left ≤ id
  | .invoking current | .polling current | .concluding current _ => current < id
  | .joining current | .releasing current => current ≤ id
  | _ => False

/-- The finalizer is through with the entry. -/
@[grind] def Phase.cleared (id : Nat) : Phase → Prop
  | .visiting left => left ≤ id
  | .invoking current | .polling current | .concluding current _ | .joining current
  | .releasing current => current < id
  | .finished result => result.safeToClose = true
  | _ => False

/-- The entry whose hook the finalizer is at. -/
@[grind] def Phase.hook : Phase → Option Nat
  | .invoking id | .polling id | .concluding id _ => some id
  | _ => none

@[grind] def InvocationEvidence.handled (e : InvocationEvidence) : Prop :=
  e.entered = false ∨ e.cleanup ≠ .outstanding

/-- How the invocations stand to what was done. -/
structure Sound (s : Ledger) (log : List Action) : Prop where
  entered : ∀ id, (s.invocations id).entered ↔ .entered id ∈ log
  returned : ∀ id, (s.invocations id).cleanup = .normalReturned ↔ .returned id ∈ log
  settled : ∀ id outcome, (s.invocations id).cleanup = .terminationSettled outcome ↔
    .settled id outcome ∈ log
  started : ∀ id, (s.invocations id).terminationStarted ↔ .hookStarted id ∈ log
  dropped : ∀ id, .stateDropped id ∈ log → (s.invocations id).handled ∧
    ((s.invocations id).stateReleased ∨ (s.invocations id).releaseFailed)
  registered : ∀ id, id < s.registered ↔ .registered id ∈ log
  fresh : ∀ id, s.registered ≤ id → s.frames id = .absent
  locking : ∀ id, s.frames id = .absent ∨ s.frames id = .locking →
    (s.invocations id).entered = false ∧ (s.invocations id).cleanup = .outstanding
  handling : s.running → ∀ id, s.frames id = .handling → (s.invocations id).cleanup = .outstanding
  sealed : s.sealed ↔ .sealed ∈ log
  stopped : s.sealed → s.running = false
  early : s.sealed = false → ∀ id,
    (s.invocations id).terminationStarted = false ∧ .stateDropped id ∉ log
  finalizer : ∀ f, s.finalizer = some f → s.sealed ∧ f.entries = s.registered
  passed : ∀ f id, s.finalizer = some f → f.phase.passed id → (s.invocations id).handled
  hook : ∀ f id, s.finalizer = some f → f.phase.hook = some id → ¬ (s.invocations id).handled
  invoking : ∀ f id, s.finalizer = some f → f.phase = .invoking id →
    (s.invocations id).terminationStarted = false
  current : ∀ id, (s.invocations id).terminationStarted → ¬ (s.invocations id).handled →
    s.finalizer.bind (·.phase.hook) = some id
  released : ∀ id, (s.invocations id).stateReleased →
    (s.invocations id).handled ∧ (s.invocations id).releaseFailed = false ∧ s.sealed
  cleared : ∀ f id, s.finalizer = some f → f.phase.cleared id → id < s.registered →
    (s.invocations id).stateReleased
  order : ∀ id later, (s.invocations id).terminationStarted → id < later →
    (s.invocations later).handled
  justified : Justified Permitted log

theorem Sound.initial : Sound {} [] := by
  constructor <;> simp [Justified.nil, InvocationEvidence.handled]

namespace Sound

variable {s : Ledger} {log : List Action} {f : Finalizer} (h : Sound s log)

include h

theorem handled_iff (id : Nat) : Handled log id ↔ (s.invocations id).handled := by
  rw [Handled, InvocationEvidence.handled, ← h.entered, ← h.returned]
  cases hcleanup : (s.invocations id).cleanup with
  | outstanding => simp [← h.settled, hcleanup]
  | normalReturned => simp
  | terminationSettled outcome =>
    have hsettled := (h.settled id outcome).mp hcleanup
    simp only [ne_eq, reduceCtorEq, not_false_eq_true, or_true, iff_true, false_or]
    exact fun _ => ⟨outcome, hsettled⟩

theorem register : Sound s.register.1 (log ++ s.register.2) := by
  simp only [Ledger.register, Ledger.setFrame]
  split
  · rwa [List.append_nil]
  obtain ⟨⟩ := h
  split
  all_goals
    constructor
    all_goals first | assumption | grind -ring -linarith

theorem interrupt : Sound { s with running := false } log := by
  obtain ⟨⟩ := h
  constructor
  all_goals first | assumption | grind -ring -linarith

theorem finalize : Sound s.finalize.1 (log ++ s.finalize.2) := by
  simp only [Ledger.finalize]
  split
  · rwa [List.append_nil]
  split
  case h_3 => rwa [List.append_nil]
  all_goals
    obtain ⟨⟩ := h
    constructor
    all_goals first | assumption | grind -ring -linarith

/-- The finalizer moves on without touching an entry. -/
theorem goTo (hf : s.finalizer = some f) {f' : Finalizer} {phase : Phase}
    (hentries : f'.entries = f.entries)
    (hpassed : ∀ id, phase.passed id → (s.invocations id).handled)
    (hcleared : ∀ id, phase.cleared id → id < s.registered → (s.invocations id).stateReleased)
    (hhook : ∀ id, phase.hook = some id → ¬ (s.invocations id).handled)
    (hhook' : ∀ id, f.phase.hook = some id → phase.hook = some id)
    (hinvoking : ∀ id, phase = .invoking id → (s.invocations id).terminationStarted = false) :
    Sound (s.goTo f' phase) log := by
  simp only [Ledger.goTo]
  obtain ⟨⟩ := h
  constructor
  all_goals first | assumption | grind -ring -linarith

theorem finish (hf : s.finalizer = some f) (hhook : f.phase.hook = none) (result : Finalization)
    (hsafe : result.safeToClose = true → f.phase = .visiting 0) :
    Sound (s.finish f result).1 (log ++ (s.finish f result).2) := by
  simp only [Ledger.finish, Ledger.goTo]
  obtain ⟨⟩ := h
  constructor
  all_goals first | assumption | grind -ring -linarith

omit h

/-- Every entry after this one is handled, and no other hook is under way. -/
structure At (s : Ledger) (f : Finalizer) (id : Nat) : Prop where
  finalizer : s.finalizer = some f
  later : ∀ later, id < later → (s.invocations later).handled
  cleared : ∀ later, id < later → later < s.registered → (s.invocations later).stateReleased
  hook : ∀ other, f.phase.hook = some other → other = id

variable (h : Sound s log)

include h

theorem moveOn {id : Nat} (hat : At s f id) (hhook : f.phase.hook = none)
    (hhandled : (s.invocations id).handled) {f' : Finalizer} (hentries : f'.entries = f.entries)
    {phase : Phase} (hphase : phase = .joining id ∨ phase = .releasing id ∨
      phase = .visiting id ∧ (s.invocations id).stateReleased) : Sound (s.goTo f' phase) log := by
  have hlater := hat.later
  have hcleared := hat.cleared
  exact h.goTo hat.finalizer hentries (by grind) (by grind) (by grind) (by grind) (by grind)

theorem settle {id : Nat} (hat : At s f id) (hopen : ¬ (s.invocations id).handled)
    (outcome : CleanupOutcome) (releaseFailed failed : Bool) (phase : Phase)
    (hphase : phase = .joining id ∨ phase = .finished ⟨false, true⟩) :
    Sound ((s.update id fun e => { e with
        cleanup := .terminationSettled outcome
        releaseFailed := e.releaseFailed || releaseFailed }).goTo { f with failed } phase)
      (log ++ [.settled id outcome]) := by
  simp only [Ledger.update, Ledger.goTo]
  obtain ⟨⟩ := h
  obtain ⟨⟩ := hat
  constructor
  all_goals first | assumption | grind -ring -linarith

theorem visit {id : Nat} (hat : At s f id) (hhook : f.phase.hook = none) (expired : Bool) :
    Sound (s.visit f id expired).1 (log ++ (s.visit f id expired).2) := by
  simp only [Ledger.visit]
  split
  · rw [List.append_nil]
    exact h.moveOn hat hhook (by grind) rfl (.inr (.inl rfl))
  next hentered =>
    split
    · split
      · exact h.finish hat.finalizer hhook _ nofun
      · rw [List.append_nil]
        exact h.moveOn hat hhook (by grind) (by rfl) (.inl rfl)
    next hcleanup =>
      have hopen : ¬ (s.invocations id).handled := by
        have hcleanup : (s.invocations id).cleanup = .outstanding := by
          cases hc : (s.invocations id).cleanup <;> simp_all
        grind
      split
      · simpa [Ledger.settle] using
          h.settle hat hopen .notStarted false
            (f.failed || .notStarted != CleanupOutcome.succeeded) _ (.inl rfl)
      · have hcurrent := h.current id
        rw [List.append_nil]
        exact h.goTo hat.finalizer rfl (by grind [hat.later]) (by grind [hat.cleared]) (by grind)
          (by grind) (by grind [hat.finalizer])

theorem conclude {id : Nat} (hat : At s f id) (hopen : ¬ (s.invocations id).handled)
    (outcome : CleanupOutcome) (dropPanics : Bool) :
    Sound (s.conclude f id outcome dropPanics).1
      (log ++ (s.conclude f id outcome dropPanics).2) := by
  simp only [Ledger.conclude]
  split
  · simpa using h.settle hat hopen .panicked true f.failed _ (.inr rfl)
  · simpa [Ledger.settle] using
      h.settle hat hopen outcome false (f.failed || outcome != .succeeded) _ (.inl rfl)

theorem releaseState {id : Nat} (hat : At s f id) (hphase : f.phase = .releasing id)
    (dropPanics : Bool) :
    Sound (s.releaseState f id dropPanics).1 (log ++ (s.releaseState f id dropPanics).2) := by
  have hhandled := h.passed f id hat.finalizer (by simp [hphase, Phase.passed])
  have hhandled' := h.handled_iff id
  simp only [Ledger.releaseState]
  split
  · rw [List.append_nil]
    exact h.moveOn hat (by grind) hhandled rfl (.inr (.inr ⟨rfl, ‹_›⟩))
  split
  · exact h.finish hat.finalizer (by grind) _ nofun
  all_goals
    simp only [Ledger.update, Ledger.goTo]
    obtain ⟨⟩ := h
    obtain ⟨⟩ := hat
    split
    all_goals
      constructor
      all_goals first | assumption | grind -ring -linarith

/-- One move of the finalizer, at the invocation it has reached. -/
theorem step (hf : s.finalizer = some f) (answers : Answers) :
    Sound (s.step f answers).1 (log ++ (s.step f answers).2) := by
  have hpassed := fun id => h.passed f id hf
  have hcleared := fun id => h.cleared f id hf
  have hhook := fun id => h.hook f id hf
  have hat : ∀ id, f.phase.passed (id + 1) ∧ f.phase.cleared (id + 1) →
      (∀ other, f.phase.hook = some other → other = id) → At s f id := by
    refine fun id hid hother => ⟨hf, fun later hlater => hpassed later ?_,
      fun later hlater => hcleared later ?_, hother⟩
    all_goals cases hphase : f.phase <;> grind
  simp only [Ledger.step]
  split
  case h_1 hphase =>
    rw [List.append_nil]
    exact h.goTo hf rfl nofun nofun nofun (by grind) nofun
  case h_2 hphase =>
    split
    · rwa [List.append_nil]
    · exact h.finish hf (by grind) _ nofun
    · rw [List.append_nil]
      have hentries := (h.finalizer f hf).2
      refine h.goTo hf rfl (fun id hid => ?_) (by grind) nofun (by grind) nofun
      exact .inl (h.locking id (.inl (h.fresh id (by grind)))).1
  case h_3 hphase => exact h.finish hf (by grind) _ fun _ => hphase
  case h_4 id hphase =>
    have hid := hat id (by simp [hphase, Phase.passed, Phase.cleared]) (by grind)
    exact h.visit hid (by grind) _
  case h_5 id hphase =>
    have hopen := hhook id (by grind)
    split
    · rw [List.append_nil]
      exact h.goTo hf rfl (by grind) (by grind) (by grind) (by grind) nofun
    · have hlater : ∀ later, id < later → Handled log later := fun later hlater =>
        (h.handled_iff later).mpr (hpassed later (by simp [hphase, Phase.passed, hlater]))
      have hinvoking := h.invoking f id hf hphase
      have horder : ∀ other, .hookStarted other ∈ log → id < other := by
        intro other hother
        have hstarted := (h.started other).mpr hother
        rcases Nat.lt_trichotomy id other with hlt | rfl | hlt
        · exact hlt
        · rw [hinvoking] at hstarted
          cases hstarted
        · exact absurd (h.order other id hstarted hlt) hopen
      simp only [Ledger.update, Ledger.goTo]
      obtain ⟨⟩ := h
      constructor
      all_goals first | assumption | grind -ring -linarith
  case h_6 id hphase =>
    have hopen := hhook id (by grind)
    split
    on_goal 2 => split
    all_goals try rwa [List.append_nil]
    all_goals
      rw [List.append_nil]
      exact h.goTo hf rfl (by grind) (by grind) (by grind) (by grind) nofun
  case h_7 id outcome hphase =>
    have hid := hat id (by simp [hphase, Phase.passed, Phase.cleared]) (by grind)
    exact h.conclude hid (hhook id (by grind)) _ _
  case h_8 id hphase =>
    split
    · rwa [List.append_nil]
    · exact h.finish hf (by grind) _ nofun
    · rw [List.append_nil]
      exact h.goTo hf rfl (by grind) (by grind) nofun (by grind) nofun
  case h_9 id hphase =>
    have hid := hat id (by simp [hphase, Phase.passed, Phase.cleared]) (by grind)
    exact h.releaseState hid hphase _
  case h_10 => rwa [List.append_nil]

/-- Every move keeps the ledger in step with the log. -/
theorem act (event : Event) : Sound (act event s).1 (log ++ (act event s).2) := by
  cases event with
  | register => exact h.register
  | enter id | delegate id | resume id | «return» id | abandon id =>
    simp only [MiddlewareLedger.act, Ledger.enter, Ledger.setStage, Ledger.normalReturned,
      Ledger.abandon, Ledger.setFrame, Ledger.update]
    split
    all_goals try rwa [List.append_nil]
    obtain ⟨⟩ := h
    constructor
    all_goals first | assumption | grind -ring -linarith
  | interrupt => simpa [MiddlewareLedger.act] using h.interrupt
  | finalize => exact h.finalize
  | advance answers =>
    simp only [MiddlewareLedger.act, Ledger.advance]
    split
    · rwa [List.append_nil]
    next f hf => exact h.step hf answers

end Sound

/-! ## The counters -/

structure MiddlewareSnapshot where
  registered : Nat
  entered : Nat
  normalReturned : Nat
  terminationStarted : Nat
  completed : Nat
  failed : Nat
  timedOut : Nat
  panicked : Nat
  notStarted : Nat
  outstanding : Nat

variable (entries : List InvocationEvidence) (kind : MiddlewareCleanupEvidence → Bool)

/-- The invocations that were entered and whose cleanup is of the kind. -/
def countCleanup : Nat :=
  entries.countP fun e => e.entered && kind e.cleanup

/-- The evidence of each entry is read under its own lock. -/
def MiddlewareSnapshot.of : MiddlewareSnapshot where
  registered := entries.length
  entered := entries.countP (·.entered)
  normalReturned := countCleanup entries (· == .normalReturned)
  terminationStarted := entries.countP (·.terminationStarted)
  completed := countCleanup entries (· == .terminationSettled .succeeded)
  timedOut := countCleanup entries (· == .terminationSettled .timedOut)
  panicked := countCleanup entries (· == .terminationSettled .panicked)
  notStarted := countCleanup entries (· == .terminationSettled .notStarted)
  failed := countCleanup entries fun
    | .terminationSettled .failed | .terminationSettled .cancelled | .terminationSettled .unknown =>
      true
    | _ => false
  outstanding := countCleanup entries (· == .outstanding)

def Ledger.snapshot (s : Ledger) : MiddlewareSnapshot :=
  .of ((List.range s.registered).map s.invocations)

def MiddlewareSnapshot.Reconciles (s : MiddlewareSnapshot) : Prop :=
  s.entered ≤ s.registered ∧ s.entered = s.normalReturned +
    (s.completed + s.failed + s.timedOut + s.panicked + s.notStarted) + s.outstanding

theorem MiddlewareSnapshot.reconciles : (MiddlewareSnapshot.of entries).Reconciles := by
  refine ⟨List.countP_le_length, ?_⟩
  simp only [MiddlewareSnapshot.of, countCleanup]
  induction entries with
  | nil => rfl
  | cons e rest ih =>
    simp only [List.countP_cons, ih]
    obtain ⟨entered, _, cleanup, _, _, _⟩ := e
    cases entered with
    | false => simp
    | true =>
      rcases cleanup with _ | _ | outcome
      · simp; omega
      · simp; omega
      · cases outcome <;> simp <;> omega

/-! ## Runs -/

/-- In every run of the chain, of its interruption and of any calls and polls of the finalizer: a
hook is started at most once, for an invocation that entered and did not return, after every later
invocation has been dealt with and before its state is dropped; a state is dropped at most once; no
middleware is registered once the ledger is sealed; and the counters reconcile. -/
theorem middleware_termination_safe (events : List Event) :
    let w := system.run ({}, []) events
    Justified Permitted w.2 ∧ w.1.snapshot.Reconciles := by
  refine ⟨?_, MiddlewareSnapshot.reconciles _⟩
  exact (system.run_induct (P := Sound) Sound.initial (fun s log event h => h.act event)
    events).justified

end Lily.Http.MiddlewareLedger
