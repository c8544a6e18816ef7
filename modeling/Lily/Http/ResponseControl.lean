import Lily.Transition.Interleaving
import Lily.Transition.Precedence

/-!
# The transport control of one response

Commit, stop, flush and data release meet in one mutex, beside a few reads that are made without it:
the request clock before a commit, the state of the driver and the task before a stop, and the
flush counter of the connection. A call is a sequence of moves, one for each of these reads and one
for each locked section. What the request clock answers is part of the move; waiting may end at any
time.
-/

namespace Lily.Http.ResponseControl

open Transition

inductive ExecutionStopReason where
  | gracefulDeadline | forcedShutdown | requestTimeout | responseFinalizationTimeout
  | peerDisconnect | transportFailure | serviceWaiterDropped
  deriving DecidableEq

inductive ResponseCommit where
  | uncommitted | committedToProtocol
  deriving DecidableEq

inductive ResponseFrames where
  | pending | completed | failed | dropped
  deriving DecidableEq

/-- The state behind the mutex, and what the control shares with its connection and the server. -/
structure Control where
  http2 : Bool
  commit : ResponseCommit := .uncommitted
  frames : ResponseFrames := .pending
  stopRequested : Option ExecutionStopReason := none
  http1Flushed : Bool := false
  dataInFlight : Nat := 0
  /-- The flush to wait for. It and the counter of flushes are `u64` in the source: neither leaves
  that range before the connection was flushed `2 ^ 64 - 1` times. -/
  flushAfterData : Nat := 0
  eofWaitStarted : Bool := false
  finalization : Option Nat := none
  flushGeneration : Nat := 0
  driverReleased : Bool := false
  taskTerminal : Bool := false
  /-- When the shutdown stops transports, once a shutdown has begun. -/
  transportStop : Option Nat := none
  now : Nat := 0
  /-- The `TrackedData` values that have not been dropped. -/
  chunks : Nat := 0

inductive ResponseStopped where
  | stopped
  | fallbackRequired (status : Nat)
  deriving DecidableEq

inductive Action where
  | committed
  | refused (error : ResponseStopped)
  | panicked
  | framesFinished (outcome : ResponseFrames)
  | stopped (reason : ExecutionStopReason)
  | http1Flushed
  | tracked
  | released
  | underflow
  | waitBegan
  | flushed
  | endOfStream
  deriving DecidableEq

/-- What the request clock answers. -/
structure Clock where
  cooperativeDeadline : Option Nat := none
  reason : Option ExecutionStopReason := none

def responseFinalizationCap : Nat := 100

namespace Control

variable (fallback expired : Bool) (clock : Clock) (s : Control)

def finalizationStart : Nat :=
  s.finalization.getD
    ((clock.cooperativeDeadline.filter (· ≤ s.now)).getD s.now + responseFinalizationCap)

/-- The deadline as it stands, if one was set. -/
def effectiveDeadline : Option Nat :=
  s.finalization.map fun deadline => s.transportStop.elim deadline (min deadline)

def beginFinalization : Control :=
  { s with finalization := some (s.finalizationStart clock) }

def finalizationDeadline : Nat :=
  s.transportStop.elim (s.finalizationStart clock) (min (s.finalizationStart clock))

def timeoutStatus : Nat :=
  if clock.reason = some .requestTimeout then 504 else 503

/-- The end of a selection: a second one panics. -/
def select : Control × List Action :=
  if s.commit = .uncommitted then ({ s with commit := .committedToProtocol }, [.committed])
  else (s, [.panicked])

/-- The locked part; `expired` was read before. -/
def commitSelected : Control × List Action :=
  if s.stopRequested.isSome then (s, [.refused .stopped])
  else if fallback || expired || s.finalization.isSome then
    if s.finalizationDeadline clock ≤ s.now then
      (s.beginFinalization clock, [.refused .stopped])
    else if expired && !fallback then
      (s.beginFinalization clock, [.refused (.fallbackRequired (timeoutStatus clock))])
    else (s.beginFinalization clock).select
  else s.select

def framesFinished (outcome : ResponseFrames) (s : Control) : Control × List Action :=
  if s.frames = .pending then ({ s with frames := outcome }, [.framesFinished outcome]) else (s, [])

def observeHttp1Flush : Control × List Action :=
  if s.http2 then (s, [])
  else if s.commit = .committedToProtocol ∧ s.frames = .completed ∧ s.stopRequested = none ∧
      s.http1Flushed = false then
    ({ s with http1Flushed := true }, [.http1Flushed])
  else (s, [])

/-- Only HTTP/2 tracks its data; empty data is not tracked. -/
def trackData (empty : Bool) (s : Control) : Control × List Action :=
  if s.http2 && !empty then
    ({ s with dataInFlight := s.dataInFlight + 1, chunks := s.chunks + 1 }, [.tracked])
  else (s, [])

def dropData : Control × List Action :=
  if s.chunks = 0 then (s, [])
  else if s.dataInFlight = 0 then (s, [.underflow])
  else
    ({ s with chunks := s.chunks - 1, dataInFlight := s.dataInFlight - 1,
              flushAfterData := s.flushGeneration + 1 }, [.released])

def beginWait : Control × List Action :=
  if s.eofWaitStarted then (s, [])
  else
    ({ s with eofWaitStarted := true, flushAfterData := s.flushGeneration + 1 }, [.waitBegan])

def pollDataFlush : List Action :=
  if s.dataInFlight = 0 ∧ s.flushAfterData ≤ s.flushGeneration then [.endOfStream] else []

/-- `ResponseTransportSnapshot::is_terminal`; the driver and the task were read before. -/
def isTerminal (driverReleased taskTerminal : Bool) (s : Control) : Bool :=
  if s.http2 then taskTerminal else s.http1Flushed || driverReleased || taskTerminal

/-- The locked part of a stop request. -/
def requestStop (reason : ExecutionStopReason) (s : Control) : Control × List Action :=
  if s.stopRequested.isSome || s.http1Flushed then (s, [])
  else ({ s with stopRequested := some reason }, [.stopped reason])

end Control

/-- Where a call is. -/
inductive Phase where
  | idle
  | selecting (fallback expired : Bool)
  | polling
  | observing (reason : ExecutionStopReason) (driverReleased taskTerminal : Bool)
  | stopping (reason : ExecutionStopReason)
  /-- The watchdog at the top of its loop, before its look at the finalization, waiting for it,
  waiting for the request clock, and after the cutoff. -/
  | watching
  | looking
  | finalizing
  | waiting
  | cutoff (driverReleased taskTerminal : Bool)
  | deciding
  deriving DecidableEq

/-- The calls of the components, and what surrounds the control. -/
inductive Event where
  | commit (fallback expired : Bool)
  | beginFinalization (clock : Clock)
  | framesFinished (outcome : ResponseFrames)
  | observeHttp1Flush
  | trackData (empty : Bool)
  | dropData
  | pollDataFlush
  | requestStop (reason : ExecutionStopReason)
  | enforceDeadline
  /-- The next move of a call. -/
  | advance (clock : Clock)
  | observeFlush
  | releaseDriver
  | taskEnded
  | beginShutdown (transportStop : Nat)
  | tick (elapsed : Nat)

def turn (phase : Phase) (result : Control × List Action) : Turn Control Phase Action :=
  ⟨result.1, phase, result.2⟩

def advance (clock : Clock) (s : Control) : Phase → Turn Control Phase Action
  | .idle => turn .idle (s, [])
  | .selecting fallback expired => turn .idle (s.commitSelected fallback expired clock)
  | .polling => turn .idle (s, s.pollDataFlush)
  | .observing reason driverReleased taskTerminal =>
    turn (if s.isTerminal driverReleased taskTerminal then .idle else .stopping reason) (s, [])
  | .stopping reason => turn .idle (s.requestStop reason)
  | .watching => turn (if s.stopRequested.isSome then .idle else .looking) (s, [])
  | .looking => turn (if s.finalization.isSome then .finalizing else .waiting) (s, [])
  | .finalizing =>
    turn (.observing (clock.reason.getD .responseFinalizationTimeout) s.driverReleased
      s.taskTerminal) (s, [])
  | .waiting =>
    -- a change of the control starts the loop again, the end of the clock does not
    turn (if clock.reason.isSome then .cutoff s.driverReleased s.taskTerminal else .watching)
      (s, [])
  | .cutoff driverReleased taskTerminal =>
    turn (if s.isTerminal driverReleased taskTerminal then .idle else .deciding) (s, [])
  | .deciding =>
    if s.finalization.isSome then turn .watching (s, [])
    else if s.commit = .uncommitted then turn .watching (s.beginFinalization clock, [])
    else match clock.reason with
      | some reason =>
        turn (.observing reason s.driverReleased s.taskTerminal) (s, [])
      | none => turn .idle (s, [.panicked])

/-- A call begins when the component is in none; what surrounds the control happens at any time. -/
def act (event : Event) (s : Control) (phase : Phase) : Turn Control Phase Action :=
  match event with
  | .advance clock => advance clock s phase
  | .observeFlush => turn phase ({ s with flushGeneration := s.flushGeneration + 1 }, [.flushed])
  | .releaseDriver => turn phase ({ s with driverReleased := true }, [])
  | .taskEnded => turn phase ({ s with taskTerminal := true }, [])
  | .beginShutdown at' =>
    turn phase ({ s with transportStop := some (s.transportStop.getD at') }, [])
  | .tick elapsed => turn phase ({ s with now := s.now + elapsed }, [])
  | .commit fallback expired => call (.selecting fallback expired) (s, [])
  | .beginFinalization clock => call .idle (s.beginFinalization clock, [])
  | .framesFinished outcome => call .idle (s.framesFinished outcome)
  | .observeHttp1Flush => call .idle s.observeHttp1Flush
  | .trackData empty => call .idle (s.trackData empty)
  | .dropData => call .idle s.dropData
  | .pollDataFlush => call .polling s.beginWait
  | .requestStop reason => call (.observing reason s.driverReleased s.taskTerminal) (s, [])
  | .enforceDeadline => call .watching (s, [])
where
  call (next : Phase) (result : Control × List Action) : Turn Control Phase Action :=
    if phase = .idle then turn next result else turn phase (s, [])

def machine (ι : Type) : Machine ι Control Phase Event Action where
  act _ := act

def start {ι : Type} (http2 : Bool) : World ι Control Phase Action :=
  ⟨{ http2 }, fun _ => .idle, []⟩

/-! ## What one move can do -/

/-- Nothing that the others rely on changes; what is set of the deadline stays. -/
structure Calm (s s' : Control) : Prop where
  commit : s'.commit = s.commit := by rfl
  frames : s'.frames = s.frames := by rfl
  stopRequested : s'.stopRequested = s.stopRequested := by rfl
  http1Flushed : s'.http1Flushed = s.http1Flushed := by rfl
  dataInFlight : s'.dataInFlight = s.dataInFlight := by rfl
  flushAfterData : s'.flushAfterData = s.flushAfterData := by rfl
  eofWaitStarted : s'.eofWaitStarted = s.eofWaitStarted := by rfl
  flushGeneration : s'.flushGeneration = s.flushGeneration := by rfl
  chunks : s'.chunks = s.chunks := by rfl
  finalization : ∀ t, s.finalization = some t → s'.finalization = some t := by exact fun _ h => h
  transportStop : ∀ t, s.transportStop = some t → s'.transportStop = some t := by
    exact fun _ h => h

/-- What a move can do to the control, and what it logs. -/
inductive Effect (s : Control) : Control → List Action → Prop
  | calm {s' : Control} (h : Calm s s') (emitted : List Action)
      (hemitted : emitted = [] ∨ emitted = [.panicked] ∨ ∃ error, emitted = [.refused error]) :
      Effect s s' emitted
  | commit {s' : Control} (h : Calm s s') (hcommit : s.commit = .uncommitted)
      (hstop : s.stopRequested = none) :
      Effect s { s' with commit := .committedToProtocol } [.committed]
  | frames (outcome : ResponseFrames) (h : s.frames = .pending) :
      Effect s { s with frames := outcome } [.framesFinished outcome]
  | stop (reason : ExecutionStopReason) (hstop : s.stopRequested = none)
      (hflushed : s.http1Flushed = false) :
      Effect s { s with stopRequested := some reason } [.stopped reason]
  | http1Flush (hcommit : s.commit = .committedToProtocol) (hframes : s.frames = .completed)
      (hstop : s.stopRequested = none) (hflushed : s.http1Flushed = false) :
      Effect s { s with http1Flushed := true } [.http1Flushed]
  | track : Effect s
      { s with dataInFlight := s.dataInFlight + 1, chunks := s.chunks + 1 } [.tracked]
  | release (hchunks : s.chunks ≠ 0) (hdata : s.dataInFlight ≠ 0) : Effect s
      { s with chunks := s.chunks - 1, dataInFlight := s.dataInFlight - 1,
               flushAfterData := s.flushGeneration + 1 } [.released]
  | underflow (hchunks : s.chunks ≠ 0) (hdata : s.dataInFlight = 0) : Effect s s [.underflow]
  | wait (h : s.eofWaitStarted = false) : Effect s
      { s with eofWaitStarted := true, flushAfterData := s.flushGeneration + 1 } [.waitBegan]
  | flush : Effect s { s with flushGeneration := s.flushGeneration + 1 } [.flushed]
  | endOfStream (hwait : s.eofWaitStarted = true) (hdata : s.dataInFlight = 0)
      (hflush : s.flushAfterData ≤ s.flushGeneration) : Effect s s [.endOfStream]

section Effects

variable {s : Control} {phase : Phase}

theorem Effect.still : Effect s s [] := .calm {} [] (.inl rfl)

theorem calm_beginFinalization (clock : Clock) (s : Control) : Calm s (s.beginFinalization clock) :=
  { finalization := fun t h => by
      rw [Control.beginFinalization, Control.finalizationStart, h]
      rfl }

theorem select_effect {s' : Control} (h : Calm s s') (hstop : s.stopRequested = none) :
    Effect s s'.select.1 s'.select.2 := by
  unfold Control.select
  split
  next hcommit => exact .commit h (h.commit ▸ hcommit) hstop
  next => exact .calm h _ (.inr (.inl rfl))

theorem commitSelected_effect (fallback expired : Bool) (clock : Clock) :
    Effect s (s.commitSelected fallback expired clock).1
      (s.commitSelected fallback expired clock).2 := by
  have hfinal := calm_beginFinalization clock s
  fun_cases s.commitSelected fallback expired clock with
  | case1 => exact .calm {} _ (.inr (.inr ⟨_, rfl⟩))
  | case2 | case3 => exact .calm hfinal _ (.inr (.inr ⟨_, rfl⟩))
  | case4 hstop => exact select_effect hfinal (by simpa using hstop)
  | case5 hstop => exact select_effect {} (by simpa using hstop)

theorem requestStop_effect (reason : ExecutionStopReason) :
    Effect s (s.requestStop reason).1 (s.requestStop reason).2 := by
  unfold Control.requestStop
  split
  · exact .still
  next h =>
    rw [Bool.or_eq_true, not_or, Bool.not_eq_true, Bool.not_eq_true, Option.isSome_eq_false_iff,
      Option.isNone_iff_eq_none] at h
    exact .stop reason h.1 h.2

theorem advance_effect (clock : Clock) (hpolling : phase = .polling → s.eofWaitStarted = true) :
    Effect s (advance clock s phase).shared (advance clock s phase).emitted := by
  cases phase with
  | idle | observing _ _ _ | watching | looking | finalizing | waiting | cutoff _ _ => exact .still
  | selecting fallback expired => exact commitSelected_effect fallback expired clock
  | stopping reason => exact requestStop_effect reason
  | polling =>
    simp only [advance, turn, Control.pollDataFlush]
    split
    next h => exact .endOfStream (hpolling rfl) h.1 h.2
    next => exact .still
  | deciding =>
    simp only [advance]
    split_ifs
    · exact .still
    · exact .calm (calm_beginFinalization clock s) [] (.inl rfl)
    · split
      · exact .still
      · exact .calm {} _ (.inr (.inl rfl))

theorem call_effect {next : Phase} {result : Control × List Action}
    (h : Effect s result.1 result.2) :
    Effect s (act.call s phase next result).shared (act.call s phase next result).emitted := by
  unfold act.call
  split
  · exact h
  · exact .still

/-- Every move has one of the effects, whoever makes it. -/
theorem act_effect (event : Event) (hpolling : phase = .polling → s.eofWaitStarted = true) :
    Effect s (act event s phase).shared (act event s phase).emitted := by
  cases event with
  | advance clock => exact advance_effect clock hpolling
  | observeFlush => exact .flush
  | releaseDriver | taskEnded | tick elapsed => exact .calm {} [] (.inl rfl)
  | beginShutdown cutoff =>
    exact .calm { transportStop := fun t h => by simp [act, turn, h] } [] (.inl rfl)
  | commit fallback expired | requestStop reason | enforceDeadline => exact call_effect .still
  | beginFinalization clock =>
    exact call_effect (.calm (calm_beginFinalization clock s) [] (.inl rfl))
  | framesFinished outcome =>
    refine call_effect ?_
    fun_cases s.framesFinished outcome with
    | case1 h => exact .frames outcome h
    | case2 => exact .still
  | observeHttp1Flush =>
    refine call_effect ?_
    fun_cases Control.observeHttp1Flush s with
    | case2 _ h => exact .http1Flush h.1 h.2.1 h.2.2.1 h.2.2.2
    | _ => exact .still
  | trackData empty =>
    refine call_effect ?_
    fun_cases s.trackData empty with
    | case1 => exact .track
    | case2 => exact .still
  | dropData =>
    refine call_effect ?_
    fun_cases Control.dropData s with
    | case1 => exact .still
    | case2 hchunks hdata => exact .underflow hchunks hdata
    | case3 hchunks hdata => exact .release hchunks hdata
  | pollDataFlush =>
    refine call_effect ?_
    fun_cases Control.beginWait s with
    | case1 => exact .still
    | case2 h => exact .wait (Bool.not_eq_true _ ▸ h)

end Effects

/-! ## What the log says -/

/-- A flush has happened since the last release and the beginning of the wait. -/
def settled (log : List Action) : Bool :=
  log.foldl (fun settled action => match action with
    | .flushed => true
    | .released | .waitBegan => false
    | _ => settled) false

/-- What has to stand in the log before an action. -/
@[grind] def Permitted (before : List Action) : Action → Prop
  | .committed => .committed ∉ before ∧ ∀ reason, .stopped reason ∉ before
  | .stopped _ => (∀ reason, .stopped reason ∉ before) ∧ .http1Flushed ∉ before
  | .http1Flushed => .committed ∈ before ∧ .framesFinished .completed ∈ before ∧
      ∀ reason, .stopped reason ∉ before
  | .endOfStream => before.count .released = before.count .tracked ∧ .waitBegan ∈ before ∧
      settled before = true
  | .underflow => False
  | _ => True

/-- How the control stands to what was done. -/
structure Sound (s : Control) (log : List Action) : Prop where
  committed : s.commit = .committedToProtocol ↔ .committed ∈ log
  completed : s.frames = .completed → .framesFinished .completed ∈ log
  stopped : ∀ reason, s.stopRequested = some reason ↔ .stopped reason ∈ log
  flushed : s.http1Flushed = true ↔ .http1Flushed ∈ log
  chunks : s.dataInFlight = s.chunks
  live : s.chunks + log.count .released = log.count .tracked
  wait : s.eofWaitStarted = true ↔ .waitBegan ∈ log
  settled : s.eofWaitStarted = true → s.flushAfterData ≤ s.flushGeneration →
    settled log = true
  generation : s.flushGeneration = log.count .flushed
  near : s.flushAfterData ≤ s.flushGeneration + 1
  justified : Justified Permitted log

theorem settled_concat (log : List Action) (a : Action) :
    settled (log ++ [a]) = match a with
      | .flushed => true
      | .released | .waitBegan => false
      | _ => settled log := by
  rw [settled, List.foldl_append]
  rfl

namespace Sound

variable {s s' : Control} {log emitted : List Action}

theorem initial (http2 : Bool) : Sound { http2 } [] := by
  constructor <;> simp [Justified.nil]

/-- A calm step keeps the state that the log speaks of, and logs no more than an error. -/
theorem calm (h : Sound s log) (hcalm : Calm s s')
    (hemitted : emitted = [] ∨ emitted = [.panicked] ∨ ∃ error, emitted = [.refused error]) :
    Sound s' (log ++ emitted) := by
  have hjustified := h.justified
  obtain ⟨⟩ := h
  rcases hemitted with rfl | rfl | ⟨error, rfl⟩
  · refine ⟨?_, ?_, ?_, ?_, ?_, ?_, ?_, ?_, ?_, ?_, by rwa [List.append_nil]⟩
    all_goals grind -ring -linarith [Calm]
  all_goals
    refine ⟨?_, ?_, ?_, ?_, ?_, ?_, ?_, ?_, ?_, ?_, hjustified.snoc trivial⟩
    all_goals grind -ring -linarith [settled_concat, Calm]

/-- The log grows by one action at a time, and the state follows it. -/
theorem step (h : Sound s log) (heffect : Effect s s' emitted) : Sound s' (log ++ emitted) := by
  cases heffect with
  | calm hcalm emitted hemitted => exact h.calm hcalm hemitted
  | underflow hchunks' hdata => exact absurd (h.chunks.symm.trans hdata) hchunks'
  | commit | frames | stop | http1Flush | track | release | wait | flush | endOfStream =>
    have hjustified := h.justified
    obtain ⟨⟩ := h
    refine ⟨?_, ?_, ?_, ?_, ?_, ?_, ?_, ?_, ?_, ?_, hjustified.snoc ?_⟩
    all_goals grind -ring -linarith [settled_concat, Permitted, Calm]

end Sound

/-! ## Runs -/

section Runs

variable {ι : Type} [DecidableEq ι]

/-- The invariant of all runs. -/
structure Invariant (w : World ι Control Phase Action) : Prop where
  sound : Sound w.shared w.actions
  polling : ∀ i, w.locals i = .polling → w.shared.eofWaitStarted = true

theorem Effect.eofWaitStarted {s s' : Control} {emitted : List Action} (h : Effect s s' emitted)
    (hwait : s.eofWaitStarted = true) : s'.eofWaitStarted = true := by
  cases h with
  | calm hcalm => rw [hcalm.eofWaitStarted, hwait]
  | commit hcalm => exact hcalm.eofWaitStarted.trans hwait
  | wait => rfl
  | _ => exact hwait

theorem polling_of_act {s : Control} {phase : Phase} {event : Event}
    (h : (act event s phase).own = .polling) :
    phase = .polling ∨ (act event s phase).shared.eofWaitStarted = true := by
  cases event with
  | advance clock =>
    cases phase <;> simp only [act, advance, turn] at h
    all_goals grind -ring -linarith
  | pollDataFlush =>
    by_cases hidle : phase = .idle
    · simp only [act, act.call, if_pos hidle, turn, Control.beginWait]
      split
      next hwait => exact .inr hwait
      next => exact .inr rfl
    · simp only [act, act.call, if_neg hidle, turn] at h
      exact .inl h
  | _ => simp only [act, act.call, turn] at h; grind

variable {w : World ι Control Phase Action}

theorem Invariant.step (h : Invariant w) (i : ι)
    (event : Event) : Invariant ((machine ι).step w (i, event)) := by
  have heffect := act_effect event (h.polling i)
  refine ⟨?_, fun j hj => ?_⟩
  · rw [Machine.step_actions]
    exact h.sound.step heffect
  · obtain rfl | hij := eq_or_ne j i
    · rw [Machine.step_locals_self] at hj
      rcases polling_of_act hj with hphase | hwait
      · exact heffect.eofWaitStarted (h.polling j hphase)
      · exact hwait
    · rw [Machine.step_locals_other _ _ _ _ _ hij] at hj
      exact heffect.eofWaitStarted (h.polling j hj)

theorem Invariant.run (http2 : Bool) (moves : List (ι × Event)) :
    Invariant ((machine ι).run (start http2) moves) := by
  refine (machine ι).run_induct ⟨Sound.initial http2, nofun⟩ ?_ moves
  exact fun w i event h => h.step i event

/-- What is decided for good: the reason of the stop and, but for getting earlier, the deadline. -/
structure Kept (s s' : Control) : Prop where
  stopRequested : ∀ reason, s.stopRequested = some reason → s'.stopRequested = some reason
  finalization : ∀ t, s.finalization = some t → s'.finalization = some t
  transportStop : ∀ t, s.transportStop = some t → s'.transportStop = some t

theorem Effect.kept {s s' : Control} {emitted : List Action} (h : Effect s s' emitted) :
    Kept s s' := by
  cases h with
  | calm hcalm | commit hcalm =>
    exact ⟨fun r h => hcalm.stopRequested.trans h, hcalm.finalization, hcalm.transportStop⟩
  | stop reason hstop =>
    refine ⟨fun r h => ?_, fun _ h => h, fun _ h => h⟩
    rw [hstop] at h
    cases h
  | _ => exact ⟨fun _ h => h, fun _ h => h, fun _ h => h⟩

theorem Kept.run (hw : Invariant w) (moves : List (ι × Event)) :
    Kept w.shared ((machine ι).run w moves).shared := by
  refine ((machine ι).run_induct (P := fun w' => Invariant w' ∧ Kept w.shared w'.shared)
    ⟨hw, fun _ h => h, fun _ h => h, fun _ h => h⟩ ?_ moves).2
  rintro w' i event ⟨hinv, hkept⟩
  have hstep := (act_effect event (hinv.polling i)).kept
  exact ⟨hinv.step i event, fun r h => hstep.stopRequested r (hkept.stopRequested r h),
    fun t h => hstep.finalization t (hkept.finalization t h),
    fun t h => hstep.transportStop t (hkept.transportStop t h)⟩

theorem Kept.effectiveDeadline {s s' : Control} (h : Kept s s') {t : Nat}
    (ht : s.effectiveDeadline = some t) : ∃ t', s'.effectiveDeadline = some t' ∧ t' ≤ t := by
  obtain ⟨deadline, hdeadline, rfl⟩ := Option.map_eq_some_iff.mp ht
  rw [Control.effectiveDeadline, h.finalization deadline hdeadline]
  refine ⟨_, rfl, ?_⟩
  cases hstop : s.transportStop with
  | some cutoff => rw [h.transportStop cutoff hstop]
  | none =>
    cases s'.transportStop with
    | none => exact le_rfl
    | some cutoff => exact min_le_left _ _

/-- In every run of any number of components: each commit, stop, flush, release and end of stream
has before it what it needs, the in-flight counter follows the live chunks, no counter of flushes is
ahead of the flushes by more than one, the reason of a stop stays, and the deadline never gets
later. -/
theorem response_control_safe (http2 : Bool) (moves later : List (ι × Event)) :
    let w := (machine ι).run (start http2) moves
    let w' := (machine ι).run (start http2) (moves ++ later)
    Justified Permitted w.actions ∧ w.shared.dataInFlight = w.shared.chunks ∧
      w.shared.flushGeneration = w.actions.count .flushed ∧
      w.shared.flushAfterData ≤ w.actions.count .flushed + 1 ∧
      (∀ reason, w.shared.stopRequested = some reason → w'.shared.stopRequested = some reason) ∧
      ∀ t, w.shared.effectiveDeadline = some t →
        ∃ t', w'.shared.effectiveDeadline = some t' ∧ t' ≤ t := by
  intro w w'
  have hinv : Invariant w := Invariant.run http2 moves
  have hkept : Kept w.shared w'.shared := by
    show Kept w.shared ((machine ι).run (start http2) (moves ++ later)).shared
    rw [Machine.run_append]
    exact Kept.run hinv later
  exact ⟨hinv.sound.justified, hinv.sound.chunks, hinv.sound.generation,
    hinv.sound.generation ▸ hinv.sound.near, hkept.stopRequested,
    fun t ht => hkept.effectiveDeadline ht⟩

end Runs

end Lily.Http.ResponseControl
