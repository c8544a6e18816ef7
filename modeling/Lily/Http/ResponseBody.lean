import Lily.Http.ResponseControl
import Lily.Transition.Reactive

/-!
# The body of a response between its producer and the transport

The request's owner polls the source of the body, the transport polls a bridge. They share a channel
of demands with room for one, the one-shot reply of each demand, and a token that the bridge cancels
when it is dropped too early. Each party moves one shared access at a time; what the source, the
clock and the destructors of the application do is part of the move.
-/

namespace Lily.Http.ResponseBody

open Transition
open ResponseControl (ExecutionStopReason)

abbrev Bytes := List UInt8

inductive ResponseBodyError where
  | streamChunkTooLarge (limitBytes : Nat)
  | streamLimitExceeded (limitBytes : Nat)
  | streamLengthExceeded (expectedBytes : Nat)
  | streamLengthIncomplete (expectedBytes actualBytes : Nat)
  | streamSourceFailed
  | streamInterrupted
  deriving DecidableEq

/-- `Option<Result<Bytes, ResponseBodyError>>`. -/
inductive Chunk where
  | data (bytes : Bytes)
  | failed (error : ResponseBodyError)
  | ended
  deriving DecidableEq

/-! ## The source -/

/-- What the application's stream answers to one poll. -/
inductive SourcePoll where
  | pending
  | chunk (bytes : Bytes)
  | failed (error : ResponseBodyError)
  | ended
  | panicked

inductive Polled where
  | pending
  | ready (chunk : Chunk)
  | panicked
  deriving DecidableEq

structure ResponseBodyStream where
  exactLength : Option Nat := none
  maxChunkBytes : Nat := 2 ^ 64 - 1
  maxTotalBytes : Option Nat := none
  pending : Bytes := []
  acceptedBytes : Nat := 0
  emittedBytes : Nat := 0
  terminal : Bool := false

def maxEmptyChunksPerPoll : Nat := 16

namespace ResponseBodyStream

def emit (maxFrameBytes : Nat) (s : ResponseBodyStream) : ResponseBodyStream × Polled :=
  let length := min s.pending.length maxFrameBytes
  ({ s with pending := s.pending.drop length, emittedBytes := s.emittedBytes + length },
    .ready (.data (s.pending.take length)))

def fail (error : ResponseBodyError) (s : ResponseBodyStream) : ResponseBodyStream × Polled :=
  ({ s with terminal := true }, .ready (.failed error))

/-- The limits that a chunk of the application has to meet. -/
def refusal (bytes : Bytes) (s : ResponseBodyStream) : Option ResponseBodyError :=
  let next := s.acceptedBytes + bytes.length
  if s.maxChunkBytes < bytes.length then some (.streamChunkTooLarge s.maxChunkBytes)
  else if 2 ^ 64 ≤ next then some (.streamLimitExceeded (s.maxTotalBytes.getD (2 ^ 64 - 1)))
  else match s.maxTotalBytes.filter (· < next) with
    | some limit => some (.streamLimitExceeded limit)
    | none => (s.exactLength.filter (· < next)).map .streamLengthExceeded

def finish (s : ResponseBodyStream) : ResponseBodyStream × Polled :=
  match s.exactLength.filter (· ≠ s.acceptedBytes) with
  | some expected => s.fail (.streamLengthIncomplete expected s.acceptedBytes)
  | none => ({ s with terminal := true }, .ready .ended)

/-- The loop while no accepted bytes are left; `empty` counts the empty chunks of this poll. -/
def pollSource (maxFrameBytes : Nat) :
    Nat → List SourcePoll → ResponseBodyStream → ResponseBodyStream × Polled
  | empty, .chunk [] :: rest, s =>
    if empty + 1 = maxEmptyChunksPerPoll then (s, .pending)
    else pollSource maxFrameBytes (empty + 1) rest s
  | _, .chunk bytes :: _, s =>
    match s.refusal bytes with
    | some error => s.fail error
    | none =>
      emit maxFrameBytes
        { s with pending := bytes, acceptedBytes := s.acceptedBytes + bytes.length }
  | _, .failed error :: _, s => s.fail error
  | _, .ended :: _, s => s.finish
  | _, .panicked :: _, s => (s, .panicked)
  | _, .pending :: _, s | _, [], s => (s, .pending)

def pollBoundedChunk (frameBytes : Nat) (answers : List SourcePoll) (s : ResponseBodyStream) :
    ResponseBodyStream × Polled :=
  if s.terminal then (s, .ready .ended)
  else if s.pending = [] then pollSource (max frameBytes 1) 0 answers s
  else s.emit (max frameBytes 1)

/-- What is accepted is emitted or pending, and stays within the declared length. -/
structure WellFormed (s : ResponseBodyStream) : Prop where
  accepted : s.emittedBytes + s.pending.length = s.acceptedBytes
  exactLength : ∀ n, s.exactLength = some n → s.acceptedBytes ≤ n

/-- What a poll leaves behind. -/
structure Follows (s s' : ResponseBodyStream) (polled : Polled) : Prop where
  wellFormed : WellFormed s'
  exactLength : s'.exactLength = s.exactLength
  emitted : ∀ bytes, polled = .ready (.data bytes) →
    s'.emittedBytes = s.emittedBytes + bytes.length
  silent : (∀ bytes, polled ≠ .ready (.data bytes)) → s'.emittedBytes = s.emittedBytes

variable {s : ResponseBodyStream} (h : WellFormed s)

include h

theorem WellFormed.emit (frame : Nat) : Follows s (s.emit frame).1 (s.emit frame).2 := by
  obtain ⟨haccepted, hexact⟩ := h
  refine ⟨⟨?_, hexact⟩, rfl, ?_, ?_⟩
  · simp only [ResponseBodyStream.emit, List.length_drop]
    omega
  · simp only [ResponseBodyStream.emit]
    rintro bytes ⟨rfl⟩
    rw [List.length_take]
    omega
  · exact fun hsilent => absurd rfl (hsilent _)

theorem WellFormed.fail (error : ResponseBodyError) : Follows s (s.fail error).1 (s.fail error).2 :=
  ⟨⟨h.accepted, h.exactLength⟩, rfl, nofun, fun _ => rfl⟩

theorem WellFormed.still {polled : Polled}
    (hpolled : ∀ bytes, polled ≠ .ready (.data bytes)) : Follows s s polled :=
  ⟨h, rfl, fun bytes hbytes => absurd hbytes (hpolled bytes), fun _ => rfl⟩

omit h in
theorem refusal_eq_none {bytes : Bytes} (h : s.refusal bytes = none) :
    ∀ n, s.exactLength = some n → s.acceptedBytes + bytes.length ≤ n := by
  intro n hn
  simp only [refusal, hn] at h
  split_ifs at h
  split at h
  · cases h
  · simpa using h

theorem WellFormed.finish : Follows s s.finish.1 s.finish.2 := by
  unfold ResponseBodyStream.finish
  split
  · exact h.fail _
  · exact ⟨⟨h.accepted, h.exactLength⟩, rfl, nofun, fun _ => rfl⟩

theorem WellFormed.pollSource (hpending : s.pending = []) (frame : Nat) (empty : Nat)
    (answers : List SourcePoll) :
    Follows s (s.pollSource frame empty answers).1 (s.pollSource frame empty answers).2 := by
  fun_induction ResponseBodyStream.pollSource frame empty answers s with
  | case1 | case7 | case8 | case9 => exact h.still nofun
  | case2 _ _ _ _ ih => exact ih h hpending
  | case3 | case5 => exact h.fail _
  | case4 _ bytes _ s _ hrefusal =>
    have haccepted : WellFormed
        { s with pending := bytes, acceptedBytes := s.acceptedBytes + bytes.length } := by
      refine ⟨?_, refusal_eq_none hrefusal⟩
      have hempty := h.accepted
      rw [hpending, List.length_nil] at hempty
      exact congrArg (· + bytes.length) hempty
    obtain ⟨hwellFormed, hexact, hemitted, hsilent⟩ := haccepted.emit frame
    exact ⟨hwellFormed, hexact, hemitted, hsilent⟩
  | case6 => exact h.finish

theorem WellFormed.pollBoundedChunk (frame : Nat) (answers : List SourcePoll) :
    Follows s (s.pollBoundedChunk frame answers).1 (s.pollBoundedChunk frame answers).2 := by
  unfold ResponseBodyStream.pollBoundedChunk
  split
  · exact h.still nofun
  · split
    next hpending => exact h.pollSource hpending _ _ _
    next => exact h.emit _

end ResponseBodyStream

/-! ## The producer and the bridge -/

inductive ResponseBodyOutcome where
  | completed | notStarted | interrupted | failed | panicked
  deriving DecidableEq

/-- A one-shot reply, as its receiver finds it. -/
inductive Reply where
  | waiting
  | sent (chunk : Chunk)
  | dropped

/-- The bridge in use, after the body of its `drop`, and without its sender and its receiver. -/
inductive Stage where
  | alive | dropping | closed | dropped
  deriving DecidableEq

/-- Where the owner is in `finish_response`. The error of a terminal chunk is absent for a clean
end. -/
inductive Phase where
  | published
  | receiving
  | received
  | polling
  | copied (bytes : Bytes)
  | finishing (outcome : ResponseBodyOutcome) (terminal : Option ResponseBodyError)
  | releasing (terminal : Option ResponseBodyError)
  | replying (terminal : Option ResponseBodyError)
  | closing
  | finished
  deriving DecidableEq

/-- The owner, the bridge, and what they share. -/
structure State where
  source : ResponseBodyStream
  frameBytes : Nat
  phase : Phase := .published
  started : Bool := false
  /-- The owner has seen a stop and polls until the cutoff. -/
  signalled : Bool := false
  reply : Option Nat := none
  queue : Option Nat := none
  demandClosed : Bool := false
  replies : Nat → Reply := fun _ => .waiting
  issued : Nat := 0
  pending : Option Nat := none
  remaining : Option Nat
  done : Bool := false
  stage : Stage := .alive
  disconnected : Bool := false
  stopReason : Option ExecutionStopReason := none

inductive Action where
  | demanded
  /-- A demand got its reply, or its sender was dropped. -/
  | resolved
  | polled (result : Polled)
  | outcome (outcome : ResponseBodyOutcome)
  | sourceDropped (panicked : Bool)
  /-- The bridge returned the reply of its demand, an error for want of a producer, or an end for
  being done. -/
  | collected (chunk : Chunk)
  | refused
  | fused
  | disconnecting (cancels : Bool)
  | stopRequested (reason : ExecutionStopReason)
  | stopped (reason : ExecutionStopReason)
  deriving DecidableEq

/-- What the application and the clock do during a move of the owner. -/
structure Answers where
  source : List SourcePoll := []
  expired : Bool := false
  dropPanics : Bool := false

/-- The next move of the bridge, of the owner or of a stop. -/
inductive Event where
  | poll
  | collect
  | drop
  | produce (answers : Answers)
  | observeStop (transportReason : Option ExecutionStopReason)
  | cutoff
  | stop (reason : ExecutionStopReason)

namespace State

/-- `own_response_stream`. -/
def own (source : ResponseBodyStream) (frameBytes : Nat) : State :=
  { source, frameBytes, remaining := source.exactLength }

def exactLengthConsumed (s : State) : Bool := s.remaining == some 0 && s.pending.isNone

/-- `poll_chunk` up to its demand. -/
def poll (s : State) : State × List Action :=
  if s.stage ≠ .alive then (s, [])
  else if s.done then (s, [.fused])
  else if s.pending ≠ none then (s, [])
  else if s.demandClosed ∨ s.queue ≠ none then ({ s with done := true }, [.refused])
  else
    ({ s with queue := some s.issued, pending := some s.issued, issued := s.issued + 1,
              replies := Function.update s.replies s.issued .waiting }, [.demanded])

def take (s : State) : Chunk → State × List Action
  | .data bytes =>
    ({ s with pending := none, remaining := s.remaining.map (· - bytes.length) },
      [.collected (.data bytes)])
  | chunk => ({ s with pending := none, done := true }, [.collected chunk])

/-- The rest of `poll_chunk`. -/
def collect (s : State) : State × List Action :=
  if s.stage ≠ .alive then (s, [])
  else match s.pending with
    | none => (s, [])
    | some id => match s.replies id with
      | .waiting => (s, [])
      | .sent chunk => s.take chunk
      | .dropped => s.take (.failed .streamInterrupted)

def drop (s : State) : State × List Action :=
  match s.stage with
  | .alive =>
    ({ s with stage := .dropping, disconnected := !s.exactLengthConsumed },
      [.disconnecting (!s.exactLengthConsumed)])
  | .dropping => ({ s with stage := .closed }, [])
  | .closed | .dropped => ({ s with stage := .dropped }, [])

/-- The reply to the demand in hand; it is lost on a bridge that is gone. -/
def answer (chunk : Chunk) (phase : Phase) (s : State) : State × List Action :=
  match s.reply with
  | none => ({ s with phase }, [])
  | some id =>
    ({ s with
        phase, reply := none
        replies := if s.stage = .dropped then s.replies
          else Function.update s.replies id (.sent chunk) }, [.resolved])

def pollSource (answers : Answers) (s : State) : State × List Action :=
  let result := s.source.pollBoundedChunk s.frameBytes answers.source
  let next : Phase := match result.2 with
    | .pending => .polling
    | .panicked => .finishing .panicked (some .streamSourceFailed)
    | .ready (.data bytes) =>
      if answers.dropPanics then .finishing .panicked (some .streamSourceFailed)
      else .copied bytes
    | .ready (.failed error) => .finishing .failed (some error)
    | .ready .ended => .finishing .completed none
  ({ s with source := result.1, started := true, phase := next }, [.polled result.2])

/-- The outcome when no demand can come any more. -/
def abandoned (s : State) : ResponseBodyOutcome :=
  if !s.disconnected && s.source.exactLength == some s.source.emittedBytes then .completed
  else if s.started then .interrupted else .notStarted

def produce (answers : Answers) (s : State) : State × List Action :=
  match s.phase with
  | .published => ({ s with phase := .receiving }, [])
  | .receiving => match s.queue with
    | some id => ({ s with queue := none, reply := some id, phase := .received }, [])
    | none =>
      if s.stage = .closed ∨ s.stage = .dropped then
        ({ s with phase := .finishing s.abandoned (some .streamInterrupted) }, [])
      else (s, [])
  | .received =>
    if !s.started && answers.expired then
      ({ s with phase := .finishing .notStarted (some .streamInterrupted) }, [])
    else s.pollSource answers
  | .polling => s.pollSource answers
  | .copied bytes =>
    s.answer (.data bytes)
      (if s.stage = .dropped then .finishing .interrupted none else .receiving)
  | .finishing outcome terminal => ({ s with phase := .releasing terminal }, [.outcome outcome])
  | .releasing terminal =>
    ({ s with phase := .replying terminal }, [.sourceDropped answers.dropPanics])
  | .replying terminal => s.answer (terminal.elim .ended .failed) .closing
  | .closing => match s.queue with
    | some id =>
      ({ s with phase := .finished, demandClosed := true, queue := none,
                replies := Function.update s.replies id .dropped }, [.resolved])
    | none => ({ s with phase := .finished, demandClosed := true }, [])
  | .finished => (s, [])

/-- The owner is suspended in its loop. -/
def suspended (s : State) : Bool := s.phase == .receiving || s.phase == .polling

/-- The stop branch of the owner's select, which comes before its loop. -/
def observeStop (transportReason : Option ExecutionStopReason) (s : State) : State × List Action :=
  if s.suspended ∧ s.signalled = false ∧ (s.stopReason ≠ none ∨ s.disconnected) then
    let reason := s.stopReason.getD (transportReason.getD .peerDisconnect)
    ({ s with signalled := true, stopReason := some reason }, [.stopped reason])
  else (s, [])

def cutoff (s : State) : State × List Action :=
  if s.suspended ∧ s.signalled then
    ({ s with phase := .finishing (if s.started then .interrupted else .notStarted)
                (some .streamInterrupted) }, [])
  else (s, [])

def stop (reason : ExecutionStopReason) (s : State) : State × List Action :=
  ({ s with stopReason := some (s.stopReason.getD reason) }, [.stopRequested reason])

end State

def act : Event → State → State × List Action
  | .poll => State.poll
  | .collect => State.collect
  | .drop => State.drop
  | .produce answers => State.produce answers
  | .observeStop transportReason => State.observeStop transportReason
  | .cutoff => State.cutoff
  | .stop reason => State.stop reason

def system : Reactive State Event Action := ⟨act⟩

/-! ## What the log says -/

variable (exact : Option Nat) (log : List Action)

def emittedFrames : List Bytes :=
  log.filterMap fun | .polled (.ready (.data bytes)) => some bytes | _ => none

/-- The frames that the bridge returned. -/
def takenFrames : List Bytes :=
  log.filterMap fun | .collected (.data bytes) => some bytes | _ => none

def emittedBytes : Nat := (emittedFrames log).flatten.length

def takenBytes : Nat := (takenFrames log).flatten.length

def collections : Nat :=
  log.countP fun | .collected _ => true | _ => false

/-- An end or an error that the bridge returned while it was not done. -/
@[grind] def Action.isTerminal : Action → Bool
  | .refused | .collected (.failed _) | .collected .ended => true
  | _ => false

/-- What the bytes, the demands and the ends do not depend on. -/
@[grind] def Action.quiet : Action → Bool
  | .outcome _ | .fused | .disconnecting _ | .stopRequested _ | .stopped _ => true
  | .polled .pending | .polled .panicked | .polled (.ready (.failed _)) => true
  | _ => false

/-- The transport has all the bytes of the declared length. -/
@[grind] def FullyTaken : Prop :=
  exact = some (takenBytes log)

def SourceEnded : Prop := .polled (.ready .ended) ∈ log

def BridgeEnded : Prop := ∃ a ∈ log, a.isTerminal

def SourceDropped : Prop := ∃ panicked, .sourceDropped panicked ∈ log

/-- What has to stand in the log before an action. -/
@[grind] def Permitted (before : List Action) : Action → Prop
  | .demanded => before.count .demanded = before.count .resolved ∧ ¬ BridgeEnded before
  | .polled _ => before.count .demanded = before.count .resolved + 1 ∧ ¬ SourceDropped before
  | .sourceDropped _ => ¬ SourceDropped before
  | .outcome .completed => SourceEnded before ∨ FullyTaken exact before
  | .collected (.data _) => ¬ BridgeEnded before
  | .collected .ended => SourceEnded before ∧ SourceDropped before ∧ ¬ BridgeEnded before
  | .collected (.failed _) | .refused => SourceDropped before ∧ ¬ BridgeEnded before
  | .fused => SourceDropped before ∧ BridgeEnded before
  | .disconnecting cancels => cancels = true ↔
      ¬ FullyTaken exact before ∨ before.count .demanded ≠ collections before
  | .stopped _ => .disconnecting true ∈ before ∨ ∃ reason, .stopRequested reason ∈ before
  | _ => True

namespace Phase

@[grind] def holding : Phase → Bool
  | .received | .polling | .copied _ => true
  | _ => false

@[grind] def idle : Phase → Bool
  | .published | .receiving | .closing | .finished => true
  | _ => false

@[grind] def live : Phase → Bool
  | .published | .receiving | .received | .polling => true
  | _ => false

@[grind] def released : Phase → Bool
  | .replying _ | .closing | .finished => true
  | _ => false

/-- The owner is about to deliver a clean end. -/
@[grind] def ending : Phase → Bool
  | .finishing _ none | .releasing none | .replying none => true
  | _ => false

end Phase

/-- How the state stands to what was done. -/
structure Sound (exact : Option Nat) (s : State) (log : List Action) : Prop where
  source : s.source.WellFormed
  exactLength : s.source.exactLength = exact
  emitted : s.source.emittedBytes = emittedBytes log
  remaining : ∀ n, exact = some n → s.remaining = some (n - takenBytes log)
  unbounded : exact = none → s.remaining = none
  queued : s.queue ≠ none → s.queue = s.pending ∧ s.reply = none
  held : s.reply ≠ none → s.reply = s.pending
  waiting : s.queue ≠ none ∨ s.reply ≠ none → ∀ id, s.pending = some id → s.replies id = .waiting
  holding : s.phase.holding → s.reply ≠ none
  idle : s.phase.idle → s.reply = none
  resolved : log.count .demanded =
    log.count .resolved + if s.queue = none ∧ s.reply = none then 0 else 1
  collected : log.count .demanded = collections log + if s.pending = none then 0 else 1
  released : SourceDropped log ↔ s.phase.released
  closed : s.demandClosed → s.phase = .finished
  sentEnd : ∀ id, s.replies id = .sent .ended → SourceEnded log ∧ SourceDropped log
  sentError : ∀ id error, s.replies id = .sent (.failed error) → SourceDropped log
  unsent : ∀ id, s.replies id = .dropped → SourceDropped log
  ending : s.phase.ending → SourceEnded log ∨ s.reply = none
  completed : ∀ terminal, s.phase = .finishing .completed terminal →
    SourceEnded log ∨ FullyTaken exact log ∧ s.stage ≠ .alive
  done : s.done → SourceDropped log ∧ BridgeEnded log ∧ s.pending = none
  ended : BridgeEnded log → s.done
  alive : s.stage = .alive → s.disconnected = false
  gone : s.stage ≠ .alive → s.disconnected = true ∨ FullyTaken exact log
  cancelled : s.disconnected → .disconnecting true ∈ log
  stopReason : s.stopReason ≠ none →
    .disconnecting true ∈ log ∨ ∃ reason, .stopRequested reason ∈ log
  copied : ∀ bytes, s.phase = .copied bytes → emittedFrames log = takenFrames log ++ [bytes]
  sent : ∀ id bytes, s.pending = some id → s.replies id = .sent (.data bytes) →
    emittedFrames log = takenFrames log ++ [bytes]
  live : s.phase.live → (∀ id bytes, s.pending = some id → s.replies id ≠ .sent (.data bytes)) →
    emittedFrames log = takenFrames log
  frames : takenFrames log <+: emittedFrames log
  justified : Justified (Permitted exact) log

section Concat

variable (log : List Action) (a : Action)

@[grind =] theorem emittedFrames_concat : emittedFrames (log ++ [a]) = match a with
    | .polled (.ready (.data bytes)) => emittedFrames log ++ [bytes]
    | _ => emittedFrames log := by
  rw [emittedFrames, List.filterMap_append]
  split <;> simp_all [emittedFrames]

@[grind =] theorem takenFrames_concat : takenFrames (log ++ [a]) = match a with
    | .collected (.data bytes) => takenFrames log ++ [bytes]
    | _ => takenFrames log := by
  rw [takenFrames, List.filterMap_append]
  split <;> simp_all [takenFrames]

@[grind =] theorem emittedBytes_concat : emittedBytes (log ++ [a]) = match a with
    | .polled (.ready (.data bytes)) => emittedBytes log + bytes.length
    | _ => emittedBytes log := by
  rw [emittedBytes, emittedFrames_concat]
  split <;> simp_all [emittedBytes]

@[grind =] theorem takenBytes_concat : takenBytes (log ++ [a]) = match a with
    | .collected (.data bytes) => takenBytes log + bytes.length
    | _ => takenBytes log := by
  rw [takenBytes, takenFrames_concat]
  split <;> simp_all [takenBytes]

@[grind =] theorem collections_concat : collections (log ++ [a]) = match a with
    | .collected _ => collections log + 1
    | _ => collections log := by
  rw [collections, List.countP_append]
  split <;> simp_all [collections]

@[grind =] theorem sourceEnded_concat :
    SourceEnded (log ++ [a]) ↔ SourceEnded log ∨ a = .polled (.ready .ended) := by
  simp [SourceEnded, eq_comm]

@[grind =] theorem bridgeEnded_concat :
    BridgeEnded (log ++ [a]) ↔ BridgeEnded log ∨ a.isTerminal := by
  simp [BridgeEnded, or_and_right, exists_or]

@[grind =] theorem sourceDropped_concat :
    SourceDropped (log ++ [a]) ↔ SourceDropped log ∨ ∃ panicked, a = .sourceDropped panicked := by
  simp [SourceDropped, exists_or, eq_comm]

end Concat

namespace Sound

variable {exact : Option Nat} {s : State} {log : List Action} (h : Sound exact s log)

include h

theorem takenBytes_le {n : Nat} (hn : exact = some n) : takenBytes log ≤ n := by
  obtain ⟨rest, hrest⟩ := h.frames
  have hemitted := h.emitted
  have haccepted := h.source.accepted
  have hexact := h.source.exactLength n (h.exactLength.trans hn)
  rw [emittedBytes, ← hrest, List.flatten_append, List.length_append] at hemitted
  rw [takenBytes]
  omega

theorem consumed_iff : s.exactLengthConsumed = true ↔ FullyTaken exact log ∧ s.pending = none := by
  rw [State.exactLengthConsumed, Bool.and_eq_true, beq_iff_eq, Option.isNone_iff_eq_none]
  refine and_congr_left fun _ => ?_
  rw [FullyTaken]
  cases hexact : exact with
  | none => rw [h.unbounded hexact]; simp
  | some n =>
    have hle := h.takenBytes_le hexact
    rw [h.remaining n hexact, Option.some_inj, Option.some_inj]
    omega

omit h in
theorem own (source : ResponseBodyStream) (frameBytes : Nat) (hsource : source.WellFormed)
    (hunused : source.emittedBytes = 0) :
    Sound source.exactLength (State.own source frameBytes) [] := by
  constructor <;> simp [State.own, hsource, hunused, emittedFrames, emittedBytes, takenFrames,
    takenBytes, collections, SourceDropped, BridgeEnded, Justified.nil, Phase.holding, Phase.idle,
    Phase.released, Phase.ending]

/-- An action that no field but the justification looks at. -/
theorem quiet {a : Action} (hquiet : a.quiet) (hpermitted : Permitted exact log a) :
    Sound exact s (log ++ [a]) := by
  obtain ⟨⟩ := h
  cases a with
  | demanded | resolved | sourceDropped | collected | refused => cases hquiet
  | polled result =>
    rcases result with _ | (_ | _ | _) | _
    case ready.data | ready.ended => cases hquiet
    all_goals
      constructor
      all_goals first | assumption | grind -ring -linarith
  | outcome | fused | disconnecting | stopRequested | stopped =>
    constructor
    all_goals first | assumption | grind -ring -linarith

/-- The bridge is done, finds no producer, or sends its demand. -/
theorem poll : Sound exact s.poll.1 (log ++ s.poll.2) := by
  fun_cases State.poll s with
  | case1 | case3 => rwa [List.append_nil]
  | case2 _ hdone =>
    obtain ⟨hdropped, hended, -⟩ := h.done hdone
    exact h.quiet rfl ⟨hdropped, hended⟩
  | case4 _ hdone hpending hrefused =>
    -- a queued demand would be pending, so the receiver is closed
    have hqueue : s.queue = none := by
      by_contra hqueue
      exact hqueue ((h.queued hqueue).1.trans (not_not.mp hpending))
    have hreleased : SourceDropped log := by
      rw [h.released, h.closed (hrefused.resolve_right (not_not.mpr hqueue))]
      rfl
    have hended : ¬ BridgeEnded log := fun hended => hdone (h.ended hended)
    have hpermitted : Permitted exact log .refused := ⟨hreleased, hended⟩
    have hjustified := h.justified.snoc hpermitted
    obtain ⟨⟩ := h
    constructor
    case justified => exact hjustified
    all_goals first | assumption | grind -ring -linarith
  | case5 _ hdone hpending hopen =>
    obtain ⟨-, hqueue⟩ := not_or.mp hopen
    have hreply : s.reply = none := by
      by_contra hreply
      exact hreply ((h.held hreply).trans (not_not.mp hpending))
    have hresolved : log.count .demanded = log.count .resolved := by
      rw [h.resolved, if_pos ⟨not_not.mp hqueue, hreply⟩, Nat.add_zero]
    have hended : ¬ BridgeEnded log := fun hended => hdone (h.ended hended)
    have hpermitted : Permitted exact log .demanded := ⟨hresolved, hended⟩
    have hjustified := h.justified.snoc hpermitted
    obtain ⟨⟩ := h
    constructor
    case justified => exact hjustified
    all_goals first | assumption | grind -ring -linarith

/-- A reply is taken once: a frame lowers what remains, an end or an error makes the bridge done. -/
theorem take {id : Nat} (hstage : s.stage = .alive) (hpending : s.pending = some id) {chunk : Chunk}
    (hchunk : s.replies id = .sent chunk ∨
      s.replies id = .dropped ∧ chunk = .failed .streamInterrupted) :
    Sound exact (s.take chunk).1 (log ++ (s.take chunk).2) := by
  cases chunk with
  | data bytes | failed error | ended =>
    simp only [State.take]
    obtain ⟨⟩ := h
    constructor
    all_goals first | assumption | grind -ring -linarith

theorem collect : Sound exact s.collect.1 (log ++ s.collect.2) := by
  fun_cases State.collect s with
  | case4 hstage id hpending chunk hreply =>
    exact h.take (not_not.mp hstage) hpending (.inl hreply)
  | case5 hstage id hpending hreply =>
    exact h.take (not_not.mp hstage) hpending (.inr ⟨hreply, rfl⟩)
  | _ => rwa [List.append_nil]

/-- The destructor cancels unless every declared byte was taken; then the channels go. -/
theorem drop : Sound exact s.drop.1 (log ++ s.drop.2) := by
  fun_cases State.drop s with
  | case1 hstage =>
    have hcollected : log.count .demanded = collections log ↔ s.pending = none := by
      rw [h.collected]
      split_ifs with hpending <;> simp [hpending]
    have hpermitted : Permitted exact log (.disconnecting !s.exactLengthConsumed) := by
      rw [Permitted, Bool.not_eq_true', ← Bool.not_eq_true, h.consumed_iff, not_and_or, ne_eq,
        hcollected]
    have hlogged := h.quiet rfl hpermitted
    have hgone : (!s.exactLengthConsumed) = true ∨
        FullyTaken exact (log ++ [.disconnecting !s.exactLengthConsumed]) := by
      rw [FullyTaken, takenBytes_concat]
      cases hconsumed : s.exactLengthConsumed with
      | true => exact .inr (h.consumed_iff.mp hconsumed).1
      | false => exact .inl rfl
    exact { hlogged with
      alive := nofun
      gone := fun _ => hgone
      cancelled := fun hcancels =>
        List.mem_append_right _ (List.mem_singleton.mpr (congrArg _ hcancels.symm))
      completed := fun terminal hphase =>
        (hlogged.completed terminal hphase).imp_right (And.imp_right fun _ => nofun) }
  | case2 hstage | case3 hstage | case4 hstage =>
    have hgone := h.gone (by simp [hstage])
    rw [List.append_nil]
    exact { h with alive := nofun, gone := fun _ => hgone, completed := fun terminal hphase =>
      (h.completed terminal hphase).imp_right (And.imp_right fun _ => nofun) }

/-- The source is polled for the demand in hand, and only a frame adds to what it emitted. -/
theorem pollSource (answers : Answers) (hphase : s.phase = .received ∨ s.phase = .polling) :
    Sound exact (s.pollSource answers).1 (log ++ (s.pollSource answers).2) := by
  obtain ⟨hwellFormed, hexact, hemitted, hsilent⟩ :=
    h.source.pollBoundedChunk s.frameBytes answers.source
  unfold State.pollSource
  generalize s.source.pollBoundedChunk s.frameBytes answers.source = result at *
  obtain ⟨source, polled⟩ := result
  obtain ⟨⟩ := h
  cases polled with
  | pending | panicked =>
    constructor
    all_goals first | assumption | grind -ring -linarith
  | ready chunk =>
    cases chunk with
    | data bytes | failed error | ended =>
      constructor
      all_goals first | assumption | grind -ring -linarith

/-- A frame goes to the bridge, or is lost with it. -/
theorem answerFrame {bytes : Bytes} (hphase : s.phase = .copied bytes) {next : Phase}
    (hnext : next = if s.stage = .dropped then .finishing .interrupted none else .receiving) :
    Sound exact (s.answer (.data bytes) next).1 (log ++ (s.answer (.data bytes) next).2) := by
  unfold State.answer
  obtain ⟨⟩ := h
  split
  · grind
  · constructor
    all_goals first | assumption | grind -ring -linarith

/-- The end or the error goes to the demand in hand after the source was dropped. -/
theorem answerTerminal {terminal : Option ResponseBodyError}
    (hphase : s.phase = .replying terminal) :
    Sound exact (s.answer (terminal.elim .ended .failed) .closing).1
      (log ++ (s.answer (terminal.elim .ended .failed) .closing).2) := by
  unfold State.answer
  obtain ⟨⟩ := h
  cases terminal with
  | none | some error =>
    split
    all_goals
      constructor
      all_goals first | assumption | grind -ring -linarith

/-- Without a demand to come the outcome is complete only if no declared byte is missing. -/
theorem abandoned (hstage : s.stage ≠ .alive)
    (hcompleted : s.abandoned = .completed) : FullyTaken exact log := by
  have hgone := h.gone hstage
  unfold State.abandoned at hcompleted
  grind

/-- The loop of the owner ends without a last word of the source. -/
theorem finishing (hphase : s.phase.live) (outcome : ResponseBodyOutcome)
    (error : ResponseBodyError)
    (hcompleted : outcome = .completed → FullyTaken exact log ∧ s.stage ≠ .alive) :
    Sound exact { s with phase := .finishing outcome (some error) } log := by
  have hreleased : s.phase.released = false := by
    revert hphase
    cases s.phase <;> simp [Phase.live, Phase.released]
  obtain ⟨⟩ := h
  constructor
  all_goals first | assumption | grind -ring -linarith

/-- Every move of the owner, one phase after the other. -/
theorem produce (answers : Answers) :
    Sound exact (s.produce answers).1 (log ++ (s.produce answers).2) := by
  fun_cases s.produce answers with
  | case3 hphase _ hstage =>
    have halive : s.stage ≠ .alive := by rcases hstage with hstage | hstage <;> simp [hstage]
    rw [List.append_nil]
    exact h.finishing (by rw [hphase]; rfl) _ _ fun hcompleted =>
      ⟨h.abandoned halive hcompleted, halive⟩
  | case5 hphase =>
    rw [List.append_nil]
    exact h.finishing (by rw [hphase]; rfl) _ _ nofun
  | case6 hphase => exact h.pollSource answers (.inl hphase)
  | case7 hphase => exact h.pollSource answers (.inr hphase)
  | case8 bytes hphase => exact h.answerFrame hphase rfl
  | case11 terminal hphase => exact h.answerTerminal hphase
  | case4 | case14 => rwa [List.append_nil]
  | case1 hphase | case2 hphase | case9 outcome terminal hphase | case10 terminal hphase
  | case12 hphase | case13 hphase =>
    -- the next phase holds as much of the demand, and the last one closes the channel
    obtain ⟨⟩ := h
    constructor
    all_goals first | assumption | grind -ring -linarith

omit h in
theorem live_of_suspended (h : s.suspended = true) : s.phase.live := by
  grind [State.suspended]

theorem observeStop (transportReason : Option ExecutionStopReason) :
    Sound exact (s.observeStop transportReason).1 (log ++ (s.observeStop transportReason).2) := by
  fun_cases s.observeStop transportReason with
  | case1 hstop reason =>
    have hpermitted : Permitted exact log (.stopped reason) :=
      hstop.2.2.elim h.stopReason fun hdisconnected => .inl (h.cancelled hdisconnected)
    have hreason : .disconnecting true ∈ log ++ [.stopped reason] ∨
        ∃ asked, .stopRequested asked ∈ log ++ [.stopped reason] := by
      simpa [Permitted] using hpermitted
    exact { h.quiet rfl hpermitted with stopReason := fun _ => hreason }
  | case2 => rwa [List.append_nil]

theorem cutoff : Sound exact s.cutoff.1 (log ++ s.cutoff.2) := by
  unfold State.cutoff
  split
  next hsuspended =>
    rw [List.append_nil]
    refine h.finishing (live_of_suspended hsuspended.1) _ _ ?_
    split <;> nofun
  next => rwa [List.append_nil]

theorem stop (reason : ExecutionStopReason) :
    Sound exact (s.stop reason).1 (log ++ (s.stop reason).2) := by
  have hlogged := h.quiet (a := .stopRequested reason) rfl trivial
  exact { hlogged with stopReason := fun _ => .inr ⟨reason, List.mem_append_right _ (.head _)⟩ }

/-- Every move of every party keeps the state in step with the log. -/
theorem act (event : Event) : Sound exact (act event s).1 (log ++ (act event s).2) := by
  cases event with
  | poll => exact h.poll
  | collect => exact h.collect
  | drop => exact h.drop
  | produce answers => exact h.produce answers
  | observeStop transportReason => exact h.observeStop transportReason
  | cutoff => exact h.cutoff
  | stop reason => exact h.stop reason

end Sound

/-! ## Runs -/

/-- The log of a run with a fresh source. -/
def after (exact : Option Nat) (maxChunk : Nat) (maxTotal : Option Nat) (frameBytes : Nat)
    (events : List Event) : State × List Action :=
  system.run (State.own
    { exactLength := exact, maxChunkBytes := maxChunk, maxTotalBytes := maxTotal } frameBytes, [])
    events

end Lily.Http.ResponseBody
