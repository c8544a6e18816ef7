import Lily.Transition.Precedence
import Lily.Transition.Reactive

/-!
# Reading the body of a request

A request holds its body as bytes, as a stream of the transport, or not at all. It is read chunk by
chunk, through a reader that is taken out of the request, or as a whole. The stream is the list of
the answers it will give; after the last of them the body is at its end.
-/

namespace Lily.WebCore.RequestBody

open Transition

abbrev Bytes := List UInt8

inductive RequestBodyError where
  | payloadTooLarge (limitBytes : Nat)
  | readTimedOut
  | transportInterrupted
  | invalidTrailers
  | alreadyStreaming
  | bufferUnavailable
  deriving DecidableEq

inductive RequestBodyState where
  | empty
  | buffered
  | pending
  | buffering
  | streaming
  | complete
  | failed
  deriving DecidableEq

abbrev Answers := List (Except RequestBodyError Bytes)

def maxBodyLimitBytes : Nat := 1024 * 1024 * 1024

/-- What a call returns. The future of a call may also be dropped. -/
inductive Returned where
  | ok (bytes : Option Bytes)
  | taken
  | error (error : RequestBodyError)
  | dropped
  deriving DecidableEq

def Returned.isOk : Returned → Bool
  | .ok _ | .taken => true
  | .error _ | .dropped => false

/-- An error of the transport or of a limit. -/
def Returned.isFailure : Returned → Bool
  | .error .alreadyStreaming | .error .bufferUnavailable => false
  | .error _ => true
  | _ => false

/-! ## The reader -/

/-- A reader with the counters that it shares with its request. -/
structure Reader where
  buffered : Option Bytes
  stream : Option Answers
  state : RequestBodyState := .streaming
  streamedBytes : Nat := 0

namespace Reader

def recordChunk (budget : Nat) (chunk : Bytes) (r : Reader) : Reader × Returned :=
  if budget < r.streamedBytes + chunk.length then
    ({ r with state := .failed }, .error (.payloadTooLarge budget))
  else
    ({ r with streamedBytes := r.streamedBytes + chunk.length, state := .streaming },
      .ok (some chunk))

def nextChunk (budget : Nat) (r : Reader) : Reader × Returned :=
  match r.buffered, r.stream with
  | some chunk, _ => { r with buffered := none }.recordChunk budget chunk
  | none, none => ({ r with state := .complete }, .ok none)
  | none, some [] => ({ r with stream := none, state := .complete }, .ok none)
  | none, some (.ok chunk :: rest) =>
    match { r with stream := some rest }.recordChunk budget chunk with
    | (r, .error error) => ({ r with stream := none }, .error error)
    | result => result
  | none, some (.error error :: _) => ({ r with stream := none, state := .failed }, .error error)

end Reader

/-! ## The request -/

/-- The readers are listed as they were taken. `failed` is not a field of the source: it says that a
call has returned an error of the transport or of a limit. -/
structure Request where
  budget : Nat
  body : Option Bytes := none
  stream : Option Answers := none
  bodyState : RequestBodyState
  streamedBodyBytes : Nat := 0
  bufferedChunkYielded : Bool := false
  readers : List Reader := []
  failed : Bool := false

/-- What a call that buffers meets: the bytes that the transport announces, whether a buffer is had,
and after how many chunks the future is dropped, if it is. -/
structure Buffering where
  lower : Nat
  allocated : Bool
  stop : Option Nat

inductive Drained where
  | finished (buffer : Bytes)
  | failed (error : RequestBodyError)
  | dropped (rest : Answers)

def drain (limit : Nat) : Option Nat → Answers → Bytes → Drained
  | some 0, answers, _ => .dropped answers
  | _, [], buffer => .finished buffer
  | stop, .ok chunk :: rest, buffer =>
    if limit < buffer.length + chunk.length then .failed (.payloadTooLarge limit)
    else drain limit (stop.map (· - 1)) rest (buffer ++ chunk)
  | _, .error error :: _, _ => .failed error

namespace Request

variable (maxBytes : Nat) (t : Buffering) (s : Request)

/-- `body_state`: the last reader, if there is one, keeps the state. -/
def state : RequestBodyState :=
  match s.readers.getLast? with
  | some r => r.state
  | none => s.bodyState

def streamedBytes : Nat :=
  match s.readers.getLast? with
  | some r => r.streamedBytes
  | none => s.streamedBodyBytes

def nextBodyChunk : Request × Returned :=
  if !s.readers.isEmpty || s.state == .buffering then (s, .error .alreadyStreaming)
  else match s.body, s.stream with
    | some body, _ =>
      if s.bufferedChunkYielded || body.isEmpty then ({ s with bodyState := .complete }, .ok none)
      else
        ({ s with
            bufferedChunkYielded := true
            streamedBodyBytes := body.length
            bodyState := .streaming }, .ok (some body))
    | none, none =>
      (if s.state = .failed then s else { s with bodyState := .complete }, .ok none)
    | none, some [] => ({ s with stream := none, bodyState := .complete }, .ok none)
    | none, some (.ok chunk :: rest) =>
      if s.budget < s.streamedBytes + chunk.length then
        ({ s with stream := some rest }, .error (.payloadTooLarge s.budget))
      else
        ({ s with
            stream := some rest
            streamedBodyBytes := s.streamedBytes + chunk.length
            bodyState := .streaming }, .ok (some chunk))
    | none, some (.error error :: _) =>
      ({ s with stream := none, bodyState := .failed }, .error error)

/-- Whether another consumer has begun with the body. -/
def isTaken : Bool :=
  s.state == .streaming || s.state == .buffering || s.state == .failed ||
    s.state == .complete && (s.streamedBytes != 0 || s.bufferedChunkYielded)

def takeBodyReader : Request × Returned :=
  if s.isTaken then (s, .error .alreadyStreaming)
  else
    ({ s with
        body := none
        stream := none
        bufferedChunkYielded := false
        streamedBodyBytes := 0
        readers := s.readers ++ [⟨s.body, s.stream, .streaming, 0⟩] }, .taken)

/-- A reader that was never taken cannot be called. -/
def nextChunk (reader : Nat) (s : Request) : Request × Returned :=
  match s.readers[reader]? with
  | none => (s, .dropped)
  | some r =>
    ({ s with readers := s.readers.set reader (r.nextChunk s.budget).1 },
      (r.nextChunk s.budget).2)

def bufferBodyWithLimit (limit : Nat) (t : Buffering) (s : Request) : Request × Returned :=
  match s.body with
  | some body =>
    if limit < body.length then (s, .error (.payloadTooLarge limit)) else (s, .ok (some body))
  | none =>
    if s.state == .streaming || s.state == .buffering then (s, .error .alreadyStreaming)
    else match s.stream with
      | none => (s, .ok none)
      | some answers =>
        if limit < t.lower then
          ({ s with stream := none, bodyState := .failed }, .error (.payloadTooLarge limit))
        else if !t.allocated then
          ({ s with stream := none, bodyState := .failed }, .error .bufferUnavailable)
        else match drain limit t.stop answers [] with
          | .failed error => ({ s with stream := none, bodyState := .failed }, .error error)
          | .dropped rest => ({ s with stream := some rest, bodyState := .buffering }, .dropped)
          | .finished [] => ({ s with stream := none, bodyState := .empty }, .ok none)
          | .finished buffer =>
            ({ s with stream := none, body := some buffer, bodyState := .buffered },
              .ok (some buffer))

def bufferBody : Request × Returned :=
  s.bufferBodyWithLimit s.budget t

def bufferBodyBounded : Request × Returned :=
  if maxBytes = 0 ∨ maxBodyLimitBytes < maxBytes then (s, .error (.payloadTooLarge s.budget))
  else s.bufferBodyWithLimit (min maxBytes s.budget) t

/-- `form` with the content type it asks for. It returns the bytes that it parses. -/
def form : Request × Returned :=
  match s.bufferBody t with
  | (s, .ok _) => (s, .ok (some (s.body.getD [])))
  | result => result

end Request

inductive Call where
  | nextBodyChunk
  | takeBodyReader
  | nextChunk (reader : Nat)
  | bufferBody (t : Buffering)
  | bufferBodyBounded (maxBytes : Nat) (t : Buffering)
  | bufferBodyWithLimit (limit : Nat) (t : Buffering)
  | form (t : Buffering)

def Request.call (s : Request) : Call → Request × Returned
  | .nextBodyChunk => s.nextBodyChunk
  | .takeBodyReader => s.takeBodyReader
  | .nextChunk reader => s.nextChunk reader
  | .bufferBody t => s.bufferBody t
  | .bufferBodyBounded maxBytes t => s.bufferBodyBounded maxBytes t
  | .bufferBodyWithLimit limit t => s.bufferBodyWithLimit limit t
  | .form t => s.form t

/-- A call, what it returned, and the state of the body before and after it. -/
structure Entry where
  call : Call
  returned : Returned
  before : RequestBodyState
  after : RequestBodyState

def act (call : Call) (s : Request) : Request × List Entry :=
  let result := s.call call
  ({ result.1 with failed := s.failed || result.2.isFailure },
    [⟨call, result.2, s.state, result.1.state⟩])

def system : Reactive Request Call Entry := ⟨act⟩

/-! ## A failed body stays failed -/

/-- The entry is one that may follow a failure. -/
def Entry.Sticks (entry : Entry) : Prop :=
  entry.returned.isOk = false ∧
    ¬(entry.after ≠ entry.before ∧ (entry.after = .complete ∨ entry.after = .empty))

def Sticky (log : List Entry) : Prop :=
  Justified (fun before entry =>
    (∃ earlier ∈ before, earlier.returned.isFailure = true) → entry.Sticks) log

namespace Request

/-- A buffered body over the limit is refused; a body that is being read is locked. -/
def locksBuffering (limit : Nat) (s : Request) : Bool :=
  match s.body with
  | some body => limit < body.length
  | none => s.state == .streaming || s.state == .buffering

/-- The calls that the request refuses whatever its transport will answer. -/
def locks (s : Request) : Call → Bool
  | .nextBodyChunk => !s.readers.isEmpty || s.state == .buffering
  | .takeBodyReader => s.isTaken
  | .nextChunk reader => s.readers[reader]?.all fun r =>
    r.buffered.any fun chunk => s.budget < r.streamedBytes + chunk.length
  | .bufferBody _ | .form _ => s.locksBuffering s.budget
  | .bufferBodyBounded maxBytes _ =>
    maxBytes = 0 || maxBodyLimitBytes < maxBytes || s.locksBuffering (min maxBytes s.budget)
  | .bufferBodyWithLimit limit _ => s.locksBuffering limit

/-- After a failure only calls are made that are locked out. -/
def Allowed (s : Request) (call : Call) : Prop := s.failed = true → s.locks call = true

variable {s : Request}

theorem state_set {reader : Nat} {r r' : Reader} (h : s.readers[reader]? = some r) :
    ({ s with readers := s.readers.set reader r' } : Request).state = r'.state ∨
      ({ s with readers := s.readers.set reader r' } : Request).state = s.state := by
  simp only [state, List.getLast?_eq_getElem?, List.length_set, List.getElem?_set]
  by_cases hlast : reader = s.readers.length - 1
  · subst hlast
    obtain ⟨hlt, -⟩ := List.getElem?_eq_some_iff.mp h
    simp [hlt]
  · simp [hlast]

theorem bufferBodyWithLimit_locked {limit : Nat} (h : s.locksBuffering limit = true)
    (t : Buffering) : ∃ error, s.bufferBodyWithLimit limit t = (s, .error error) := by
  unfold locksBuffering at h
  unfold bufferBodyWithLimit
  cases hbody : s.body with
  | some body => simp_all
  | none => simp_all

/-- A call that is locked out returns an error and ends no body. -/
theorem call_locked {call : Call} (h : s.locks call = true) :
    (s.call call).2.isOk = false ∧
      ((s.call call).1.state = s.state ∨ (s.call call).1.state = .failed) := by
  cases call with
  | nextBodyChunk =>
    simp only [locks] at h
    simp [Request.call, nextBodyChunk, h, Returned.isOk]
  | takeBodyReader =>
    simp only [locks] at h
    simp [Request.call, takeBodyReader, h, Returned.isOk]
  | nextChunk reader =>
    simp only [locks] at h
    simp only [Request.call, nextChunk]
    cases hreader : s.readers[reader]? with
    | none => exact ⟨rfl, .inl rfl⟩
    | some r =>
      rw [hreader, Option.all_some] at h
      have hnext : r.nextChunk s.budget =
          ({ r with buffered := none, state := .failed }, .error (.payloadTooLarge s.budget)) := by
        cases hbuffered : r.buffered with
        | none => simp [hbuffered] at h
        | some chunk => simp_all [Reader.nextChunk, Reader.recordChunk]
      simp only [hnext]
      exact ⟨rfl, (state_set hreader).symm⟩
  | bufferBody t =>
    obtain ⟨error, herror⟩ := bufferBodyWithLimit_locked h t
    simp [Request.call, bufferBody, herror, Returned.isOk]
  | bufferBodyWithLimit limit t =>
    obtain ⟨error, herror⟩ := bufferBodyWithLimit_locked h t
    simp [Request.call, herror, Returned.isOk]
  | form t =>
    obtain ⟨error, herror⟩ := bufferBodyWithLimit_locked h t
    simp [Request.call, form, bufferBody, herror, Returned.isOk]
  | bufferBodyBounded maxBytes t =>
    simp only [Request.call, bufferBodyBounded]
    split
    next => exact ⟨rfl, .inl rfl⟩
    next hvalid =>
      have hlocked : s.locksBuffering (min maxBytes s.budget) = true := by
        simpa [locks, not_or.mp hvalid] using h
      obtain ⟨error, herror⟩ := bufferBodyWithLimit_locked hlocked t
      simp [herror, Returned.isOk]

/-- The request when its transport has no further answer. -/
def transportEnded (s : Request) : Request :=
  { s with
    stream := s.stream.map fun _ => []
    readers := s.readers.map fun r => { r with stream := r.stream.map fun _ => [] } }

theorem transportEnded_state : s.transportEnded.state = s.state := by
  simp only [transportEnded, state, List.getLast?_map]
  cases s.readers.getLast? <;> rfl

theorem transportEnded_streamedBytes : s.transportEnded.streamedBytes = s.streamedBytes := by
  simp only [transportEnded, streamedBytes, List.getLast?_map]
  cases s.readers.getLast? <;> rfl

end Request

def undisturbed : Buffering := ⟨0, true, none⟩

/-- The same call, with a buffer at hand and a future that is not dropped. -/
def Call.undisturbed : Call → Call
  | .bufferBody _ => .bufferBody RequestBody.undisturbed
  | .bufferBodyBounded maxBytes _ => .bufferBodyBounded maxBytes RequestBody.undisturbed
  | .bufferBodyWithLimit limit _ => .bufferBodyWithLimit limit RequestBody.undisturbed
  | .form _ => .form RequestBody.undisturbed
  | call => call

namespace Request

variable {s : Request}

theorem bufferBodyWithLimit_free {limit : Nat} (h : s.locksBuffering limit = false) :
    ∃ s' bytes, s.transportEnded.bufferBodyWithLimit limit undisturbed = (s', .ok bytes) := by
  unfold locksBuffering at h
  unfold bufferBodyWithLimit
  rw [transportEnded_state]
  cases hbody : s.body with
  | some body =>
    have hlimit : body.length ≤ limit := by simpa [hbody] using h
    simp [transportEnded, hbody, Nat.not_lt.mpr hlimit]
  | none => cases hstream : s.stream <;> simp_all [transportEnded, undisturbed, drain]

/-- A call that is not locked out returns `Ok` when the transport ends. -/
theorem call_free {call : Call} (h : s.locks call = false) :
    (s.transportEnded.call call.undisturbed).2.isOk = true := by
  cases call with
  | nextBodyChunk =>
    have hfree : (!s.transportEnded.readers.isEmpty || s.transportEnded.state == .buffering) =
        false := by
      rw [← h, locks, transportEnded_state, transportEnded, List.isEmpty_map]
    simp only [Call.undisturbed, Request.call, nextBodyChunk, hfree, Bool.false_eq_true, if_false]
    cases hbody : s.body with
    | some body =>
      simp only [transportEnded, hbody]
      split <;> rfl
    | none => cases hstream : s.stream <;> simp only [transportEnded, hbody, hstream] <;> rfl
  | takeBodyReader =>
    have htaken : s.transportEnded.isTaken = false := by
      rw [← h, locks, isTaken, isTaken, transportEnded_state, transportEnded_streamedBytes]
      rfl
    simp [Call.undisturbed, Request.call, takeBodyReader, htaken, Returned.isOk]
  | nextChunk reader =>
    cases hreader : s.readers[reader]? with
    | none => simp [locks, hreader] at h
    | some r =>
      simp only [Call.undisturbed, Request.call, nextChunk, transportEnded, List.getElem?_map,
        hreader, Option.map_some]
      simp only [locks, hreader, Option.all_some] at h
      cases hbuffered : r.buffered with
      | some chunk =>
        have hlimit : ¬s.budget < r.streamedBytes + chunk.length := by simpa [hbuffered] using h
        simp [Reader.nextChunk, Reader.recordChunk, hlimit, Returned.isOk]
      | none => cases r.stream <;> rfl
  | bufferBody t =>
    obtain ⟨s', bytes, hok⟩ := bufferBodyWithLimit_free h
    rw [Call.undisturbed, Request.call, bufferBody,
      show s.transportEnded.budget = s.budget from rfl, hok]
    rfl
  | bufferBodyWithLimit limit t =>
    obtain ⟨s', bytes, hok⟩ := bufferBodyWithLimit_free h
    rw [Call.undisturbed, Request.call, hok]
    rfl
  | form t =>
    obtain ⟨s', bytes, hok⟩ := bufferBodyWithLimit_free h
    rw [Call.undisturbed, Request.call, form, bufferBody,
      show s.transportEnded.budget = s.budget from rfl, hok]
    rfl
  | bufferBodyBounded maxBytes t =>
    simp only [locks, Bool.or_eq_false_iff, decide_eq_false_iff_not] at h
    obtain ⟨s', bytes, hok⟩ := bufferBodyWithLimit_free h.2
    rw [Call.undisturbed, Request.call, bufferBodyBounded, if_neg (not_or.mpr h.1),
      show s.transportEnded.budget = s.budget from rfl, hok]
    rfl

end Request

theorem sticks_of_locks {s : Request} {call : Call} (h : s.locks call = true) :
    Entry.Sticks ⟨call, (s.call call).2, s.state, (s.call call).1.state⟩ := by
  obtain ⟨hreturned, hstate⟩ := Request.call_locked h
  refine ⟨hreturned, ?_⟩
  rintro ⟨hne, hended⟩
  rcases hstate with hsame | hfailed
  · exact hne hsame
  · simp [hfailed] at hended

/-- A body that failed stays failed in every run in which, after the failure, only calls are made
that the request locks out. Any other call can return `Ok`: it does when the transport ends. -/
theorem failure_sticky (s : Request) (hstart : s.failed = false) (calls : List Call)
    (hallowed : system.Meets Request.Allowed s calls) :
    Sticky (system.run (s, []) calls).2 ∧
      ∀ (s : Request) (call : Call), s.locks call = false →
        (s.transportEnded.call call.undisturbed).2.isOk = true := by
  refine ⟨?_, fun s call => Request.call_free⟩
  -- The flag of the state says what the log says.
  refine (system.run_induct_of_meets (P := fun s log => Sticky log ∧
    (s.failed = true ↔ ∃ entry ∈ log, entry.returned.isFailure = true))
    ⟨Justified.nil, by simp [hstart]⟩ ?_ calls hallowed).1
  rintro s log call hcall ⟨hsticky, hfailed⟩
  refine ⟨hsticky.snoc fun hearlier => ?_, ?_⟩
  · exact sticks_of_locks (hcall (hfailed.mpr hearlier))
  · simp [system, act, hfailed, or_and_right, exists_or]

/-- A request whose transport is interrupted before the first chunk. -/
def interrupted : Request where
  budget := 16
  stream := some [.error .transportInterrupted]
  bodyState := .pending

theorem failure_sticky_interrupted : interrupted.failed = false ∧
    Sticky (system.run (interrupted, []) [.bufferBody undisturbed, .takeBodyReader]).2 :=
  ⟨rfl, (failure_sticky interrupted rfl [.bufferBody undisturbed, .takeBodyReader]
    ⟨fun h => absurd h (by decide), fun _ => by decide, trivial⟩).1⟩

/-- The form of a body that failed is read as an empty one. -/
theorem form_of_failed_body :
    (system.run (interrupted, []) [.bufferBody undisturbed, .form undisturbed]).2.map
      Entry.returned = [.error .transportInterrupted, .ok (some [])] := by
  decide

/-! ## What is delivered -/

/-- The bytes of the transport, up to its first error. -/
def transported : Answers → Bytes
  | .ok chunk :: rest => chunk ++ transported rest
  | _ => []

/-- The calls that read out of the request itself: the next chunk, or the whole body. -/
def consumer (call : Option Buffering) : Call := call.elim .nextBodyChunk .bufferBody

def consuming : Reactive Request (Option Buffering) Entry := ⟨fun call => act (consumer call)⟩

/-- After a failure the transport is gone, or the request is locked: for both calls while it is
being buffered, for buffering while it is being streamed. -/
def Request.Closed (s : Request) (call : Option Buffering) : Prop :=
  s.failed = true → s.stream = none ∨ s.bodyState = .buffering ∨
    call.isSome = true ∧ s.bodyState = .streaming

def Entry.handedOut (entry : Entry) : Bytes :=
  match entry.call, entry.returned with
  | .nextBodyChunk, .ok (some chunk) => chunk
  | _, _ => []

def handedOut (log : List Entry) : Bytes := log.flatMap Entry.handedOut

/-- All that the transport sent, and within the budget. -/
structure Complete (budget : Nat) (answers : Answers) (body : Bytes) : Prop where
  bytes : body = transported answers
  answered : ∀ answer ∈ answers, answer.isOk
  length : body.length ≤ budget

/-- Buffered bodies are complete, and chunks are handed out without a gap. -/
structure Whole (budget : Nat) (answers : Answers) (log : List Entry) : Prop where
  bodies : ∀ t body before after, ⟨.bufferBody t, .ok (some body), before, after⟩ ∈ log →
    Complete budget answers body
  chunks : handedOut log <+: transported answers
  total : (handedOut log).length ≤ budget

/-- What is left of the transport follows what was handed out; nothing was, or the body is being
streamed. -/
structure Remaining (answers rest : Answers) (s : Request) (log : List Entry) : Prop where
  bytes : transported answers = handedOut log ++ transported rest
  streamed : s.streamedBodyBytes = (handedOut log).length
  yielded : s.bufferedChunkYielded = false
  fresh : s.bodyState = .streaming ∨ rest = answers ∧ handedOut log = []

/-- How a request whose transport was to give the answers stands to what was returned. -/
structure Reads (budget : Nat) (answers : Answers) (s : Request) (log : List Entry) : Prop
    extends Whole budget answers log where
  readers : s.readers = []
  limit : s.budget = budget
  buffered : ∀ body, s.body = some body → s.failed = false ∧ Complete budget answers body ∧
    s.bodyState ≠ .buffering ∧ handedOut log = if s.bufferedChunkYielded then body else []
  unread : s.failed = false → s.body = none → s.bodyState ≠ .buffering → ∀ rest,
    s.stream = some rest → Remaining answers rest s log

variable {budget : Nat} {answers : Answers} {s s' : Request} {log : List Entry} {entry : Entry}

theorem drain_finished {limit : Nat} {stop : Option Nat} {buffer result : Bytes}
    (h : drain limit stop answers buffer = .finished result) (hbuffer : buffer.length ≤ limit) :
    result = buffer ++ transported answers ∧ (∀ answer ∈ answers, answer.isOk) ∧
      result.length ≤ limit := by
  fun_induction drain limit stop answers buffer with
  | case1 | case3 | case5 => cases h
  | case2 =>
    cases h
    exact ⟨by simp [transported], by simp, hbuffer⟩
  | case4 stop chunk rest buffer _ hlimit ih =>
    obtain ⟨rfl, hok, hlength⟩ := ih h (by simpa using hlimit)
    exact ⟨by simp [transported], by simpa [Except.isOk, Except.toBool] using hok, hlength⟩

theorem drain_complete {limit : Nat} {stop : Option Nat} {body : Bytes}
    (h : drain limit stop answers [] = .finished body) : Complete limit answers body := by
  obtain ⟨rfl, hok, hlength⟩ := drain_finished h (Nat.zero_le _)
  exact ⟨rfl, hok, hlength⟩

theorem handedOut_concat : handedOut (log ++ [entry]) = handedOut log ++ entry.handedOut := by
  simp [handedOut]

theorem handedOut_quiet (hquiet : ∀ bytes, entry.returned ≠ .ok (some bytes)) :
    handedOut (log ++ [entry]) = handedOut log := by
  rw [handedOut_concat, Entry.handedOut]
  split
  next chunk _ hreturned => exact absurd hreturned (hquiet chunk)
  next => exact List.append_nil _

/-- A log stays whole if the next entry delivers what comes next, or a complete body. -/
theorem Whole.concat (h : Whole budget answers log)
    (hbody : ∀ t body, entry.call = .bufferBody t → entry.returned = .ok (some body) →
      Complete budget answers body)
    (hchunks : handedOut log ++ entry.handedOut <+: transported answers)
    (htotal : (handedOut log ++ entry.handedOut).length ≤ budget) :
    Whole budget answers (log ++ [entry]) := by
  rw [← handedOut_concat] at hchunks htotal
  refine ⟨fun t body before after hmem => ?_, hchunks, htotal⟩
  rcases List.mem_append.mp hmem with hmem | hmem
  · exact h.bodies t body before after hmem
  · obtain rfl := List.mem_singleton.mp hmem
    exact hbody t body rfl rfl

/-- An entry that hands out nothing keeps the log whole, if its body is complete. -/
theorem Whole.body (h : Whole budget answers log) (hempty : entry.handedOut = [])
    (hbody : ∀ t body, entry.call = .bufferBody t → entry.returned = .ok (some body) →
      Complete budget answers body) : Whole budget answers (log ++ [entry]) :=
  h.concat hbody (by rw [hempty, List.append_nil]; exact h.chunks)
    (by rw [hempty, List.append_nil]; exact h.total)

/-- A call that delivers nothing leaves the rest of the transport as it was, or out of reach. -/
theorem Reads.quiet (h : Reads budget answers s log)
    (hquiet : ∀ bytes, entry.returned ≠ .ok (some bytes)) (hreaders : s'.readers = s.readers)
    (hbudget : s'.budget = s.budget) (hyielded : s'.bufferedChunkYielded = s.bufferedChunkYielded)
    (hbuffered : ∀ body, s'.body = some body →
      s.body = some body ∧ s'.failed = s.failed ∧ s'.bodyState ≠ .buffering)
    (hunread : s'.body = none → s'.stream = none ∨ s'.failed = true ∨ s'.bodyState = .buffering ∨
      s' = s) : Reads budget answers s' (log ++ [entry]) := by
  have hsame : handedOut (log ++ [entry]) = handedOut log := handedOut_quiet hquiet
  have hempty : entry.handedOut = [] := by simpa [handedOut_concat] using hsame
  refine ⟨h.toWhole.body hempty fun t body _ hreturned => absurd hreturned (hquiet body),
    hreaders.trans h.readers, hbudget.trans h.limit, fun body hbody => ?_,
    fun hfailed hbody hstate rest hrest => ?_⟩
  · obtain ⟨hbefore, hfailed, hstate⟩ := hbuffered body hbody
    obtain ⟨hnone, hcomplete, -, hhanded⟩ := h.buffered body hbefore
    exact ⟨hfailed.trans hnone, hcomplete, hstate, by rw [hsame, hyielded, hhanded]⟩
  · have hsame' : s' = s := by
      rcases hunread hbody with hnone | htrue | hbuffering | hsame'
      · cases hnone.symm.trans hrest
      · cases hfailed.symm.trans htrue
      · exact absurd hbuffering hstate
      · exact hsame'
    subst hsame'
    obtain ⟨hbytes, hstreamed, hyielded, hfresh⟩ := h.unread hfailed hbody hstate rest hrest
    exact ⟨by rw [hsame, hbytes], by rw [hsame, hstreamed], hyielded, by rwa [hsame]⟩

/-- Nothing is left to be read. -/
theorem Reads.spent (h : Reads budget answers s log)
    (hquiet : ∀ bytes, entry.returned ≠ .ok (some bytes)) (hbody : s.body = none)
    (state : RequestBodyState) (failed : Bool) :
    Reads budget answers { s with stream := none, bodyState := state, failed := failed }
      (log ++ [entry]) :=
  h.quiet hquiet rfl rfl rfl (fun body hsome => by simp [hbody] at hsome) fun _ => .inl rfl

theorem Reads.same (h : Reads budget answers s log)
    (hquiet : ∀ bytes, entry.returned ≠ .ok (some bytes)) :
    Reads budget answers { s with failed := s.failed || false } (log ++ [entry]) := by
  rw [Bool.or_false]
  exact h.quiet hquiet rfl rfl rfl (fun body hbody => ⟨hbody, rfl, (h.buffered body hbody).2.2.1⟩)
    fun _ => .inr (.inr (.inr rfl))

/-- A request that may still read has not failed. -/
theorem Request.Closed.not_failed {call : Option Buffering} (h : s.Closed call)
    (hstream : s.stream ≠ none) (hstate : s.bodyState ≠ .buffering)
    (hcall : call.isSome = true → s.bodyState ≠ .streaming) : s.failed = false := by
  rw [← Bool.not_eq_true]
  intro hfailed
  rcases h hfailed with hnone | hbuffering | ⟨hsome, hstreaming⟩
  · exact hstream hnone
  · exact hstate hbuffering
  · exact hcall hsome hstreaming

theorem Reads.nextBodyChunk (h : Reads budget answers s log) (hclosed : s.Closed none) :
    Reads budget answers
      { s.nextBodyChunk.1 with failed := s.failed || s.nextBodyChunk.2.isFailure }
      (log ++ [⟨.nextBodyChunk, s.nextBodyChunk.2, s.state, s.nextBodyChunk.1.state⟩]) := by
  have hstate : s.state = s.bodyState := by simp [Request.state, h.readers]
  have hcount : s.streamedBytes = s.streamedBodyBytes := by simp [Request.streamedBytes, h.readers]
  fun_cases Request.nextBodyChunk s with
  | case1 => exact h.same nofun
  | case2 _ body hbody hyielded =>
    exact h.quiet nofun rfl rfl rfl (fun _ hsome => ⟨hsome, Bool.or_false _, nofun⟩)
      fun hnone => nomatch hbody.symm.trans hnone
  | case3 _ body hbody hyielded =>
    obtain ⟨hfailed, hcomplete, -, hhanded⟩ := h.buffered body hbody
    have hempty : handedOut log = [] := by simp_all
    refine ⟨h.toWhole.concat nofun ?_ ?_, h.readers, h.limit, fun other hother => ?_, ?_⟩
    · simp [hempty, Entry.handedOut, ← hcomplete.bytes]
    · simpa [hempty, Entry.handedOut] using hcomplete.length
    · cases hbody.symm.trans hother
      exact ⟨by simp [hfailed, Returned.isFailure], hcomplete, nofun,
        by simp [handedOut_concat, hempty, Entry.handedOut]⟩
    · exact fun _ hnone => nomatch hbody.symm.trans hnone
  | case4 _ hstream hbody =>
    split
    next => exact h.same nofun
    next =>
      exact h.quiet nofun rfl rfl rfl (fun _ hsome => nomatch hbody.symm.trans hsome)
        fun _ => .inl hstream
  | case5 _ hstream hbody =>
    refine h.spent ?_ hbody .complete _
    nofun
  | case6 _ chunk rest hstream hbody hlimit =>
    exact h.quiet nofun rfl rfl rfl (fun _ hsome => nomatch hbody.symm.trans hsome)
      fun _ => .inr (.inl (Bool.or_true _))
  | case7 hfree chunk rest hstream hbody hlimit =>
    have hbuffering : s.bodyState ≠ .buffering := by
      rw [← hstate]
      simp_all
    have hfailed := hclosed.not_failed (by simp [hstream]) hbuffering nofun
    obtain ⟨hbytes, hstreamed, hyielded, -⟩ := h.unread hfailed hbody hbuffering _ hstream
    rw [hcount, hstreamed, h.limit, ← List.length_append, Nat.not_lt] at hlimit
    refine ⟨h.toWhole.concat nofun ?_ hlimit, h.readers, h.limit,
      fun body hsome => (nomatch hbody.symm.trans hsome), fun _ _ _ other hother => ?_⟩
    · exact ⟨transported rest, by rw [hbytes, List.append_assoc]; rfl⟩
    · cases hother
      refine ⟨?_, ?_, hyielded, .inl rfl⟩
      · rw [hbytes, handedOut_concat, List.append_assoc]
        rfl
      · rw [hcount, hstreamed, handedOut_concat, List.length_append]
        rfl
  | case8 _ error rest hstream hbody =>
    refine h.spent ?_ hbody .failed _
    nofun

theorem Reads.bufferBody (h : Reads budget answers s log) (t : Buffering)
    (hclosed : s.Closed (some t)) :
    Reads budget answers
      { (s.bufferBody t).1 with failed := s.failed || (s.bufferBody t).2.isFailure }
      (log ++ [⟨.bufferBody t, (s.bufferBody t).2, s.state, (s.bufferBody t).1.state⟩]) := by
  have hstate : s.state = s.bodyState := by simp [Request.state, h.readers]
  unfold Request.bufferBody
  fun_cases Request.bufferBodyWithLimit s.budget t s with
  | case1 body hbody hlimit =>
    have hlength := (h.buffered body hbody).2.1.length
    rw [h.limit] at hlimit
    omega
  | case2 body hbody hlimit =>
    obtain ⟨hfailed, hcomplete, hbuffering, hhanded⟩ := h.buffered body hbody
    refine ⟨h.toWhole.body rfl fun _ _ _ hreturned => ?_, h.readers, h.limit,
      fun other hother => ?_, fun _ hnone => nomatch hbody.symm.trans hnone⟩
    · cases hreturned
      exact hcomplete
    · cases hbody.symm.trans hother
      refine ⟨by simp [hfailed, Returned.isFailure], hcomplete, hbuffering, ?_⟩
      rw [handedOut_concat, hhanded]
      exact List.append_nil _
  | case3 | case4 => exact h.same nofun
  | case5 hbody | case6 hbody | case7 hbody =>
    refine h.spent ?_ hbody .failed _
    nofun
  | case8 hbody =>
    exact h.quiet nofun rfl rfl rfl (fun _ hsome => nomatch hbody.symm.trans hsome)
      fun _ => .inr (.inr (.inl rfl))
  | case9 hbody =>
    refine h.spent ?_ hbody .empty _
    nofun
  | case10 hbody hfree rest hstream _ _ buffer _ hdrained =>
    have hlocked : s.bodyState ≠ .streaming ∧ s.bodyState ≠ .buffering := by
      rw [← hstate]
      simp_all
    have hfailed := hclosed.not_failed (by simp [hstream]) hlocked.2 fun _ => hlocked.1
    obtain ⟨-, -, hyielded, hstreaming | ⟨rfl, hempty⟩⟩ :=
      h.unread hfailed hbody hlocked.2 rest hstream
    · exact absurd hstreaming hlocked.1
    have hcomplete := drain_complete hdrained
    rw [h.limit] at hcomplete
    refine ⟨h.toWhole.body rfl fun _ _ _ hreturned => ?_, h.readers, h.limit,
      fun other hother => ?_, nofun⟩
    · cases hreturned
      exact hcomplete
    · cases hother
      exact ⟨by simp [hfailed, Returned.isFailure], hcomplete, nofun,
        by simp [handedOut_concat, hempty, hyielded, Entry.handedOut]⟩

/-- A request whose body is still with the transport. -/
def unread (budget : Nat) (answers : Answers) : Request where
  budget
  stream := some answers
  bodyState := .pending

/-- As long as a request that has failed is closed to each later call, whatever is delivered is
whole. A request that is not closed delivers the next byte of its transport, past the gap. -/
theorem delivered_whole (budget : Nat) (answers : Answers) (calls : List (Option Buffering))
    (h : consuming.Meets Request.Closed (unread budget answers) calls) :
    Whole budget answers (consuming.run (unread budget answers, []) calls).2 ∧
      ∀ (s : Request) (call : Option Buffering) (byte : UInt8), s.readers = [] → s.body = none →
        s.streamedBodyBytes < s.budget → ¬s.Closed call →
        ({ s with stream := some [.ok [byte]] }.call (consumer (call.map fun _ => undisturbed))).2 =
          .ok (some [byte]) := by
  constructor
  · have hstart : Reads budget answers (unread budget answers) [] := by
      refine ⟨⟨by simp, List.nil_prefix, Nat.zero_le _⟩, rfl, rfl, nofun, ?_⟩
      rintro - - - rest ⟨⟩
      exact ⟨rfl, rfl, rfl, .inr ⟨rfl, rfl⟩⟩
    refine (consuming.run_induct_of_meets hstart (fun s log call hclosed hreads => ?_)
      calls h).toWhole
    cases call with
    | none => exact hreads.nextBodyChunk hclosed
    | some t => exact hreads.bufferBody t hclosed
  · intro s call byte hreaders hbody hbudget hopen
    simp only [Request.Closed, Classical.not_imp, not_or, not_and] at hopen
    obtain ⟨-, -, hbuffering, hstreaming⟩ := hopen
    cases call with
    | none =>
      simp [consumer, Request.call, Request.nextBodyChunk, Request.state, Request.streamedBytes,
        hreaders, hbody, hbuffering, Nat.not_lt.mpr hbudget]
    | some t =>
      have hpositive : 1 ≤ s.budget := by omega
      simp [consumer, Request.call, Request.bufferBody, Request.bufferBodyWithLimit, Request.state,
        undisturbed, drain, hreaders, hbody, hbuffering, hstreaming rfl, Nat.not_lt.mpr hpositive]

/-- The second chunk is rejected, and the remainder is not taken for the body. -/
theorem delivered_whole_rejected :
    (consuming.run (unread 3 [.ok [1, 2], .ok [3, 4], .ok [5]], [])
      [none, none, some undisturbed]).2.map Entry.returned =
        [.ok (some [1, 2]), .error (.payloadTooLarge 3), .error .alreadyStreaming] ∧
      Whole 3 [.ok [1, 2], .ok [3, 4], .ok [5]]
        (consuming.run (unread 3 [.ok [1, 2], .ok [3, 4], .ok [5]], [])
          [none, none, some undisturbed]).2 :=
  ⟨by decide, (delivered_whole 3 _ [none, none, some undisturbed]
    ⟨fun h => absurd h (by decide), fun h => absurd h (by decide), fun _ => by decide, trivial⟩).1⟩

/-- The first chunk is rejected as too large, and the remainder is buffered as the body. -/
theorem remainder_buffered :
    (consuming.run (unread 2 [.ok [1, 2, 3], .ok [4]], []) [none, some undisturbed]).2.map
      Entry.returned = [.error (.payloadTooLarge 2), .ok (some [4])] := by
  decide

end Lily.WebCore.RequestBody
