import Lily.Http.ResponseBody

/-!
# What a streaming response emits

The transport polls a stream again and again, each time with the size of the frame it can take. The
source of the stream is the list of the results it will give; a poll takes some of them, and leaves
the others for the next.
-/

namespace Lily.Http.ResponseStream

open Transition ResponseBody

/-- How many results of the source a poll takes that has seen `empty` empty chunks. -/
def taken : Nat → List SourcePoll → Nat
  | empty, .chunk [] :: rest =>
    if empty + 1 = maxEmptyChunksPerPoll then 1 else taken (empty + 1) rest + 1
  | _, _ :: _ => 1
  | _, [] => 0

/-- The stream, and what its source will answer. -/
structure State where
  stream : ResponseBodyStream
  source : List SourcePoll

structure Poll where
  requested : Nat
  answer : Polled
  deriving DecidableEq

/-- Only a stream that is neither terminal nor holds accepted bytes polls its source. -/
def State.taken (s : State) : Nat :=
  if s.stream.terminal || !s.stream.pending.isEmpty then 0 else ResponseStream.taken 0 s.source

def State.poll (requested : Nat) (s : State) : State × List Poll :=
  let result := s.stream.pollBoundedChunk requested s.source
  (⟨result.1, s.source.drop s.taken⟩, [⟨requested, result.2⟩])

def system : Reactive State Nat Poll := ⟨State.poll⟩

/-- A stream before its first poll. -/
def opened (exactLength : Option Nat) (maxChunkBytes : Nat) (maxTotalBytes : Option Nat) :
    ResponseBodyStream :=
  { exactLength, maxChunkBytes, maxTotalBytes }

/-! ## Bytes of the source and of the frames -/

def SourcePoll.bytes : SourcePoll → Bytes
  | .chunk bytes => bytes
  | _ => []

def bytesOf (results : List SourcePoll) : Bytes := results.flatMap SourcePoll.bytes

def Poll.frame : Poll → Bytes
  | ⟨_, .ready (.data bytes)⟩ => bytes
  | _ => []

def framesOf (polls : List Poll) : Bytes := polls.flatMap Poll.frame

@[simp] theorem bytesOf_append (results later : List SourcePoll) :
    bytesOf (results ++ later) = bytesOf results ++ bytesOf later :=
  List.flatMap_append

@[simp] theorem framesOf_append (polls later : List Poll) :
    framesOf (polls ++ later) = framesOf polls ++ framesOf later :=
  List.flatMap_append

/-- The poll is the end of the stream, clean or not. -/
def Poll.Last (poll : Poll) : Prop :=
  poll.answer = .ready .ended ∨ ∃ error, poll.answer = .ready (.failed error)

/-- The result that makes a stream fail which has taken `given` before it. -/
def Raises (limits : ResponseBodyStream) (given : List SourcePoll) (error : ResponseBodyError) :
    SourcePoll → Prop
  | .failed reason => error = reason
  | .chunk bytes =>
    { limits with acceptedBytes := (bytesOf given).length }.refusal bytes = some error
  | .ended => ∃ expected, limits.exactLength = some expected ∧
      expected ≠ (bytesOf given).length ∧
      error = .streamLengthIncomplete expected (bytesOf given).length
  | _ => False

/-- What an answer says about the polls before it. -/
def Permitted (limits : ResponseBodyStream) (source : List SourcePoll) (before : List Poll)
    (poll : Poll) : Prop :=
  (∀ earlier ∈ before, earlier.Last → poll.answer = .ready .ended) ∧
  match poll.answer with
  | .ready (.data frame) =>
    frame ≠ [] ∧ frame.length ≤ max poll.requested 1 ∧ frame.length ≤ limits.maxChunkBytes
  | .ready (.failed error) => ∃ given result later, source = given ++ result :: later ∧
      framesOf before = bytesOf given ∧ Raises limits given error result
  | .ready .ended => (∀ earlier ∈ before, ∀ error, earlier.answer ≠ .ready (.failed error)) →
      ∀ expected, limits.exactLength = some expected → (framesOf before).length = expected
  | _ => True

/-! ## One poll -/

/-- What a poll of the source comes to, with the results it took. -/
inductive Outcome (frame : Nat) (s : ResponseBodyStream) :
    List SourcePoll → ResponseBodyStream × Polled → Prop where
  | idle {given : List SourcePoll} {polled : Polled} (hgiven : bytesOf given = [])
      (hpolled : ∀ chunk, polled ≠ .ready chunk) : Outcome frame s given (s, polled)
  | accepted {given : List SourcePoll} {bytes : Bytes} (hgiven : bytesOf given = [])
      (hbytes : bytes ≠ []) (hrefusal : s.refusal bytes = none) :
      Outcome frame s (given ++ [.chunk bytes]) (ResponseBodyStream.emit frame
        { s with pending := bytes, acceptedBytes := s.acceptedBytes + bytes.length })
  | failed {given : List SourcePoll} {result : SourcePoll} {error : ResponseBodyError}
      (hgiven : bytesOf given = [])
      (hraises : ∀ earlier, (bytesOf earlier).length = s.acceptedBytes →
        Raises s (earlier ++ given) error result) :
      Outcome frame s (given ++ [result]) (s.fail error)
  | ended {given : List SourcePoll} (hgiven : bytesOf given = [])
      (hlength : ∀ expected, s.exactLength = some expected → s.acceptedBytes = expected) :
      Outcome frame s (given ++ [.ended]) ({ s with terminal := true }, .ready .ended)

variable {given : List SourcePoll}

theorem Outcome.skip {frame : Nat} {s : ResponseBodyStream} {result : ResponseBodyStream × Polled}
    (h : Outcome frame s given result) : Outcome frame s (.chunk [] :: given) result := by
  have hskip : ∀ {given : List SourcePoll}, bytesOf given = [] →
      bytesOf (.chunk [] :: given) = [] := fun h => h
  cases h with
  | idle hgiven hpolled => exact .idle (hskip hgiven) hpolled
  | accepted hgiven hbytes hrefusal => exact .accepted (hskip hgiven) hbytes hrefusal
  | @failed given result error hgiven hraises =>
    rw [← List.cons_append]
    refine .failed (hskip hgiven) fun earlier hearlier => ?_
    have hbytes : bytesOf (earlier ++ .chunk [] :: given) = bytesOf (earlier ++ given) := by
      simp [bytesOf, SourcePoll.bytes]
    have := hraises earlier hearlier
    unfold Raises at this ⊢
    rwa [hbytes]
  | ended hgiven hlength => exact .ended (hskip hgiven) hlength

theorem finish_outcome (frame : Nat) (s : ResponseBodyStream) :
    Outcome frame s ([] ++ [.ended]) s.finish := by
  unfold ResponseBodyStream.finish
  split
  next expected hexpected =>
    obtain ⟨hsome, hne⟩ := Option.filter_eq_some_iff.mp hexpected
    refine .failed rfl fun earlier hearlier => ⟨expected, hsome, ?_⟩
    simpa [hearlier] using hne
  next hnone =>
    refine .ended rfl fun expected hexpected => ?_
    by_contra hne
    simp [hexpected, Ne.symm hne] at hnone

theorem take_taken {empty : Nat} {result : SourcePoll} (hne : result ≠ .chunk [])
    (rest : List SourcePoll) :
    (result :: rest).take (taken empty (result :: rest)) = [] ++ [result] := by
  rw [taken]
  · rfl
  · exact hne

theorem pollSource_outcome (frame empty : Nat) (results : List SourcePoll)
    (s : ResponseBodyStream) : Outcome frame s (results.take (taken empty results))
      (s.pollSource frame empty results) := by
  fun_induction ResponseBodyStream.pollSource frame empty results s with
  | case1 empty rest s hlast =>
    rw [taken, if_pos hlast]
    exact .idle rfl (by simp)
  | case2 empty rest s hmore ih =>
    rw [taken, if_neg hmore]
    exact ih.skip
  | case3 empty bytes rest s hne error hrefusal =>
    rw [take_taken (by simpa using hne)]
    refine .failed rfl fun earlier hearlier => ?_
    simpa [Raises, hearlier] using hrefusal
  | case4 empty bytes rest s hne hrefusal =>
    rw [take_taken (by simpa using hne)]
    exact .accepted rfl (by simpa using hne) hrefusal
  | case5 empty error rest s =>
    rw [take_taken (by simp)]
    exact .failed rfl fun _ _ => rfl
  | case6 empty rest s =>
    rw [take_taken (by simp)]
    exact finish_outcome frame s
  | case7 | case8 =>
    rw [take_taken (by simp)]
    exact .idle rfl (by simp)
  | case9 => exact .idle rfl (by simp)

theorem le_of_refusal {s : ResponseBodyStream} {bytes : Bytes} (h : s.refusal bytes = none) :
    bytes.length ≤ s.maxChunkBytes ∧ s.acceptedBytes + bytes.length < 2 ^ 64 ∧
      ∀ limit, s.maxTotalBytes = some limit → s.acceptedBytes + bytes.length ≤ limit := by
  simp only [ResponseBodyStream.refusal] at h
  split_ifs at h with hchunk hword
  split at h
  · cases h
  next htotal =>
    refine ⟨by omega, by omega, fun limit hlimit => ?_⟩
    simpa [hlimit] using htotal

/-! ## Runs -/

/-- How the stream stands to its limits, its source and the polls made. -/
structure Sound (limits : ResponseBodyStream) (source : List SourcePoll) (s : State)
    (log : List Poll) : Prop where
  exactLength : s.stream.exactLength = limits.exactLength
  maxChunkBytes : s.stream.maxChunkBytes = limits.maxChunkBytes
  maxTotalBytes : s.stream.maxTotalBytes = limits.maxTotalBytes
  given : ∃ given, source = given ++ s.source ∧
    framesOf log ++ s.stream.pending <+: bytesOf given ∧
    (s.stream.terminal = false → framesOf log ++ s.stream.pending = bytesOf given)
  accepted : s.stream.acceptedBytes = (framesOf log ++ s.stream.pending).length
  emitted : s.stream.emittedBytes = (framesOf log).length
  word : s.stream.acceptedBytes < 2 ^ 64
  total : ∀ limit, limits.maxTotalBytes = some limit → s.stream.acceptedBytes ≤ limit
  chunk : s.stream.pending.length ≤ limits.maxChunkBytes
  terminal : s.stream.terminal = true → s.stream.pending = []
  last : ∀ poll ∈ log, poll.Last → s.stream.terminal = true
  closed : s.stream.terminal = true →
    (∀ poll ∈ log, ∀ error, poll.answer ≠ .ready (.failed error)) →
      ∀ expected, limits.exactLength = some expected → (framesOf log).length = expected
  justified : Justified (Permitted limits source) log

namespace Sound

variable {limits stream : ResponseBodyStream} {source rest : List SourcePoll} {log : List Poll}

theorem emit (h : Sound limits source ⟨stream, rest⟩ log) (hterminal : stream.terminal = false)
    (hpending : stream.pending ≠ []) (requested : Nat) :
    Sound limits source ⟨(stream.emit (max requested 1)).1, rest⟩
      (log ++ [⟨requested, (stream.emit (max requested 1)).2⟩]) := by
  obtain ⟨hexact, hmax, htotal, hgiven, haccepted, hemitted, hword, hlimit, hchunk, -, hlast, -,
    hjustified⟩ := h
  have hbytes : framesOf (log ++ [⟨requested, (stream.emit (max requested 1)).2⟩]) ++
      (stream.emit (max requested 1)).1.pending = framesOf log ++ stream.pending := by
    simp [framesOf, Poll.frame, ResponseBodyStream.emit]
  refine ⟨hexact, hmax, htotal, by rwa [hbytes], by rwa [hbytes], ?_, hword, hlimit, ?_, ?_, ?_, ?_,
    hjustified.snoc ⟨?_, ?_⟩⟩
  · simp [framesOf, Poll.frame, ResponseBodyStream.emit] at hemitted ⊢
    omega
  · simp only [ResponseBodyStream.emit, List.length_drop]
    exact (Nat.sub_le _ _).trans hchunk
  · simp [ResponseBodyStream.emit, hterminal]
  · intro poll hpoll hpolled
    rcases List.mem_append.mp hpoll with hpoll | hpoll
    · exact hlast poll hpoll hpolled
    · simp [List.mem_singleton.mp hpoll, Poll.Last, ResponseBodyStream.emit] at hpolled
  · simp [ResponseBodyStream.emit, hterminal]
  · exact fun poll hpoll hpolled => absurd (hlast poll hpoll hpolled) (by simp [hterminal])
  · refine ⟨?_, ?_, ?_⟩
    · simp [hpending]
    · simp
      omega
    · simp only [List.length_take]
      simp only at hchunk
      omega

variable {requested : Nat}

/-- An answer without bytes leaves the frames as they are. -/
theorem silent {polled : Polled} (hpolled : ∀ bytes, polled ≠ .ready (.data bytes)) :
    framesOf (log ++ [⟨requested, polled⟩]) = framesOf log := by
  rw [framesOf_append]
  cases polled with
  | ready chunk => cases chunk <;> simp_all [framesOf, Poll.frame]
  | pending | panicked => simp [framesOf, Poll.frame]

theorem close (h : Sound limits source ⟨stream, given ++ rest⟩ log)
    (hterminal : stream.terminal = false) (hpending : stream.pending = []) {chunk : Chunk}
    (hchunk : ∀ bytes, chunk ≠ .data bytes)
    (hclosed : chunk = .ended → ∀ expected, limits.exactLength = some expected →
      (framesOf log).length = expected)
    (hfailed : ∀ error, chunk = .failed error → ∃ given result later,
      source = given ++ result :: later ∧ framesOf log = bytesOf given ∧
        Raises limits given error result) :
    Sound limits source ⟨{ stream with terminal := true }, rest⟩
      (log ++ [⟨requested, .ready chunk⟩]) := by
  obtain ⟨hexact, hmax, htotal, ⟨earlier, hsource, -, hbytes⟩, haccepted, hemitted, hword, hlimit,
    hlength, -, hlast, -, hjustified⟩ := h
  have hframes : framesOf (log ++ [⟨requested, .ready chunk⟩]) = framesOf log :=
    silent fun bytes => by simpa using hchunk bytes
  have hopen : ∀ poll ∈ log, ¬ poll.Last := fun poll hpoll hpolled =>
    absurd (hlast poll hpoll hpolled) (by simp [hterminal])
  refine ⟨hexact, hmax, htotal, ⟨earlier ++ given, by simp [hsource], ?_, by simp⟩,
    by rwa [hframes], by rwa [hframes], hword, hlimit, hlength, fun _ => hpending,
    fun _ _ _ => rfl, ?_,
    hjustified.snoc ⟨fun poll hpoll hpolled => absurd hpolled (hopen poll hpoll), ?_⟩⟩
  · rw [hframes, hbytes hterminal, bytesOf_append]
    exact List.prefix_append _ _
  · intro _ hnone expected hexpected
    rw [hframes]
    refine hclosed ?_ expected hexpected
    cases chunk with
    | ended => rfl
    | data bytes => exact absurd rfl (hchunk bytes)
    | failed error => exact absurd rfl (hnone ⟨requested, _⟩ (by simp) error)
  · cases chunk with
    | ended => exact fun _ => hclosed rfl
    | data bytes => exact absurd rfl (hchunk bytes)
    | failed error => exact hfailed error rfl

theorem raises_congr {error : ResponseBodyError} {result : SourcePoll}
    (h : Sound limits source ⟨stream, rest⟩ log) (hraises : Raises stream given error result) :
    Raises limits given error result := by
  obtain ⟨hexact, hmax, htotal⟩ : stream.exactLength = limits.exactLength ∧
      stream.maxChunkBytes = limits.maxChunkBytes ∧ stream.maxTotalBytes = limits.maxTotalBytes :=
    ⟨h.exactLength, h.maxChunkBytes, h.maxTotalBytes⟩
  cases result with
  | chunk bytes =>
    simpa only [Raises, ResponseBodyStream.refusal, hexact, hmax, htotal] using hraises
  | ended => simpa only [Raises, hexact] using hraises
  | _ => exact hraises

/-- Results without bytes are passed over. -/
theorem pass (h : Sound limits source ⟨stream, given ++ rest⟩ log)
    (hgiven : bytesOf given = []) : Sound limits source ⟨stream, rest⟩ log := by
  obtain ⟨earlier, hsource, hframes, hbytes⟩ := h.given
  exact { h with given := ⟨earlier ++ given, by simp [hsource], by simpa [hgiven] using hframes,
    by simpa [hgiven] using hbytes⟩ }

theorem accept {bytes : Bytes} (h : Sound limits source ⟨stream, .chunk bytes :: rest⟩ log)
    (hterminal : stream.terminal = false) (hpending : stream.pending = [])
    (hrefusal : stream.refusal bytes = none) :
    Sound limits source ⟨{ stream with
      pending := bytes, acceptedBytes := stream.acceptedBytes + bytes.length }, rest⟩ log := by
  obtain ⟨hchunk, hword, htotal⟩ := le_of_refusal hrefusal
  obtain ⟨earlier, hsource, -, hbytes⟩ := h.given
  have hframes : framesOf log = bytesOf earlier := by simpa [hpending] using hbytes hterminal
  have hgiven : framesOf log ++ bytes = bytesOf (earlier ++ [.chunk bytes]) := by
    simp [hframes, bytesOf, SourcePoll.bytes]
  refine { h with
    given := ⟨earlier ++ [.chunk bytes], by simp [hsource], hgiven ▸ List.prefix_rfl,
      fun _ => hgiven⟩
    accepted := by simpa [hpending] using h.accepted
    word := hword
    total := fun limit hlimit => htotal limit (h.maxTotalBytes.trans hlimit)
    chunk := h.maxChunkBytes ▸ hchunk
    terminal := by simp [hterminal] }

/-- The stream has nothing to give now. -/
theorem wait (h : Sound limits source ⟨stream, rest⟩ log) (hterminal : stream.terminal = false)
    {polled : Polled} (hpolled : ∀ chunk, polled ≠ .ready chunk) (requested : Nat) :
    Sound limits source ⟨stream, rest⟩ (log ++ [⟨requested, polled⟩]) := by
  have hframes : framesOf (log ++ [⟨requested, polled⟩]) = framesOf log :=
    silent fun bytes => hpolled (.data bytes)
  have hnot : ¬ (⟨requested, polled⟩ : Poll).Last := by simp [Poll.Last, hpolled]
  refine { h with
    given := by simpa only [hframes] using h.given
    accepted := by simpa only [hframes] using h.accepted
    emitted := by simpa only [hframes] using h.emitted
    last := ?_
    closed := by simp [hterminal]
    justified := h.justified.snoc ⟨fun poll hpoll hpolled => ?_, ?_⟩ }
  · intro poll hpoll hlast
    rcases List.mem_append.mp hpoll with hpoll | hpoll
    · exact h.last poll hpoll hlast
    · exact absurd (List.mem_singleton.mp hpoll ▸ hlast) hnot
  · exact absurd (h.last poll hpoll hpolled) (by simp [hterminal])
  · cases polled with
    | ready chunk => exact absurd rfl (hpolled chunk)
    | pending | panicked => trivial

theorem outcome {result : ResponseBodyStream × Polled}
    (h : Sound limits source ⟨stream, given ++ rest⟩ log) (hterminal : stream.terminal = false)
    (hpending : stream.pending = []) (houtcome : Outcome (max requested 1) stream given result) :
    Sound limits source ⟨result.1, rest⟩ (log ++ [⟨requested, result.2⟩]) := by
  obtain ⟨earlier, hsource, -, hbytes⟩ := h.given
  have hframes : framesOf log = bytesOf earlier := by simpa [hpending] using hbytes hterminal
  have haccepted : (bytesOf earlier).length = stream.acceptedBytes := by
    simpa [hpending, hframes, eq_comm] using h.accepted
  cases houtcome with
  | idle hgiven hpolled => exact (h.pass hgiven).wait hterminal hpolled requested
  | @accepted given bytes hgiven hne hrefusal =>
    rw [List.append_assoc] at h
    exact ((h.pass hgiven).accept hterminal hpending hrefusal).emit hterminal hne requested
  | @failed given raised error hgiven hraises =>
    refine h.close hterminal hpending (by simp) (by simp) ?_
    rintro _ ⟨rfl⟩
    refine ⟨earlier ++ given, raised, rest, by simp [hsource], by simp [hframes, hgiven], ?_⟩
    exact h.raises_congr (hraises earlier haccepted)
  | ended hgiven hlength =>
    refine h.close hterminal hpending (by simp) ?_ (by simp)
    intro _ expected hexpected
    rw [hframes, haccepted]
    exact hlength expected (h.exactLength.trans hexpected)

/-- A poll after the end. -/
theorem again {s : State} (h : Sound limits source s log) (hterminal : s.stream.terminal = true)
    (requested : Nat) : Sound limits source s (log ++ [⟨requested, .ready .ended⟩]) := by
  have hframes : framesOf (log ++ [⟨requested, .ready .ended⟩]) = framesOf log := silent (by simp)
  refine { h with
    given := by simpa only [hframes] using h.given
    accepted := by simpa only [hframes] using h.accepted
    emitted := by simpa only [hframes] using h.emitted
    last := fun _ _ _ => hterminal
    closed := fun _ hnone => ?_
    justified := h.justified.snoc ⟨fun _ _ _ => rfl, h.closed hterminal⟩ }
  rw [hframes]
  exact h.closed hterminal fun poll hpoll => hnone poll (List.mem_append_left _ hpoll)

theorem poll {s : State} (h : Sound limits source s log) (requested : Nat) :
    Sound limits source (s.poll requested).1 (log ++ (s.poll requested).2) := by
  obtain ⟨stream, results⟩ := s
  simp only [State.poll, State.taken, ResponseBodyStream.pollBoundedChunk]
  by_cases hterminal : stream.terminal = true
  · simpa [hterminal] using h.again hterminal requested
  · rw [Bool.not_eq_true] at hterminal
    by_cases hpending : stream.pending = []
    · have hsplit := (List.take_append_drop (taken 0 results) results).symm
      rw [hsplit] at h
      simpa [hterminal, hpending] using h.outcome hterminal hpending
        (pollSource_outcome (max requested 1) 0 results stream)
    · simpa [hterminal, hpending] using h.emit hterminal hpending requested

end Sound

theorem run_sound (exactLength : Option Nat) (maxChunkBytes : Nat) (maxTotalBytes : Option Nat)
    (source : List SourcePoll) (requests : List Nat) :
    let w := system.run (⟨opened exactLength maxChunkBytes maxTotalBytes, source⟩, []) requests
    Sound (opened exactLength maxChunkBytes maxTotalBytes) source w.1 w.2 := by
  refine system.run_induct ?_ (fun s log requested h => h.poll requested) requests
  constructor
  case given => exact ⟨[], rfl, List.prefix_rfl, fun _ => rfl⟩
  case justified => exact Justified.nil
  all_goals simp [opened, framesOf]

/-- However the source and the transport behave, the frames are a beginning of the source's bytes,
within the limits, and the first error or end is the last thing that is emitted. -/
theorem stream_bounded (exactLength : Option Nat) (maxChunkBytes : Nat)
    (maxTotalBytes : Option Nat) (source : List SourcePoll) (requests : List Nat) :
    let limits := opened exactLength maxChunkBytes maxTotalBytes
    let w := system.run (⟨limits, source⟩, []) requests
    framesOf w.2 <+: bytesOf source ∧
    (∀ poll ∈ w.2, ∀ frame, poll.answer = .ready (.data frame) →
      frame ≠ [] ∧ frame.length ≤ max poll.requested 1 ∧ frame.length ≤ maxChunkBytes) ∧
    w.1.stream.emittedBytes = (framesOf w.2).length ∧ w.1.stream.emittedBytes < 2 ^ 64 ∧
    (∀ limit, maxTotalBytes = some limit → w.1.stream.emittedBytes ≤ limit) ∧
    ∀ before poll after, w.2 = before ++ poll :: after →
      (poll.answer = .ready .ended →
        (∀ earlier ∈ before, ∀ error, earlier.answer ≠ .ready (.failed error)) →
        ∀ expected, exactLength = some expected → (framesOf before).length = expected) ∧
      (∀ error, poll.answer = .ready (.failed error) → ∃ given result later,
        source = given ++ result :: later ∧ framesOf before = bytesOf given ∧
          Raises limits given error result) ∧
      (poll.Last → ∀ later ∈ after, later.answer = .ready .ended) := by
  intro limits w
  have h : Sound limits source w.1 w.2 :=
    run_sound exactLength maxChunkBytes maxTotalBytes source requests
  obtain ⟨given, hsource, hbytes, -⟩ := h.given
  have hemitted : w.1.stream.emittedBytes ≤ w.1.stream.acceptedBytes := by
    rw [h.emitted, h.accepted, List.length_append]
    omega
  refine ⟨?_, ?_, h.emitted, hemitted.trans_lt h.word,
    fun limit hlimit => hemitted.trans (h.total limit hlimit), ?_⟩
  · have hgiven : bytesOf given <+: bytesOf source := by
      rw [hsource, bytesOf_append]
      exact List.prefix_append _ _
    exact (List.prefix_append _ _).trans (hbytes.trans hgiven)
  · intro poll hpoll frame hframe
    obtain ⟨before, ⟨-, hpermitted⟩, -⟩ := h.justified.mem hpoll
    rw [hframe] at hpermitted
    exact hpermitted
  · intro before poll after hsplit
    have hpermitted := (h.justified before poll after hsplit).2
    refine ⟨fun hended => ?_, fun error hfailed => ?_, fun hlast later hlater => ?_⟩
    · rw [hended] at hpermitted
      exact hpermitted
    · rw [hfailed] at hpermitted
      exact hpermitted
    · obtain ⟨middle, rest, rfl⟩ := List.append_of_mem hlater
      refine (h.justified (before ++ poll :: middle) later rest ?_).1 poll (by simp) hlast
      rw [hsplit, List.append_assoc, List.cons_append]

/-- A transport that asks for no bytes is given one. -/
theorem stream_frame_of_zero :
    (system.run (⟨opened none 1 none, [.chunk [97]]⟩, []) [0]).2 =
      [⟨0, .ready (.data [97])⟩] := by
  decide

end Lily.Http.ResponseStream
