import Lily.Control.Validation
import Lily.Text.Lines
import Mathlib.Data.List.Nodup

/-!
# Server-sent events and what a browser reads

An event is encoded when it is built: its data first, line by line, then the other fields in the
order of the calls that set them. `parse` is the event stream algorithm of the WHATWG.
-/

namespace Lily.WebCore.ServerSentEvent

open Lines
open Utf8 (bytes)

/-! ## The encoder -/

def maxSseEventBytes : Nat := 64 * 1024

def maxSseEventNameBytes : Nat := 1024

def maxSseEventIdBytes : Nat := 1024

/-- A day, in nanoseconds. -/
def maxSseRetry : Nat := 24 * 60 * 60 * 10 ^ 9

/-- The fields that may be set once. -/
inductive Field where
  | event
  | id
  | retry
  deriving DecidableEq

inductive SseEventError where
  | dataTooLarge (limitBytes : Nat)
  | eventNameTooLong (limitBytes : Nat)
  | eventIdTooLong (limitBytes : Nat)
  | lineTerminator (field : Field)
  | nullEventId
  | duplicateField (field : Field)
  | invalidRetry

structure SseEvent where
  encoded : List UInt8
  fields : List Field

def dataField : List Char := ['d', 'a', 't', 'a', ':']

def Field.text : Field → List Char
  | .event => ['e', 'v', 'e', 'n', 't', ':']
  | .id => ['i', 'd', ':']
  | .retry => ['r', 'e', 't', 'r', 'y', ':']

def encodedDataLen (data : List UInt8) : Nat :=
  (lines 13 10 data).foldl (fun total line => total + (bytes dataField).length + line.length + 1) 1

def encodeData (data : List Char) : Except SseEventError (List UInt8) :=
  if maxSseEventBytes < encodedDataLen (bytes data) then .error (.dataTooLarge maxSseEventBytes)
  else .ok <|
    (lines 13 10 (bytes data)).flatMap (fun line => bytes dataField ++ line ++ [10]) ++ [10]

namespace SseEvent

def new (data : List Char) : Except SseEventError SseEvent :=
  (encodeData data).map (⟨·, []⟩)

/-- The new field takes the place of the empty line at the end. -/
def appendField (field : Field) (value : List UInt8) (e : SseEvent) :
    Except SseEventError SseEvent :=
  if maxSseEventBytes < e.encoded.length + ((bytes field.text).length + value.length + 1) then
    .error (.dataTooLarge maxSseEventBytes)
  else .ok ⟨e.encoded.dropLast ++ bytes field.text ++ value ++ [10, 10], field :: e.fields⟩

variable (value : List Char) (e : SseEvent)

def hasLineTerminator : Bool := (bytes value).any fun b => b == 13 || b == 10

def event : Except SseEventError SseEvent :=
  if .event ∈ e.fields then .error (.duplicateField .event)
  else if maxSseEventNameBytes < (bytes value).length then
    .error (.eventNameTooLong maxSseEventNameBytes)
  else if hasLineTerminator value then .error (.lineTerminator .event)
  else e.appendField .event (bytes value)

def id : Except SseEventError SseEvent :=
  if .id ∈ e.fields then .error (.duplicateField .id)
  else if maxSseEventIdBytes < (bytes value).length then .error (.eventIdTooLong maxSseEventIdBytes)
  else if hasLineTerminator value then .error (.lineTerminator .id)
  else if (bytes value).contains 0 then .error .nullEventId
  else e.appendField .id (bytes value)

/-- A duration is a number of nanoseconds; what is below a millisecond is cut off. -/
def retry (duration : Nat) (e : SseEvent) : Except SseEventError SseEvent :=
  if .retry ∈ e.fields then .error (.duplicateField .retry)
  else if duration < 10 ^ 6 ∨ maxSseRetry < duration then .error .invalidRetry
  else e.appendField .retry (bytes (Nat.toDigits 10 (duration / 10 ^ 6)))

end SseEvent

inductive Call where
  | event (value : List Char)
  | id (value : List Char)
  | retry (duration : Nat)

def Call.apply : Call → SseEvent → Except SseEventError SseEvent
  | .event value => SseEvent.event value
  | .id value => SseEvent.id value
  | .retry duration => SseEvent.retry duration

/-- A call takes the event by value: who goes on after a failure has kept the event of before. -/
def SseEvent.attempt (e : SseEvent) (call : Call) : SseEvent := (call.apply e).toOption.getD e

def build (data : List Char) (calls : List Call) : Except SseEventError SseEvent := do
  let e ← SseEvent.new data
  calls.foldlM (fun e call => call.apply e) e

/-! ## The reader -/

structure Message where
  type : List Char
  data : List Char
  lastEventId : List Char
  deriving DecidableEq

/-- The buffers of the reader, and what it has done. -/
structure Reader where
  data : List Char := []
  eventType : List Char := []
  eventId : List Char := []
  reconnectionTime : Option Nat := none
  dispatched : List Message := []

namespace Reader

def messageType : List Char := ['m', 'e', 's', 's', 'a', 'g', 'e']

/-- Data ends with the LF that its last line has added. -/
def dispatch (r : Reader) : Reader :=
  if r.data = [] then { r with eventType := [] }
  else { r with
    data := []
    eventType := []
    dispatched := r.dispatched ++
      [⟨if r.eventType = [] then messageType else r.eventType, r.data.dropLast, r.eventId⟩] }

def processField (name value : List Char) (r : Reader) : Reader :=
  if name = ['e', 'v', 'e', 'n', 't'] then { r with eventType := value }
  else if name = ['d', 'a', 't', 'a'] then { r with data := r.data ++ value ++ ['\n'] }
  else if name = ['i', 'd'] then if '\x00' ∈ value then r else { r with eventId := value }
  else if name = ['r', 'e', 't', 'r', 'y'] then
    if value.all Char.isDigit then { r with reconnectionTime := some (Nat.ofDigitChars 10 value 0) }
    else r
  else r

/-- One space after the colon is not part of the value. -/
def withoutSpace : List Char → List Char
  | ' ' :: value => value
  | value => value

def processLine (r : Reader) (line : List Char) : Reader :=
  if line = [] then r.dispatch
  else match line.dropWhile (· != ':') with
    | [] => r.processField line []
    | _ :: value =>
      if line.head? = some ':' then r
      else r.processField (line.takeWhile (· != ':')) (withoutSpace value)

end Reader

/-- A byte order mark at the start is dropped, and so is a line that the stream does not end. -/
def parse (stream : List UInt8) : Option Reader :=
  (Utf8.decode stream).map fun text =>
    let text := if text.head? = some '\uFEFF' then text.tail else text
    (lines '\r' '\n' text).dropLast.foldl Reader.processLine {}

/-! ## What was asked for -/

/-- The values of the calls; a call that succeeds is the only one for its field. -/
structure Given where
  event : Option (List Char) := none
  id : Option (List Char) := none
  retry : Option Nat := none

variable (data : List Char) (g : Given) (r : Reader)

def Given.set : Call → Given
  | .event value => { g with event := some value }
  | .id value => { g with id := some value }
  | .retry duration => { g with retry := some duration }

def given (calls : List Call) : Given := calls.foldl Given.set {}

/-- One event, with the data and the values given. -/
def Delivered : Prop :=
  r.dispatched =
    [⟨g.event.getD Reader.messageType, normalize '\r' '\n' data, g.id.getD []⟩] ∧
  r.reconnectionTime.map (· * 10 ^ 6) = g.retry

/-- No line and no value starts with a space, the type is not empty, and the duration is a number of
milliseconds. -/
def Plain : Prop :=
  (∀ line ∈ lines '\r' '\n' data, line.head? ≠ some ' ') ∧
  (∀ value, g.event = some value → value ≠ [] ∧ value.head? ≠ some ' ') ∧
  (∀ value, g.id = some value → value.head? ≠ some ' ') ∧
  ∀ duration, g.retry = some duration → 10 ^ 6 ∣ duration

/-! ## The lines of an encoded event -/

variable (ls : List (List Char))

def wire : List Char := ls.flatMap (· ++ ['\n']) ++ ['\n']

theorem lines_wire {ls : List (List Char)} (h : ∀ l ∈ ls, '\r' ∉ l ∧ '\n' ∉ l) :
    lines '\r' '\n' (wire ls) = ls ++ [[], []] := by
  induction ls with
  | nil => decide
  | cons l ls ih =>
    obtain ⟨hl, hls⟩ := List.forall_mem_cons.mp h
    have hwire : wire (l :: ls) = l ++ '\n' :: wire ls := by simp [wire]
    rw [hwire, lines_append (by decide) hl.1 hl.2, ih hls]
    rfl

theorem bytes_wire : bytes (wire ls) = ls.flatMap (fun l => bytes l ++ [10]) ++ [10] := by
  have hend : bytes ['\n'] = [10] := by decide
  induction ls with
  | nil => exact hend
  | cons l ls ih =>
    have hwire : wire (l :: ls) = l ++ ['\n'] ++ wire ls := by simp [wire]
    rw [hwire, Utf8.bytes_append, Utf8.bytes_append, hend, ih, List.flatMap_cons,
      List.append_assoc _ _ [10]]

/-- The buffers when all fields have been read. -/
def buffered : Reader where
  data := (lines '\r' '\n' data).flatMap fun line => Reader.withoutSpace line ++ ['\n']
  eventType := (g.event.map Reader.withoutSpace).getD []
  eventId := (g.id.map Reader.withoutSpace).getD []
  reconnectionTime := g.retry.map (· / 10 ^ 6)

/-- The bytes of an event are lines that fill the buffers of a reader. -/
structure Encodes (e : SseEvent) (data : List Char) (g : Given) (ls : List (List Char)) : Prop where
  encoded : e.encoded = bytes (wire ls)
  plain : ∀ l ∈ ls, '\r' ∉ l ∧ '\n' ∉ l
  start : (wire ls).head? = some 'd'
  read : ls.foldl Reader.processLine {} = buffered data g

theorem processLine_data (line : List Char) : r.processLine (dataField ++ line) =
    { r with data := r.data ++ (Reader.withoutSpace line ++ ['\n']) } := by
  simp [Reader.processLine, dataField, Reader.processField]

theorem foldl_data (r : Reader) :
    (ls.map (dataField ++ ·)).foldl Reader.processLine r =
      { r with data := r.data ++ ls.flatMap fun line => Reader.withoutSpace line ++ ['\n'] } := by
  induction ls generalizing r with
  | nil => simp
  | cons line ls ih =>
    rw [List.map_cons, List.foldl_cons, processLine_data, ih]
    simp

theorem new_ok {data : List Char} {e : SseEvent} (h : SseEvent.new data = .ok e) :
    encodedDataLen (bytes data) ≤ maxSseEventBytes ∧
      e = ⟨(lines 13 10 (bytes data)).flatMap (fun line => bytes dataField ++ line ++ [10]) ++ [10],
        []⟩ := by
  unfold SseEvent.new encodeData at h
  split at h
  next => cases h
  next hfits => exact ⟨Nat.le_of_not_lt hfits, (Except.ok.inj h).symm⟩

theorem encodes_new {data : List Char} {e : SseEvent} (h : SseEvent.new data = .ok e) :
    Encodes e data {} ((lines '\r' '\n' data).map (dataField ++ ·)) := by
  have hplain : '\r' ∉ dataField ∧ '\n' ∉ dataField := by decide
  refine ⟨?_, ?_, ?_, ?_⟩
  · simp only [(new_ok h).2, lines_bytes, bytes_wire, List.flatMap_map, Utf8.bytes_append]
  · intro l hl
    obtain ⟨line, hline, rfl⟩ := List.mem_map.mp hl
    have := notMem_of_mem_lines hline
    simp [hplain, this]
  · obtain ⟨first, others, hlines⟩ := List.exists_cons_of_ne_nil (lines_ne_nil '\r' '\n' data)
    simp [hlines, wire, dataField]
  · rw [foldl_data]
    rfl

/-! ## The other fields -/

theorem mem_bytes_of_mem {c : Char} {text : List Char} (hascii : c.toNat < 128) (h : c ∈ text) :
    UInt8.ofNat c.toNat ∈ bytes text :=
  List.mem_flatMap.mpr ⟨c, h, by simp [Utf8.utf8EncodeChar_ascii hascii]⟩

variable {value : List Char}

theorem notMem_of_hasLineTerminator
    (h : SseEvent.hasLineTerminator value = false) : '\r' ∉ value ∧ '\n' ∉ value := by
  have hbytes := List.any_eq_false.mp h
  exact ⟨fun hmem => hbytes _ (mem_bytes_of_mem (by decide) hmem) (by decide),
    fun hmem => hbytes _ (mem_bytes_of_mem (by decide) hmem) (by decide)⟩

variable {e e' : SseEvent} {data : List Char} {g : Given} {ls : List (List Char)}

theorem appendField_ok {field : Field} {bs : List UInt8} (h : e.appendField field bs = .ok e') :
    e.encoded.length + ((bytes field.text).length + bs.length + 1) ≤ maxSseEventBytes ∧
      e' = ⟨e.encoded.dropLast ++ bytes field.text ++ bs ++ [10, 10], field :: e.fields⟩ := by
  unfold SseEvent.appendField at h
  split at h
  next => cases h
  next hfits => exact ⟨Nat.le_of_not_lt hfits, (Except.ok.inj h).symm⟩

/-- A field whose line the reader takes for the call. -/
theorem Encodes.appendField (h : Encodes e data g ls) {field : Field} {g' : Given}
    (hvalue : '\r' ∉ value ∧ '\n' ∉ value) (happend : e.appendField field (bytes value) = .ok e')
    (hread : (buffered data g).processLine (field.text ++ value) = buffered data g') :
    Encodes e' data g' (ls ++ [field.text ++ value]) := by
  have hplain : '\r' ∉ field.text ∧ '\n' ∉ field.text := by
    cases field <;> decide
  have hwire : wire (ls ++ [field.text ++ value]) =
      ls.flatMap (· ++ ['\n']) ++ (field.text ++ value ++ ['\n', '\n']) := by
    simp [wire]
  refine ⟨?_, ?_, ?_, ?_⟩
  · simp only [(appendField_ok happend).2, h.encoded, bytes_wire, List.dropLast_concat,
      List.flatMap_append, List.flatMap_singleton, Utf8.bytes_append, List.append_assoc]
    rfl
  · intro l hl
    rcases List.mem_append.mp hl with hl | hl
    · exact h.plain l hl
    · rw [List.mem_singleton.mp hl]
      simp [hplain, hvalue]
  · have hstart := h.start
    rw [hwire]
    rw [wire] at hstart
    cases hflat : ls.flatMap (· ++ ['\n']) with
    | nil => simp [hflat] at hstart
    | cons c rest => simpa [hflat] using hstart
  · rw [List.foldl_append, h.read]
    exact hread

theorem withoutSpace_digits {n : Nat} :
    Reader.withoutSpace (Nat.toDigits 10 n) = Nat.toDigits 10 n := by
  cases hdigits : Nat.toDigits 10 n with
  | nil => rfl
  | cons c rest =>
    have hc : c.isDigit = true :=
      Nat.isDigit_of_mem_toDigits (by decide) (by decide) (hdigits ▸ List.mem_cons_self)
    unfold Reader.withoutSpace
    split
    next heq =>
      obtain ⟨rfl, -⟩ := List.cons.inj heq
      exact absurd hc (by decide)
    next => rfl

theorem processLine_retry (r : Reader) (n : Nat) :
    r.processLine (Field.retry.text ++ Nat.toDigits 10 n) =
      { r with reconnectionTime := some n } := by
  have hdigits : (Nat.toDigits 10 n).all Char.isDigit = true := List.all_eq_true.mpr fun c hc =>
    Nat.isDigit_of_mem_toDigits (by decide) (by decide) hc
  simp only [Reader.processLine, Field.text, Reader.processField]
  simp [withoutSpace_digits, -List.all_eq_true, hdigits]

theorem notMem_withoutSpace {c : Char} (h : c ∉ value) : c ∉ Reader.withoutSpace value := by
  unfold Reader.withoutSpace
  split
  · exact fun hc => h (List.mem_cons_of_mem _ hc)
  · exact h

theorem Encodes.call (h : Encodes e data g ls) {call : Call} (hcall : call.apply e = .ok e') :
    ∃ field value, field ∉ e.fields ∧ e.appendField field (bytes value) = .ok e' ∧
      Encodes e' data (g.set call) (ls ++ [field.text ++ value]) := by
  cases call with
  | event value =>
    simp only [Call.apply, SseEvent.event] at hcall
    split_ifs at hcall with hduplicate hlong hterminator
    refine ⟨_, _, hduplicate, hcall,
      h.appendField (notMem_of_hasLineTerminator (by simpa using hterminator)) hcall ?_⟩
    simp [Reader.processLine, Field.text, Reader.processField, buffered, Given.set]
  | id value =>
    simp only [Call.apply, SseEvent.id] at hcall
    split_ifs at hcall with hduplicate hlong hterminator hnull
    refine ⟨_, _, hduplicate, hcall,
      h.appendField (notMem_of_hasLineTerminator (by simpa using hterminator)) hcall ?_⟩
    have hvalue : '\x00' ∉ Reader.withoutSpace value := notMem_withoutSpace fun hmem =>
      hnull (List.contains_iff_mem.mpr (mem_bytes_of_mem (by decide) hmem))
    simp [Reader.processLine, Field.text, Reader.processField, buffered, Given.set, hvalue]
  | retry duration =>
    simp only [Call.apply, SseEvent.retry] at hcall
    split_ifs at hcall with hduplicate hrange
    have hdigits : ∀ c ∈ Nat.toDigits 10 (duration / 10 ^ 6), c.isDigit = true := fun c hc =>
      Nat.isDigit_of_mem_toDigits (by decide) (by decide) hc
    refine ⟨_, _, hduplicate, hcall, h.appendField ⟨fun hc => absurd (hdigits _ hc) (by decide),
      fun hc => absurd (hdigits _ hc) (by decide)⟩ hcall ?_⟩
    rw [processLine_retry]
    rfl

/-- The lines of the data, then one for each field that was set. -/
def fieldLines (data : List Char) (set : List (Field × List Char)) : List (List Char) :=
  (lines '\r' '\n' data).map (dataField ++ ·) ++ set.map fun p => p.1.text ++ p.2

def computedLen (data : List Char) (set : List (Field × List Char)) : Nat :=
  encodedDataLen (bytes data) +
    (set.map fun p => (bytes p.1.text).length + (bytes p.2).length + 1).sum

structure Framed (data : List Char) (set : List (Field × List Char)) (e : SseEvent) : Prop where
  fields : e.fields = (set.map Prod.fst).reverse
  nodup : e.fields.Nodup
  length : e.encoded.length = computedLen data set
  fits : e.encoded.length ≤ maxSseEventBytes

theorem framed_new (h : SseEvent.new data = .ok e) : Framed data [] e := by
  obtain ⟨hfits, rfl⟩ := new_ok h
  have hlength (ls : List (List UInt8)) (total : Nat) :
      ls.foldl (fun total line => total + (bytes dataField).length + line.length + 1) total =
        total + (ls.flatMap fun line => bytes dataField ++ line ++ [10]).length := by
    induction ls generalizing total with
    | nil => rfl
    | cons line ls ih =>
      rw [List.foldl_cons, ih]
      simp
      omega
  have hdata := hlength (lines 13 10 (bytes data)) 1
  rw [← encodedDataLen] at hdata
  refine ⟨rfl, List.nodup_nil, ?_, ?_⟩
  all_goals simp only [List.length_append, List.length_singleton, computedLen, List.map_nil,
    List.sum_nil]
  all_goals omega

theorem Framed.snoc {set : List (Field × List Char)} (h : Framed data set e) {field : Field}
    (hnew : field ∉ e.fields) (hne : e.encoded ≠ [])
    (happend : e.appendField field (bytes value) = .ok e') :
    Framed data (set ++ [(field, value)]) e' := by
  obtain ⟨hfits, rfl⟩ := appendField_ok happend
  have hpos := List.length_pos_iff.mpr hne
  refine ⟨by simp [h.fields], List.nodup_cons.mpr ⟨hnew, h.nodup⟩, ?_, ?_⟩
  · have hlength := h.length
    simp only [computedLen, List.map_append, List.map_singleton, List.sum_append,
      List.sum_singleton, List.length_append, List.length_dropLast, List.length_cons,
      List.length_nil] at hlength ⊢
    omega
  · simp only [List.length_append, List.length_dropLast, List.length_cons, List.length_nil]
    omega

theorem encodes_build {calls : List Call} (h : build data calls = .ok e) :
    ∃ set, Encodes e data (given calls) (fieldLines data set) ∧ Framed data set e := by
  obtain ⟨start, hnew, hcalls⟩ := Validation.bind_ok_iff.mp h
  refine Validation.foldlM_invariant (P := fun done e => ∃ set,
    Encodes e data (given done) (fieldLines data set) ∧ Framed data set e) hcalls
    ⟨[], by simpa [fieldLines, given] using encodes_new hnew, framed_new hnew⟩ ?_
  rintro done call rest e e' - ⟨set, hencodes, hframed⟩ hcall
  obtain ⟨field, value, hfield, happend, hencodes'⟩ := hencodes.call hcall
  have hne : e.encoded ≠ [] := by simp [hencodes.encoded, bytes_wire]
  refine ⟨set ++ [(field, value)], ?_, hframed.snoc hfield hne happend⟩
  simpa [given, fieldLines] using hencodes'

theorem build_snoc {calls : List Call} (h : build data calls = .ok e) (call : Call) :
    build data (calls ++ [call]) = call.apply e := by
  obtain ⟨start, hnew, hcalls⟩ := Validation.bind_ok_iff.mp h
  rw [build, hnew]
  show (calls ++ [call]).foldlM (fun e call => call.apply e) start = call.apply e
  rw [List.foldlM_append, hcalls]
  simp only [List.foldlM_cons, List.foldlM_nil, bind_pure]
  rfl

/-- Of a chain of attempts only the calls that succeeded are left in the event. -/
theorem build_accepted {calls : List Call} (h : build data calls = .ok e) (attempts : List Call) :
    ∃ accepted, accepted.Sublist attempts ∧
      build data (calls ++ accepted) = .ok (attempts.foldl SseEvent.attempt e) := by
  induction attempts generalizing e calls with
  | nil => exact ⟨[], .slnil, by rwa [List.append_nil]⟩
  | cons call attempts ih =>
    rw [List.foldl_cons]
    cases hcall : call.apply e with
    | error error =>
      have hkept : e.attempt call = e := by rw [SseEvent.attempt, hcall]; rfl
      obtain ⟨accepted, hsublist, hbuild⟩ := ih h
      exact ⟨accepted, hsublist.cons call, hkept.symm ▸ hbuild⟩
    | ok next =>
      have hnext : e.attempt call = next := by rw [SseEvent.attempt, hcall]; rfl
      obtain ⟨accepted, hsublist, hbuild⟩ := ih ((build_snoc h call).trans hcall)
      rw [List.append_assoc] at hbuild
      exact ⟨call :: accepted, hsublist.cons_cons call, hnext.symm ▸ hbuild⟩

/-- Every event that is built is lines with the name of a field each, none but the data twice, then
one empty line; its length is the one computed. Calls that fail leave nothing behind: after any
further attempts the event is the one that the successful calls alone build. -/
theorem build_framed (data : List Char) (calls : List Call) : Validation.Outcome (fun e =>
    (∃ (content : List (List UInt8)) (set : List (Field × List Char)),
      lines 13 10 e.encoded = content.map (bytes dataField ++ ·) ++
        set.map (fun p => bytes p.1.text ++ bytes p.2) ++ [[], []] ∧
      (set.map Prod.fst).Nodup ∧ e.encoded.length = computedLen data set) ∧
    (13 : UInt8) ∉ e.encoded ∧ e.encoded.length ≤ maxSseEventBytes ∧
    ∀ attempts, ∃ accepted : List Call, accepted.Sublist attempts ∧
      build data (calls ++ accepted) = .ok (attempts.foldl SseEvent.attempt e))
    (fun _ => True) (build data calls) := by
  refine Validation.Outcome.imp (Validation.Outcome.self fun _ => trivial) fun e h => ?_
  obtain ⟨set, hencodes, hframed⟩ := encodes_build h
  refine ⟨⟨(lines '\r' '\n' data).map bytes, set, ?_, ?_, hframed.length⟩, ?_, hframed.fits,
    build_accepted h⟩
  · rw [hencodes.encoded, lines_bytes, lines_wire hencodes.plain]
    simp [fieldLines, Function.comp_def, Utf8.bytes]
  · simpa [hframed.fields, List.nodup_reverse] using hframed.nodup
  · rw [hencodes.encoded]
    intro h13
    obtain ⟨c, hc, hbyte⟩ := List.mem_flatMap.mp h13
    have hcr : c ≠ '\r' := by
      rintro rfl
      simp only [wire, List.mem_append, List.mem_flatMap, List.mem_singleton] at hc
      rcases hc with ⟨l, hl, hmem | hmem⟩ | hmem
      · exact (hencodes.plain l hl).1 hmem
      all_goals exact absurd hmem (by decide)
    exact notMem_utf8EncodeChar (by decide) (fun heq => hcr (Char.toNat_inj.mp heq)) hbyte

theorem parse_of_encodes (h : Encodes e data g ls) :
    parse e.encoded = some (buffered data g).dispatch := by
  have hstart : (wire ls).head? ≠ some '\uFEFF' := by
    rw [h.start]
    decide
  have hlines : (lines '\r' '\n' (wire ls)).dropLast = ls ++ [[]] := by
    rw [lines_wire h.plain]
    exact List.dropLast_append_cons
  simp only [parse, h.encoded, Utf8.decode_bytes, Option.map_some, if_neg hstart, hlines,
    List.foldl_append, h.read]
  rfl

/-! ## What is delivered -/

theorem dropLast_flatMap {ls : List (List Char)} (h : ls ≠ []) :
    (ls.flatMap (· ++ ['\n'])).dropLast = ['\n'].intercalate ls := by
  induction ls with
  | nil => exact absurd rfl h
  | cons l ls ih =>
    by_cases hls : ls = []
    · simp [hls]
    · have hne : ls.flatMap (· ++ ['\n']) ≠ [] := by
        obtain ⟨next, others, rfl⟩ := List.exists_cons_of_ne_nil hls
        simp
      rw [List.flatMap_cons, List.dropLast_append_of_ne_nil hne, ih hls,
        List.intercalate_cons_of_ne_nil hls]

theorem withoutSpace_eq_self_iff : Reader.withoutSpace value = value ↔ value.head? ≠ some ' ' := by
  cases value with
  | nil => simp [Reader.withoutSpace]
  | cons c rest =>
    by_cases hc : c = ' '
    · simp [hc, Reader.withoutSpace]
    · simp [Reader.withoutSpace, hc]

theorem dispatch_buffered (data : List Char) (g : Given) :
    (buffered data g).dispatch.dispatched =
      [⟨if (g.event.map Reader.withoutSpace).getD [] = [] then Reader.messageType
        else (g.event.map Reader.withoutSpace).getD [],
        ['\n'].intercalate ((lines '\r' '\n' data).map Reader.withoutSpace),
        (g.id.map Reader.withoutSpace).getD []⟩] ∧
    (buffered data g).dispatch.reconnectionTime = g.retry.map (· / 10 ^ 6) := by
  have hlines := lines_ne_nil '\r' '\n' data
  have hdata : (buffered data g).data =
      ((lines '\r' '\n' data).map Reader.withoutSpace).flatMap (· ++ ['\n']) := by
    rw [List.flatMap_map]
    rfl
  have hne : (buffered data g).data ≠ [] := by
    obtain ⟨first, others, hlines⟩ := List.exists_cons_of_ne_nil hlines
    simp [hdata, hlines]
  rw [Reader.dispatch, if_neg hne, hdata, dropLast_flatMap (by simpa using hlines)]
  exact ⟨rfl, rfl⟩

theorem type_eq_iff (event : Option (List Char)) :
    (if (event.map Reader.withoutSpace).getD [] = [] then Reader.messageType
      else (event.map Reader.withoutSpace).getD []) = event.getD Reader.messageType ↔
    ∀ value, event = some value → value ≠ [] ∧ value.head? ≠ some ' ' := by
  cases event with
  | none => simp
  | some value =>
    simp only [Option.map_some, Option.getD_some, Option.some.injEq, forall_eq']
    cases value with
    | nil => simp [Reader.withoutSpace, Reader.messageType]
    | cons c rest =>
      by_cases hc : c = ' '
      · subst hc
        have hspace : (Reader.messageType = ' ' :: rest) = False := by simp [Reader.messageType]
        simp only [Reader.withoutSpace]
        split_ifs <;> simp [hspace]
      · simp [Reader.withoutSpace, hc]

theorem id_eq_iff (id : Option (List Char)) :
    (id.map Reader.withoutSpace).getD [] = id.getD [] ↔
      ∀ value, id = some value → value.head? ≠ some ' ' := by
  cases id with
  | none => simp
  | some value => simpa using withoutSpace_eq_self_iff

theorem data_eq_iff (data : List Char) :
    ['\n'].intercalate ((lines '\r' '\n' data).map Reader.withoutSpace) =
      normalize '\r' '\n' data ↔ ∀ line ∈ lines '\r' '\n' data, line.head? ≠ some ' ' := by
  have hlines := lines_ne_nil '\r' '\n' data
  have hfree : ∀ line ∈ lines '\r' '\n' data, '\n' ∉ line := fun line hline =>
    (notMem_of_mem_lines hline).2
  rw [← intercalate_lines]
  constructor
  · intro h line hline
    -- both sides are cut into their lines again
    have hsplit := congrArg (List.splitOn '\n') h
    rw [List.splitOn_intercalate '\n' hfree hlines, List.splitOn_intercalate '\n' _
      (by simpa using hlines)] at hsplit
    · exact withoutSpace_eq_self_iff.mp (List.map_inj_left.mp (hsplit.trans (List.map_id _).symm)
        line hline)
    · intro l hl
      obtain ⟨line, hline, rfl⟩ := List.mem_map.mp hl
      exact notMem_withoutSpace (hfree line hline)
  · intro h
    have hsame : (lines '\r' '\n' data).map Reader.withoutSpace = lines '\r' '\n' data :=
      (List.map_congr_left fun line hline => withoutSpace_eq_self_iff.mpr (h line hline)).trans
        (List.map_id _)
    rw [hsame]

theorem retry_eq_iff (retry : Option Nat) :
    (retry.map (· / 10 ^ 6)).map (· * 10 ^ 6) = retry ↔
      ∀ duration, retry = some duration → 10 ^ 6 ∣ duration := by
  cases retry with
  | none => simp
  | some duration =>
    simp only [Option.map_some, Option.some.injEq, forall_eq']
    omega

/-- A browser reads what was given exactly if no line and no value starts with a space, the type is
not empty and the duration is a number of milliseconds. -/
theorem delivered_iff_plain {calls : List Call} (h : build data calls = .ok e) :
    (∃ r, parse e.encoded = some r ∧ Delivered data (given calls) r) ↔
      Plain data (given calls) := by
  obtain ⟨set, hencodes, -⟩ := encodes_build h
  obtain ⟨hdispatched, hretry⟩ := dispatch_buffered data (given calls)
  rw [parse_of_encodes hencodes]
  simp only [Option.some.injEq, exists_eq_left', Delivered, hdispatched, hretry, Plain,
    List.cons.injEq, Message.mk.injEq, and_true, type_eq_iff, id_eq_iff, data_eq_iff, retry_eq_iff]
  tauto

def plainCalls : List Call := [.event ['n'], .id ['7'], .retry 2000000]

theorem delivered_of_plainCalls : ∃ e, build ['x', '\r', '\n', 'y'] plainCalls = .ok e ∧
    ∃ r, parse e.encoded = some r ∧ Delivered ['x', '\r', '\n', 'y'] (given plainCalls) r := by
  have hbuild : (build ['x', '\r', '\n', 'y'] plainCalls).isOk = true := by decide
  cases h : build ['x', '\r', '\n', 'y'] plainCalls with
  | error error => simp [h, Except.isOk, Except.toBool] at hbuild
  | ok e =>
    refine ⟨e, rfl, (delivered_iff_plain h).mpr ⟨by decide, ?_, ?_, ?_⟩⟩
    all_goals simp [given, plainCalls, Given.set]

/-- The first space of the data is lost. -/
theorem delivered_without_space : ∃ e, build [' ', 'x'] [] = .ok e ∧
    (parse e.encoded).map Reader.dispatched = some [⟨Reader.messageType, ['x'], []⟩] := by
  have hbuild : (build [' ', 'x'] []).isOk = true := by decide
  cases h : build [' ', 'x'] [] with
  | error error => simp [h, Except.isOk, Except.toBool] at hbuild
  | ok e =>
    obtain ⟨set, hencodes, -⟩ := encodes_build h
    refine ⟨e, rfl, ?_⟩
    rw [parse_of_encodes hencodes, Option.map_some, (dispatch_buffered _ _).1]
    decide

end Lily.WebCore.ServerSentEvent
