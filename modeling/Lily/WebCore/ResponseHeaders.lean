import Lily.Control.Validation
import Lily.Http.ContentDisposition
import Lily.Http.ResponseBody

/-!
# The headers of a response

An action writes its response through fallible calls. The response keeps its header lines in order
and a running count of the bytes that they take on the wire, which every call adjusts by what it
stores and removes. A call that fails returns its error with the response as it left it, so that
nothing about a failed call holds by construction.
-/

namespace Lily.WebCore.ResponseHeaders

open Validation
open Http.ContentDisposition (toLower eqIgnoreAsciiCase)
open Http.ResponseBody (Bytes ResponseBodyStream)

inductive ResponseHeaderError where
  | invalidName
  | invalidValue
  | tooManyHeaders (limit : Nat)
  | headersTooLarge (limitBytes : Nat)
  | duplicateSingleton
  | transportControlled
  | hopByHop

/-- The failures of a body that is written, not yet polled. -/
inductive ResponseBodyError where
  | limitExceeded (limitBytes : Nat)
  | lengthOverflow (limitBytes : Nat)
  | allocationFailed (limitBytes : Nat)
  | bodyModeConflict
  | invalidStreamChunkLimit
  | invalidStreamTotalLimit
  | streamLimitExceeded (limitBytes : Nat)

inductive ResponseWriteError where
  | header (error : ResponseHeaderError)
  | body (error : ResponseBodyError)

structure ResponseLimits where
  bodyBudget : Nat
  maxHeaderCount : Nat
  maxHeaderBytes : Nat
  maxChunkBytes : Nat
  maxTotalBytes : Option Nat

def hardMaxResponseHeaderBytes : Nat := 1024 * 1024

structure StoredHeader where
  name : Bytes
  value : Bytes
  wireBytes : Nat

/-! ## One header line -/

/-- The `http` crate's own parsers: which names and values they take is theirs to say, a name comes
out in lower case and a value as it went in. -/
structure HeaderSyntax where
  name : Bytes → Option Bytes
  value : Bytes → Option Bytes
  name_lower : ∀ {given canonical}, name given = some canonical → canonical = given.map toLower
  value_same : ∀ {given stored}, value given = some stored → stored = given

variable (http : HeaderSyntax)

def token (text : String) : Bytes := Utf8.bytes text.toList

def isHeaderNameByte (b : UInt8) : Bool :=
  (48 ≤ b && b ≤ 57) || (65 ≤ b && b ≤ 90) || (97 ≤ b && b ≤ 122) ||
    [33, 35, 36, 37, 38, 39, 42, 43, 45, 46, 94, 95, 96, 124, 126].contains b

def isHeaderValueByte (b : UInt8) : Bool := b == 9 || (32 ≤ b && b != 127)

/-- The parsers as the crate documents them. -/
def HeaderSyntax.documented : HeaderSyntax where
  name given :=
    if !given.isEmpty && given.all isHeaderNameByte && given.length < 2 ^ 16 then
      some (given.map toLower)
    else none
  value given := if given.all isHeaderValueByte then some given else none
  name_lower h := (Option.some.inj (Option.ite_none_right_eq_some.mp h).2).symm
  value_same h := (Option.some.inj (Option.ite_none_right_eq_some.mp h).2).symm

def transportControlledNames : List Bytes := [token "content-length", token "server"]

def hopByHopNames : List Bytes :=
  [token "connection", token "keep-alive", token "proxy-connection", token "te", token "trailer",
    token "transfer-encoding", token "upgrade"]

def singletonNames : List Bytes :=
  [token "content-type", token "content-location", token "content-range", token "location",
    token "retry-after", token "age", token "date", token "etag", token "expires",
    token "last-modified", token "strict-transport-security", token "x-content-type-options",
    token "x-frame-options", token "access-control-allow-origin",
    token "access-control-allow-credentials", token "access-control-max-age"]

def isSingletonResponseHeaderName (name : Bytes) : Bool :=
  singletonNames.any (eqIgnoreAsciiCase name)

def ensureApplicationManagedHeaderName (name : Bytes) : Except ResponseHeaderError Unit := do
  ensure (!transportControlledNames.any (eqIgnoreAsciiCase name)) .transportControlled
  ensure (!hopByHopNames.any (eqIgnoreAsciiCase name)) .hopByHop

def ensureHeaderCount (count maxHeaders : Nat) : Except ResponseHeaderError Unit :=
  ensure (count ≤ maxHeaders) (.tooManyHeaders maxHeaders)

def ensureHeaderBytes (bytes maxHeaderBytes : Nat) : Except ResponseHeaderError Unit :=
  ensure (bytes ≤ maxHeaderBytes) (.headersTooLarge maxHeaderBytes)

/-- The sums of the source are checked; one that overflows is over every limit, with the same
error. -/
def headerWireBytes (nameBytes valueBytes maxHeaderBytes : Nat) : Except ResponseHeaderError Nat :=
  do
  ensureHeaderBytes (nameBytes + 2 + valueBytes + 2) maxHeaderBytes
  return nameBytes + 2 + valueBytes + 2

def parseHeaderName (name : Bytes) : Except ResponseHeaderError Bytes := do
  let _ ← headerWireBytes name.length 0 hardMaxResponseHeaderBytes
  match http.name name with
  | some canonical => .ok canonical
  | none => .error .invalidName

def validateResponseHeaderInputWithLimit (name value : Bytes) (maxHeaderBytes : Nat) :
    Except ResponseHeaderError Nat := do
  let wireBytes ← headerWireBytes name.length value.length maxHeaderBytes
  ensure (!name.isEmpty && name.all isHeaderNameByte) .invalidName
  ensureApplicationManagedHeaderName name
  ensure (value.all isHeaderValueByte) .invalidValue
  return wireBytes

def validateHeader (name value : Bytes) (maxHeaderBytes : Nat) :
    Except ResponseHeaderError StoredHeader := do
  let wireBytes ← validateResponseHeaderInputWithLimit name value maxHeaderBytes
  let canonical ← parseHeaderName http name
  match http.value value with
  | some stored => .ok ⟨canonical, stored, wireBytes⟩
  | none => .error .invalidValue

variable (limits : ResponseLimits) (fields : List (Bytes × Bytes))

/-- One line behind the others: what `try_append_header` and `prepare_headers` both do. -/
def appendLine (lines : List StoredHeader × Nat) (field : Bytes × Bytes) :
    Except ResponseHeaderError (List StoredHeader × Nat) := do
  let header ← validateHeader http field.1 field.2 limits.maxHeaderBytes
  ensure (!(lines.1.any (·.name == header.name) && isSingletonResponseHeaderName header.name))
    .duplicateSingleton
  ensureHeaderCount (lines.1.length + 1) limits.maxHeaderCount
  ensureHeaderBytes (lines.2 + header.wireBytes) limits.maxHeaderBytes
  return (lines.1 ++ [header], lines.2 + header.wireBytes)

def prepareHeaders : Except ResponseHeaderError (List StoredHeader × Nat) :=
  fields.foldlM (appendLine http limits) ([], 0)

/-! ## The response -/

structure BufferedResponseBody where
  budget : Nat
  data : Bytes := []
  failure : Option ResponseBodyError := none

inductive ResponseBody where
  | full (body : BufferedResponseBody)
  | stream (body : ResponseBodyStream)

structure Response where
  headers : List StoredHeader := []
  headerBytes : Nat := 0
  status : Nat × String := (200, "OK")
  limits : ResponseLimits
  body : ResponseBody

def Response.fromLimits : Response :=
  { limits, body := .full { budget := limits.bodyBudget } }

/-- A call on `&mut Response`: its error comes with the response that it leaves. -/
abbrev Write := EStateM ResponseWriteError Response

namespace BufferedResponseBody

/-- The first failure stays. -/
def poison (error : ResponseBodyError) (b : BufferedResponseBody) :
    BufferedResponseBody × Except ResponseBodyError Unit :=
  ({ b with data := [], failure := some (b.failure.getD error) }, .error (b.failure.getD error))

variable (data : Bytes) (allocated : Bool) (b : BufferedResponseBody)

/-- `try_replace_slice`, and with nothing to allocate `try_replace_vec`. -/
def tryReplace : BufferedResponseBody × Except ResponseBodyError Unit :=
  match b.failure with
  | some error => (b, .error error)
  | none =>
    if b.budget < data.length then b.poison (.limitExceeded b.budget)
    else if !allocated then b.poison (.allocationFailed b.budget)
    else ({ b with data }, .ok ())

def tryExtendFromSlice : BufferedResponseBody × Except ResponseBodyError Unit :=
  match b.failure with
  | some error => (b, .error error)
  | none =>
    if 2 ^ 64 ≤ b.data.length + data.length then b.poison (.lengthOverflow b.budget)
    else if b.budget < b.data.length + data.length then b.poison (.limitExceeded b.budget)
    else if !allocated then b.poison (.allocationFailed b.budget)
    else ({ b with data := b.data ++ data }, .ok ())

end BufferedResponseBody

def ofHeader {α : Type} (result : Except ResponseHeaderError α) : Write α :=
  match result with
  | .ok a => pure a
  | .error error => throw (.header error)

def ofBody {α : Type} (result : Except ResponseBodyError α) : Write α :=
  match result with
  | .ok a => pure a
  | .error error => throw (.body error)

/-- `self.body.full_mut()?` and a call on what it returns. -/
def onFull (change : BufferedResponseBody →
    BufferedResponseBody × Except ResponseBodyError Unit) : Write Unit := do
  match (← get).body with
  | .stream _ => throw (.body .bodyModeConflict)
  | .full current =>
    modify fun r => { r with body := .full (change current).1 }
    ofBody (change current).2

def ensureWritable : ResponseBody → Except ResponseBodyError Unit
  | .stream _ => .ok ()
  | .full current => match current.failure with
      | some error => .error error
      | none => .ok ()

def narrowOptionalLimit : Option Nat → Option Nat → Option Nat
  | some left, some right => some (if left < right then left else right)
  | some value, none | none, some value => some value
  | none, none => none

def applyServerLimits (limits : ResponseLimits) (body : ResponseBodyStream) : ResponseBodyStream :=
  { body with
    maxChunkBytes := min body.maxChunkBytes limits.maxChunkBytes
    maxTotalBytes := narrowOptionalLimit body.maxTotalBytes limits.maxTotalBytes }

variable (status : Nat) (reason : String) (fields : List (Bytes × Bytes))
  (body : ResponseBodyStream)

def ensureExactLength : Except ResponseBodyError Unit :=
  match body.exactLength, body.maxTotalBytes with
  | some exact, some maximum => ensure (exact ≤ maximum) (.streamLimitExceeded maximum)
  | _, _ => .ok ()

def setStatus (code : Nat) (reason : String) : Write Unit :=
  modify fun r => { r with status := (code, reason) }

def tryInsertHeader (name value : Bytes) : Write Unit := do
  let r ← get
  let header ← ofHeader (validateHeader http name value r.limits.maxHeaderBytes)
  let removed := r.headers.filter (·.name == header.name)
  let removedBytes := (removed.map StoredHeader.wireBytes).sum
  ofHeader (ensureHeaderCount (r.headers.length - removed.length + 1) r.limits.maxHeaderCount)
  if r.headerBytes < removedBytes then
    throw (.header (.headersTooLarge r.limits.maxHeaderBytes))
  else do
    let nextBytes := r.headerBytes - removedBytes + header.wireBytes
    ofHeader (ensureHeaderBytes nextBytes r.limits.maxHeaderBytes)
    modify fun r => { r with headers := r.headers.filter (·.name != header.name) }
    modify fun r => { r with headers := r.headers ++ [header] }
    modify fun r => { r with headerBytes := nextBytes }

def tryAppendHeader (name value : Bytes) : Write Unit := do
  let r ← get
  let lines ← ofHeader (appendLine http r.limits (r.headers, r.headerBytes) (name, value))
  modify fun r => { r with headers := lines.1 }
  modify fun r => { r with headerBytes := lines.2 }

/-- The count goes down by what was removed, without a check. -/
def removeHeader (name : Bytes) : Write Nat := do
  let canonical ← ofHeader (parseHeaderName http name)
  ofHeader (ensureApplicationManagedHeaderName canonical)
  let r ← get
  let removed := r.headers.filter (·.name == canonical)
  modify fun r => { r with headers := r.headers.filter (·.name != canonical) }
  modify fun r =>
    { r with headerBytes := r.headerBytes - (removed.map StoredHeader.wireBytes).sum }
  return removed.length

/-- The whole response is replaced only after the headers are prepared; a body over its budget
poisons the body that is there. -/
def replaceBuffered (body : Bytes) : Write Unit := do
  let r ← get
  if r.limits.bodyBudget < body.length then
    match r.body with
    | .stream _ => throw (.body (.limitExceeded r.limits.bodyBudget))
    | .full current =>
      modify fun r =>
        { r with body := .full (current.poison (.limitExceeded r.limits.bodyBudget)).1 }
      throw (.body (.limitExceeded r.limits.bodyBudget))
  else do
    ofBody (ensureWritable r.body)
    let lines ← ofHeader (prepareHeaders http r.limits fields)
    let replacement : BufferedResponseBody := { budget := r.limits.bodyBudget }
    ofBody (replacement.tryReplace body true).2
    modify fun r => { r with headers := lines.1 }
    modify fun r => { r with headerBytes := lines.2 }
    setStatus status reason
    modify fun r => { r with body := .full (replacement.tryReplace body true).1 }

def replaceStreaming : Write Unit := do
  let r ← get
  ofBody (ensureWritable r.body)
  ofBody (ensure (body.maxChunkBytes ≠ 0) .invalidStreamChunkLimit)
  ofBody (ensure (body.maxTotalBytes ≠ some 0) .invalidStreamTotalLimit)
  let body := applyServerLimits r.limits body
  ofBody (ensureExactLength body)
  let lines ← ofHeader (prepareHeaders http r.limits fields)
  modify fun r => { r with headers := lines.1 }
  modify fun r => { r with headerBytes := lines.2 }
  setStatus status reason
  modify fun r => { r with body := .stream body }

/-- Two of the other calls in a row: the first may have stored its header when the second fails. -/
def text (data : Bytes) (allocated : Bool) : Write Unit := do
  tryInsertHeader http (token "Content-Type") (token "text/plain")
  onFull (·.tryReplace data allocated)

inductive Call where
  | status (code : Nat) (reason : String)
  | insertHeader (name value : Bytes)
  | appendHeader (name value : Bytes)
  | removeHeader (name : Bytes)
  | replaceBuffered (status : Nat) (reason : String) (fields : List (Bytes × Bytes)) (body : Bytes)
  | replaceStreaming (status : Nat) (reason : String) (fields : List (Bytes × Bytes))
      (body : ResponseBodyStream)
  | replaceBody (data : Bytes) (allocated : Bool)
  | writeBody (data : Bytes) (allocated : Bool)

def Call.write : Call → Write Unit
  | .status code reason => setStatus code reason
  | .insertHeader name value => tryInsertHeader http name value
  | .appendHeader name value => tryAppendHeader http name value
  | .removeHeader name => do let _ ← ResponseHeaders.removeHeader http name
  | .replaceBuffered code reason fields body =>
    ResponseHeaders.replaceBuffered http code reason fields body
  | .replaceStreaming code reason fields body =>
    ResponseHeaders.replaceStreaming http code reason fields body
  | .replaceBody data allocated => onFull (·.tryReplace data allocated)
  | .writeBody data allocated => onFull (·.tryExtendFromSlice data allocated)

/-- The response that a call leaves, whether it succeeds or not. -/
def Response.apply (r : Response) (call : Call) : Response :=
  match call.write http r with
  | .ok _ next => next
  | .error _ next => next

/-! ## What is stored -/

/-- The lines that a response may hold, with the bytes it counts for them. -/
structure Tracked (limits : ResponseLimits) (headers : List StoredHeader) (bytes : Nat) : Prop where
  wire : ∀ h ∈ headers, h.wireBytes = h.name.length + 2 + h.value.length + 2
  bytes_eq : bytes = (headers.map StoredHeader.wireBytes).sum
  count_le : headers.length ≤ limits.maxHeaderCount
  bytes_le : bytes ≤ limits.maxHeaderBytes
  canonical : ∀ h ∈ headers, h.name.map toLower = h.name
  single : headers.Pairwise fun a b =>
    eqIgnoreAsciiCase a.name b.name = true → isSingletonResponseHeaderName a.name = false
  managed : ∀ h ∈ headers, ensureApplicationManagedHeaderName h.name = .ok ()

theorem toLower_toLower (b : UInt8) : toLower (toLower b) = toLower b := by
  simp only [toLower]
  grind

theorem map_toLower_map_toLower (name : Bytes) :
    (name.map toLower).map toLower = name.map toLower := by
  rw [List.map_map]
  exact List.map_congr_left fun b _ => toLower_toLower b

theorem eqIgnoreAsciiCase_lower (name : Bytes) :
    eqIgnoreAsciiCase (name.map toLower) = eqIgnoreAsciiCase name := by
  funext other
  rw [eqIgnoreAsciiCase, map_toLower_map_toLower, eqIgnoreAsciiCase]

/-- What the checks let through as one line. -/
structure Line (header : StoredHeader) : Prop where
  wire : header.wireBytes = header.name.length + 2 + header.value.length + 2
  canonical : header.name.map toLower = header.name
  managed : ensureApplicationManagedHeaderName header.name = .ok ()

variable {http}

theorem validateHeader_line {name value : Bytes} {maxHeaderBytes : Nat} {header : StoredHeader}
    (h : validateHeader http name value maxHeaderBytes = .ok header) : Line header := by
  simp only [validateHeader, bind_ok_iff] at h
  obtain ⟨wireBytes, hinput, canonical, hname, h⟩ := h
  simp only [validateResponseHeaderInputWithLimit, headerWireBytes, bind_ok_iff, pure,
    Except.pure, Except.ok.injEq] at hinput
  obtain ⟨_, ⟨_, -, rfl⟩, _, -, _, hmanaged, _, -, rfl⟩ := hinput
  simp only [parseHeaderName, bind_ok_iff] at hname
  obtain ⟨_, -, hname⟩ := hname
  split at hname
  next lower hlower =>
    split at h
    next stored hstored =>
      cases hname
      cases h
      obtain rfl := http.name_lower hlower
      obtain rfl := http.value_same hstored
      refine ⟨by simp, map_toLower_map_toLower name, ?_⟩
      simpa only [ensureApplicationManagedHeaderName, eqIgnoreAsciiCase_lower] using hmanaged
    next => cases h
  next => cases hname

namespace Tracked

variable {limits : ResponseLimits} {headers : List StoredHeader} {bytes : Nat}

theorem nil (limits : ResponseLimits) : Tracked limits [] 0 where
  wire := by simp
  bytes_eq := rfl
  count_le := Nat.zero_le _
  bytes_le := Nat.zero_le _
  canonical := by simp
  single := .nil
  managed := by simp

theorem push {header : StoredHeader} (h : Tracked limits headers bytes) (line : Line header)
    (hsingle : ∀ other ∈ headers, other.name = header.name →
      isSingletonResponseHeaderName header.name = false)
    (hcount : headers.length + 1 ≤ limits.maxHeaderCount)
    (hbytes : bytes + header.wireBytes ≤ limits.maxHeaderBytes) :
    Tracked limits (headers ++ [header]) (bytes + header.wireBytes) where
  wire := by simpa [or_imp, forall_and] using ⟨h.wire, line.wire⟩
  bytes_eq := by simp [h.bytes_eq]
  count_le := by simpa using hcount
  bytes_le := hbytes
  canonical := by simpa [or_imp, forall_and] using ⟨h.canonical, line.canonical⟩
  single := by
    refine List.pairwise_append.mpr ⟨h.single, List.pairwise_singleton _ _, ?_⟩
    intro other hother last hlast hsame
    obtain rfl := List.mem_singleton.mp hlast
    -- Names are stored in lower case, so that names that differ in case only are one name.
    have hname : other.name = last.name := by
      simpa [eqIgnoreAsciiCase, h.canonical other hother, line.canonical] using hsame
    rw [hname]
    exact hsingle other hother hname
  managed := by simpa [or_imp, forall_and] using ⟨h.managed, line.managed⟩

/-- The bytes of the lines with a name are part of the count. -/
theorem split_bytes (h : Tracked limits headers bytes) (name : Bytes) :
    ((headers.filter (·.name == name)).map StoredHeader.wireBytes).sum +
      ((headers.filter (·.name != name)).map StoredHeader.wireBytes).sum = bytes := by
  rw [h.bytes_eq, ← List.sum_append, ← List.map_append]
  exact ((List.filter_append_perm _ headers).map _).sum_nat

theorem split_count (headers : List StoredHeader) (name : Bytes) :
    (headers.filter (·.name == name)).length + (headers.filter (·.name != name)).length =
      headers.length := by
  rw [← List.length_append]
  exact (List.filter_append_perm _ headers).length_eq

theorem remove (h : Tracked limits headers bytes) (name : Bytes) :
    Tracked limits (headers.filter (·.name != name))
      (bytes - ((headers.filter (·.name == name)).map StoredHeader.wireBytes).sum) where
  wire header hmem := h.wire header (List.mem_of_mem_filter hmem)
  bytes_eq := by
    have := h.split_bytes name
    omega
  count_le := (List.length_filter_le _ _).trans h.count_le
  bytes_le := (Nat.sub_le _ _).trans h.bytes_le
  canonical header hmem := h.canonical header (List.mem_of_mem_filter hmem)
  single := h.single.filter _
  managed header hmem := h.managed header (List.mem_of_mem_filter hmem)

theorem appendLine {lines lines' : List StoredHeader × Nat} {field : Bytes × Bytes}
    (h : Tracked limits lines.1 lines.2)
    (happend : ResponseHeaders.appendLine http limits lines field = .ok lines') :
    Tracked limits lines'.1 lines'.2 := by
  simp only [ResponseHeaders.appendLine, ensureHeaderCount, ensureHeaderBytes, bind_ok_iff,
    ensure_ok_iff, pure, Except.pure, Except.ok.injEq] at happend
  obtain ⟨header, hvalid, _, hsingle, _, hcount, _, hbytes, rfl⟩ := happend
  refine h.push (validateHeader_line hvalid) (fun other hother hname => ?_) hcount hbytes
  have hpresent : (lines.1.any (·.name == header.name)) = true :=
    List.any_eq_true.mpr ⟨other, hother, beq_iff_eq.mpr hname⟩
  simpa [hpresent] using hsingle

theorem prepareHeaders {fields : List (Bytes × Bytes)} {lines : List StoredHeader × Nat}
    (h : ResponseHeaders.prepareHeaders http limits fields = .ok lines) :
    Tracked limits lines.1 lines.2 :=
  foldlM_invariant (P := fun _ lines => Tracked limits lines.1 lines.2) h (nil limits)
    fun _ _ _ _ _ _ htracked happend => htracked.appendLine happend

end Tracked

/-! ## Calls -/

/-- What `r'` has in common with `r` after a call that failed. -/
structure Untouched (r r' : Response) : Prop where
  status : r'.status = r.status
  headers : r'.headers = r.headers
  headerBytes : r'.headerBytes = r.headerBytes
  limits : r'.limits = r.limits

theorem Untouched.refl (r : Response) : Untouched r r := ⟨rfl, rfl, rfl, rfl⟩

/-- A call leaves what `P` says of its error, if any, and the response. -/
def Leaves {α : Type} (P : Option ResponseWriteError → Response → Prop) (m : Write α)
    (r : Response) : Prop :=
  match m r with
  | .ok _ r' => P none r'
  | .error error r' => P (some error) r'

namespace Leaves

variable {α β : Type} {P : Option ResponseWriteError → Response → Prop} {r : Response}

theorem get {next : Response → Write β} (h : Leaves P (next r) r) :
    Leaves P (MonadState.get >>= next) r := h

theorem bind {m : Write α} {next : α → Write β} (h : Leaves P m r)
    (hnext : ∀ a r', P none r' → Leaves P (next a) r') : Leaves P (m >>= next) r := by
  simp only [Leaves, Bind.bind, EStateM.bind] at h ⊢
  cases hm : m r <;> simp only [hm] at h ⊢
  · exact hnext _ _ h
  · exact h

theorem ofHeader {checked : Except ResponseHeaderError α} {next : α → Write β}
    (herror : ∀ error, P (some (.header error)) r)
    (h : ∀ a, checked = .ok a → Leaves P (next a) r) :
    Leaves P (ResponseHeaders.ofHeader checked >>= next) r := by
  cases checked with
  | error error => exact herror error
  | ok a => exact h a rfl

theorem ofBody {checked : Except ResponseBodyError α} {next : α → Write β}
    (herror : ∀ error, checked = .error error → P (some (.body error)) r)
    (h : ∀ a, checked = .ok a → Leaves P (next a) r) :
    Leaves P (ResponseHeaders.ofBody checked >>= next) r := by
  cases checked with
  | error error => exact herror error rfl
  | ok a => exact h a rfl

theorem onFull
    {f : BufferedResponseBody → BufferedResponseBody × Except ResponseBodyError Unit}
    (hstream : ∀ stream, r.body = .stream stream → P (some (.body .bodyModeConflict)) r)
    (hfull : ∀ full, r.body = .full full →
      match (f full).2 with
      | .ok _ => P none { r with body := .full (f full).1 }
      | .error error => P (some (.body error)) { r with body := .full (f full).1 }) :
    Leaves P (ResponseHeaders.onFull f) r := by
  rcases r with ⟨headers, headerBytes, status, limits, full | stream⟩
  · have h := hfull full rfl
    show Leaves P (ResponseHeaders.ofBody (f full).2) _
    cases hf : (f full).2 <;> rw [hf] at h <;> exact h
  · exact hstream stream rfl

variable (herror : ∀ error, P (some (.header error)) r)
  (hok : ∀ headers bytes,
    (Tracked r.limits r.headers r.headerBytes → Tracked r.limits headers bytes) →
      P none { r with headers, headerBytes := bytes })

include herror hok

theorem tryInsertHeader (name value : Bytes) :
    Leaves P (ResponseHeaders.tryInsertHeader http name value) r := by
  refine get (ofHeader herror fun header hvalid => ofHeader herror fun _ hcount => ?_)
  by_cases hbytes : r.headerBytes <
      ((r.headers.filter (·.name == header.name)).map StoredHeader.wireBytes).sum
  · rw [if_pos hbytes]
    exact herror _
  rw [if_neg hbytes]
  refine ofHeader herror fun _ hlimit => hok _ _ fun h => ?_
  simp only [ensureHeaderCount, ensureHeaderBytes, ensure_ok_iff] at hcount hlimit
  have hsplit := Tracked.split_count r.headers header.name
  refine (h.remove header.name).push (validateHeader_line hvalid) ?_ (by omega) hlimit
  intro other hother hname
  simp [hname] at hother

theorem tryAppendHeader (name value : Bytes) :
    Leaves P (ResponseHeaders.tryAppendHeader http name value) r :=
  get (ofHeader herror fun _ happend => hok _ _ fun h => h.appendLine happend)

theorem removeHeader (name : Bytes) : Leaves P (ResponseHeaders.removeHeader http name) r :=
  ofHeader herror fun canonical _ => ofHeader herror fun _ _ => hok _ _ fun h => h.remove canonical

end Leaves

/-- A call stores lines that may be stored, or fails and changes none. -/
def Fits {α : Type} (m : Write α) (r : Response) : Prop :=
  match m r with
  | .ok _ r' => r'.limits = r.limits ∧ Tracked r.limits r'.headers r'.headerBytes
  | .error _ r' => Untouched r r'

namespace Fits

variable {r : Response}

theorem of {α : Type} {m : Write α} (h : Leaves (fun failed r' => failed.elim
    (r'.limits = r.limits ∧ Tracked r.limits r'.headers r'.headerBytes)
    fun _ => Untouched r r') m r) : Fits m r := h

variable (status : Nat) (reason : String) (fields : List (Bytes × Bytes)) (body : Bytes)

theorem replaceBuffered :
    Fits (ResponseHeaders.replaceBuffered http status reason fields body) r := by
  refine of (.get ?_)
  split
  · split <;> exact Untouched.mk rfl rfl rfl rfl
  · exact .ofBody (fun _ _ => .refl r) fun _ _ => .ofHeader (fun _ => .refl r) fun _ hlines =>
      .ofBody (fun _ _ => .refl r) fun _ _ => ⟨rfl, .prepareHeaders hlines⟩

theorem replaceStreaming (body : ResponseBodyStream) :
    Fits (ResponseHeaders.replaceStreaming http status reason fields body) r :=
  of <| .get <| .ofBody (fun _ _ => .refl r) fun _ _ => .ofBody (fun _ _ => .refl r) fun _ _ =>
    .ofBody (fun _ _ => .refl r) fun _ _ => .ofBody (fun _ _ => .refl r) fun _ _ =>
    .ofHeader (fun _ => .refl r) fun _ hlines => ⟨rfl, .prepareHeaders hlines⟩

theorem write (h : Tracked r.limits r.headers r.headerBytes) (call : Call) :
    Fits (call.write http) r := by
  have herror (_ : ResponseHeaderError) : Untouched r r := .refl r
  cases call with
  | status code reason => exact ⟨rfl, h⟩
  | insertHeader name value =>
    exact of (.tryInsertHeader herror (fun _ _ htracked => ⟨rfl, htracked h⟩) name value)
  | appendHeader name value =>
    exact of (.tryAppendHeader herror (fun _ _ htracked => ⟨rfl, htracked h⟩) name value)
  | removeHeader name =>
    exact of (.bind (.removeHeader herror (fun _ _ htracked => ⟨rfl, htracked h⟩) name)
      fun _ _ h => h)
  | replaceBuffered code reason fields body => exact replaceBuffered code reason fields body
  | replaceStreaming code reason fields body => exact replaceStreaming code reason fields body
  | replaceBody data allocated | writeBody data allocated =>
    refine of (.onFull (fun _ _ => .refl r) fun full _ => ?_)
    split
    · exact ⟨rfl, h⟩
    · exact ⟨rfl, rfl, rfl, rfl⟩

end Fits

/-- `text` keeps the lines in order too, but when its second call fails the header is stored. -/
theorem text_tracked {r : Response} (h : Tracked r.limits r.headers r.headerBytes) (data : Bytes)
    (allocated : Bool) :
    match text http data allocated r with
    | .ok _ r' | .error _ r' => Tracked r.limits r'.headers r'.headerBytes := by
  have htext : Leaves (fun _ r' => Tracked r.limits r'.headers r'.headerBytes)
      (text http data allocated) r := by
    refine .bind (.tryInsertHeader (fun _ => h) (fun _ _ htracked => htracked h) _ _)
      fun _ r' htracked => .onFull (fun _ _ => htracked) fun full _ => ?_
    split <;> exact htracked
  unfold Leaves at htext
  split at htext <;> simp only [*]

def after (http : HeaderSyntax) (limits : ResponseLimits) (calls : List Call) : Response :=
  calls.foldl (Response.apply http) (.fromLimits limits)

theorem Response.apply_tracked {r : Response} (h : Tracked r.limits r.headers r.headerBytes)
    (call : Call) : (r.apply http call).limits = r.limits ∧
      Tracked r.limits (r.apply http call).headers (r.apply http call).headerBytes := by
  have hfits : Fits (call.write http) r := .write h call
  unfold Fits at hfits
  unfold Response.apply
  cases hwrite : call.write http r with
  | ok _ r' => simpa only [hwrite] using hfits
  | error _ r' =>
    simp only [hwrite] at hfits
    rw [hfits.headers, hfits.headerBytes]
    exact ⟨hfits.limits, h⟩

theorem after_tracked (limits : ResponseLimits) (calls : List Call) :
    (after http limits calls).limits = limits ∧
      Tracked limits (after http limits calls).headers (after http limits calls).headerBytes := by
  refine List.foldlRecOn (motive := fun r : Response =>
    r.limits = limits ∧ Tracked limits r.headers r.headerBytes) calls _ ⟨rfl, .nil limits⟩ ?_
  rintro r ⟨rfl, htracked⟩ call -
  exact Response.apply_tracked htracked call

/-- After any calls the count of header bytes is that of the lines stored, lines and bytes are
within the limits, no line is one that the transport owns and no singleton stands twice. A further
call that fails leaves status and headers as they are. -/
theorem headers_tracked (http : HeaderSyntax) (limits : ResponseLimits) (calls : List Call) :
    Tracked limits (after http limits calls).headers (after http limits calls).headerBytes ∧
      ∀ (call : Call) (error : ResponseWriteError) (r' : Response),
        call.write http (after http limits calls) = .error error r' →
          Untouched (after http limits calls) r' := by
  have hafter := @after_tracked http limits calls
  refine ⟨hafter.2, fun call error r' hwrite => ?_⟩
  have hfits : Fits (call.write http) (after http limits calls) := by
    refine .write ?_ call
    rw [hafter.1]
    exact hafter.2
  simpa only [Fits, hwrite] using hfits

/-- With the parsers as they are documented: a third line is over the limit, and leaves the two that
are there. -/
theorem headers_tracked_documented :
    let limits : ResponseLimits := ⟨16, 2, 64, 8, none⟩
    let r := after .documented limits [.appendHeader (token "X-Trace") (token "a1"),
      .appendHeader (token "Vary") (token "Origin")]
    r.headers.map StoredHeader.name = [token "x-trace", token "vary"] ∧
      Tracked limits r.headers r.headerBytes ∧
      ∃ r', (Call.appendHeader (token "Vary") (token "Accept")).write .documented r =
        .error (.header (.tooManyHeaders 2)) r' ∧ Untouched r r' :=
  have h := headers_tracked .documented ⟨16, 2, 64, 8, none⟩
    [.appendHeader (token "X-Trace") (token "a1"), .appendHeader (token "Vary") (token "Origin")]
  ⟨by decide, h.1, _, rfl, h.2 (.appendHeader (token "Vary") (token "Accept")) _ _ rfl⟩

end Lily.WebCore.ResponseHeaders
