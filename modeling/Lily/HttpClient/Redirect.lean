import Lily.Http.Forwarding
import Mathlib.Data.List.AList

/-!
# Redirects of the HTTP client

The loop that sends a request and follows the redirects it is answered with. The loop is run
against the list of the answers, so that every server is a list. What the `url` and `http` crates
decide about texts is a parameter.
-/

namespace Lily.HttpClient

open Http.Forwarding (lower)

/-! ## Requests -/

inductive Method where
  | get | post | put | delete | head | options | patch | trace | connect
  | custom (method : String)
  deriving DecidableEq

def Method.asStr : Method → String
  | .get => "GET"
  | .post => "POST"
  | .put => "PUT"
  | .delete => "DELETE"
  | .head => "HEAD"
  | .options => "OPTIONS"
  | .patch => "PATCH"
  | .trace => "TRACE"
  | .connect => "CONNECT"
  | .custom method => method

inductive HttpClientError where
  | connection (message : String)
  | connectTimeout
  | invalidUrl (message : String)
  | requestBuilding (message : String)
  | responseParsing (message : String)
  | timeout
  | invalidHeader (message : String)
  | invalidMethod (message : String)
  | bodyReading (message : String)
  | limitExceeded (resource : String) (limit : Nat)
  | redirectRejected (message : String)

/-- A parsed URL, by the parts that the client looks at. -/
structure Url where
  scheme : String
  username : String := ""
  password : Option String := none
  hostStr : Option String
  portOrKnownDefault : Option Nat
  pathAndQuery : String := ""
  fragment : Option String := none

def Url.hasCredentials (url : Url) : Bool := url.username != "" || url.password.isSome

def sameOrigin (left right : Url) : Bool :=
  left.scheme == right.scheme && left.hostStr == right.hostStr &&
    left.portOrKnownDefault == right.portOrKnownDefault

structure OriginKey where
  scheme : String
  host : String
  port : Nat
  deriving DecidableEq

def OriginKey.fromUrl (url : Url) : Except HttpClientError OriginKey :=
  match url.hostStr with
  | none => .error (.invalidUrl "request URL does not contain a host")
  | some host =>
    match url.portOrKnownDefault with
    | none => .error (.invalidUrl "request URL does not have a known port")
    | some port => .ok ⟨lower url.scheme, lower host, port⟩

structure HeaderMap where
  headers : AList fun _ : String => List String
  normalized : ∀ name ∈ headers, lower name = name

def HeaderMap.remove (map : HeaderMap) (name : String) : HeaderMap where
  headers := map.headers.erase name
  normalized := fun other h => map.normalized other (AList.mem_erase.mp h).2

/-- Every value with its name. -/
def HeaderMap.lines (map : HeaderMap) : List (String × String) :=
  map.headers.entries.flatMap fun entry => entry.2.map (Prod.mk entry.1)

structure ClientConfig where
  maxRedirects : Nat
  maxHeaderCount : Nat
  maxHeaderBytes : Nat

structure RequestConfig where
  maxRedirects : Option Nat := none
  followRedirects : Bool := true

structure Request where
  method : Method
  url : Url
  headers : HeaderMap
  body : List UInt8
  config : RequestConfig := {}

structure ResolvedRequestPolicy where
  maxRedirects : Nat
  followRedirects : Bool

namespace ResolvedRequestPolicy

def fromConfigs (client : ClientConfig) (request : RequestConfig) : ResolvedRequestPolicy where
  maxRedirects := min (request.maxRedirects.getD client.maxRedirects) client.maxRedirects
  followRedirects := request.followRedirects

def shouldFollowRedirect (policy : ResolvedRequestPolicy) (status : Nat) : Bool :=
  policy.followRedirects && decide (0 < policy.maxRedirects) &&
    [301, 302, 303, 307, 308].contains status

def redirectLimitReached (policy : ResolvedRequestPolicy) (redirectsFollowed : Nat) : Bool :=
  decide (policy.maxRedirects ≤ redirectsFollowed)

end ResolvedRequestPolicy

/-! ## What goes on the wire -/

/-- What the crates of the client decide: whether a text is a method, a URI, the name or the value
of a header, and where a location leads. -/
structure Texts where
  methodToken : String → Bool
  uri : Url → Except String Unit
  headerName : String → Except String Unit
  headerValue : String → Except String Unit
  join : Url → String → Except String Url

structure WireRequest where
  method : String
  url : Url
  headers : List (String × String)
  body : List UInt8

def forbiddenRequestHeaders : List String :=
  ["connection", "keep-alive", "proxy-connection", "proxy-authenticate", "proxy-authorization",
    "te", "trailer", "transfer-encoding", "upgrade"]

def isHopByHopOrProxyOnlyRequestHeader (name : String) : Bool :=
  forbiddenRequestHeaders.contains (lower name)

/-- The loop of `validate_header_limits`, with its two accumulators. -/
def validateHeaderLines (maxCount maxBytes : Nat) :
    Nat → Nat → List (String × String) → Except HttpClientError Unit
  | _, _, [] => .ok ()
  | count, total, (name, value) :: rest =>
    let count := count + 1
    let total := total + name.utf8ByteSize + value.utf8ByteSize
    if maxCount < count then .error (.limitExceeded "request header count" maxCount)
    else if maxBytes < total then .error (.limitExceeded "request headers" maxBytes)
    else validateHeaderLines maxCount maxBytes count total rest

def validateHeaderLimits (headers : HeaderMap) (maxCount maxBytes : Nat) :
    Except HttpClientError Unit :=
  validateHeaderLines maxCount maxBytes 0 0 headers.lines

/-- The headers that the transport does not own itself. -/
def HeaderMap.wireLines (map : HeaderMap) : List (String × String) :=
  map.lines.filter fun line =>
    !(isHopByHopOrProxyOnlyRequestHeader line.1 || lower line.1 == "content-length")

variable (texts : Texts) (config : ClientConfig) (policy : ResolvedRequestPolicy)

def validateWireLines : List (String × String) → Except HttpClientError Unit
  | [] => .ok ()
  | (name, value) :: rest =>
    match texts.headerName name, texts.headerValue value with
    | .error message, _ => .error (.invalidHeader message)
    | .ok (), .error message => .error (.invalidHeader message)
    | .ok (), .ok () => validateWireLines rest

/-- What one round of the loop starts from. -/
structure Attempt where
  method : Method
  url : Url
  headers : HeaderMap
  body : List UInt8
  redirectCount : Nat := 0

def Attempt.wire (attempt : Attempt) : WireRequest where
  method := attempt.method.asStr
  url := { attempt.url with fragment := none }
  headers := attempt.headers.wireLines
  body := attempt.body

def buildRequestWithLimits (attempt : Attempt) :
    Except HttpClientError WireRequest := do
  validateHeaderLimits attempt.headers config.maxHeaderCount config.maxHeaderBytes
  if !texts.methodToken attempt.method.asStr then
    .error (.invalidMethod "request method token is invalid")
  match texts.uri { attempt.url with fragment := none } with
  | .error message => .error (.requestBuilding ("invalid URI: " ++ message))
  | .ok () => pure ()
  validateWireLines texts attempt.headers.wireLines
  pure attempt.wire

/-! ## The loop -/

def validateRedirectTarget (previous next : Url) : Except HttpClientError Unit :=
  if previous.scheme == "https" && next.scheme != "https" then
    .error (.redirectRejected "HTTPS-to-HTTP downgrade is forbidden")
  else if next.hasCredentials then
    .error (.redirectRejected "redirect target must not contain URL credentials")
  else if !sameOrigin previous next then
    .error (.redirectRejected "cross-origin redirects are forbidden")
  else .ok ()

/-- How the transport answers a request: a failure (of the connection, of the protocol, of the
headers or the body of the response, or a deadline), or a response with its `Location`. -/
inductive Reply where
  | failed (error : HttpClientError)
  | response (status : Nat) (location : Option String)

structure Response where
  status : Nat
  url : Url
  redirectCount : Nat

/-- A redirect of this status turns the request into a bodiless `GET`. -/
def Attempt.becomesGet (attempt : Attempt) (status : Nat) : Bool :=
  status == 303 || ((status == 301 || status == 302) && attempt.method == .post)

def Attempt.redirected (attempt : Attempt) (status : Nat) (next : Url) : Attempt :=
  if attempt.becomesGet status then
    { method := .get
      url := next
      headers := (attempt.headers.remove "content-length").remove "content-type"
      body := []
      redirectCount := attempt.redirectCount + 1 }
  else
    { attempt with url := next, redirectCount := attempt.redirectCount + 1 }

inductive Verdict where
  | finished (result : Except HttpClientError Response)
  | again (attempt : Attempt)

def Attempt.answered (attempt : Attempt) :
    Reply → Verdict
  | .failed error => .finished (.error error)
  | .response status location =>
    match policy.shouldFollowRedirect status, location with
    | true, some location =>
      if policy.redirectLimitReached attempt.redirectCount then
        .finished (.error (.responseParsing
          ("redirect limit of " ++ toString policy.maxRedirects ++ " exceeded")))
      else
        match texts.join attempt.url location with
        | .error message => .finished (.error (.invalidUrl message))
        | .ok next =>
          match validateRedirectTarget attempt.url next with
          | .error error => .finished (.error error)
          | .ok () => .again (attempt.redirected status next)
    | _, _ => .finished (.ok ⟨status, attempt.url, attempt.redirectCount⟩)

/-- The requests that were sent, and the result once there is one. -/
structure Exchange where
  sent : List WireRequest
  result : Option (Except HttpClientError Response)

/-- The loop of `execute_inner`, run against the answers. -/
def attempts (attempt : Attempt) (replies : List Reply) : Exchange :=
  match OriginKey.fromUrl attempt.url, buildRequestWithLimits texts config attempt, replies with
  | .error error, _, _ => ⟨[], some (.error error)⟩
  | .ok _, .error error, _ => ⟨[], some (.error error)⟩
  | .ok _, .ok wire, [] => ⟨[wire], none⟩
  | .ok _, .ok wire, reply :: rest =>
    match attempt.answered texts policy reply with
    | .finished result => ⟨[wire], some result⟩
    | .again next =>
      let later := attempts next rest
      ⟨wire :: later.sent, later.result⟩

def execute (request : Request) (replies : List Reply) : Exchange :=
  if request.url.hasCredentials then
    ⟨[], some (.error (.invalidUrl "request URL must not contain credentials"))⟩
  else
    attempts texts config (.fromConfigs config request.config)
      { method := request.method, url := request.url, headers := request.headers,
        body := request.body } replies

/-! ## One redirect -/

theorem sameOrigin_iff {left right : Url} :
    sameOrigin left right = true ↔
      left.scheme = right.scheme ∧ left.hostStr = right.hostStr ∧
        left.portOrKnownDefault = right.portOrKnownDefault := by
  simp [sameOrigin, and_assoc]

theorem sameOrigin_trans {first second third : Url} (h : sameOrigin first second = true)
    (h' : sameOrigin second third = true) : sameOrigin first third = true := by
  rw [sameOrigin_iff] at h h' ⊢
  exact ⟨h.1.trans h'.1, h.2.1.trans h'.2.1, h.2.2.trans h'.2.2⟩

theorem validateRedirectTarget_ok {previous next : Url}
    (h : validateRedirectTarget previous next = .ok ()) :
    next.hasCredentials = false ∧ sameOrigin previous next = true := by
  revert h
  fun_cases validateRedirectTarget previous next with
  | case4 _ hcredentials horigin =>
    exact fun _ => ⟨by simpa using hcredentials, by simpa using horigin⟩
  | _ => nofun

variable {texts : Texts}

theorem buildRequestWithLimits_ok {config : ClientConfig} {attempt : Attempt} {wire : WireRequest}
    (h : buildRequestWithLimits texts config attempt = .ok wire) : wire = attempt.wire := by
  unfold buildRequestWithLimits at h
  simp only [bind, Except.bind, pure, Except.pure] at h
  repeat' split at h
  all_goals first
    | exact (Except.ok.inj h).symm
    | nomatch h

/-- What a followed redirect says about the answer and the next round. -/
theorem answered_again {policy : ResolvedRequestPolicy} {attempt next : Attempt} {reply : Reply}
    (h : attempt.answered texts policy reply = .again next) :
    ∃ status location url, reply = .response status (some location) ∧
      attempt.redirectCount < policy.maxRedirects ∧ url.hasCredentials = false ∧
      sameOrigin attempt.url url = true ∧ next = attempt.redirected status url := by
  revert h
  fun_cases attempt.answered texts policy reply with
  | case5 status location _ hlimit url _ hvalid =>
    obtain ⟨hcredentials, horigin⟩ := validateRedirectTarget_ok hvalid
    refine fun h => ⟨status, _, url, rfl, ?_, hcredentials, horigin, (Verdict.again.inj h).symm⟩
    simpa [ResolvedRequestPolicy.redirectLimitReached] using hlimit
  | _ => nofun

theorem answered_finished {policy : ResolvedRequestPolicy} {attempt : Attempt} {reply : Reply}
    {response : Response} (h : attempt.answered texts policy reply = .finished (.ok response)) :
    response.redirectCount = attempt.redirectCount := by
  revert h
  fun_cases attempt.answered texts policy reply <;> grind

theorem redirected_url (attempt : Attempt) (status : Nat) (url : Url) :
    (attempt.redirected status url).url = url := by
  unfold Attempt.redirected
  split <;> rfl

theorem redirected_redirectCount (attempt : Attempt) (status : Nat) (url : Url) :
    (attempt.redirected status url).redirectCount = attempt.redirectCount + 1 := by
  unfold Attempt.redirected
  split <;> rfl

/-! ## The headers of the request that a redirect makes -/

variable {line : String × String} {map : HeaderMap}

theorem mem_lines (h : line ∈ map.lines) : line.1 ∈ map.headers := by
  obtain ⟨entry, hentry, hline⟩ := List.mem_flatMap.mp h
  obtain ⟨value, -, rfl⟩ := List.mem_map.mp hline
  exact AList.mem_keys.mpr (List.mem_map_of_mem hentry)

/-- A removed header is not sent, however its name is written. -/
theorem lower_ne_of_mem_remove {name : String}
    (h : line ∈ (map.remove name).lines) : lower line.1 ≠ name := by
  intro hname
  have hmem := mem_lines h
  have hnormal := (map.remove name).normalized line.1 hmem
  exact (AList.mem_erase.mp hmem).1 (hnormal.symm.trans hname)

theorem wireLines_not_content_length
    (h : line ∈ map.wireLines) : lower line.1 ≠ "content-length" := by
  have hkept := (List.mem_filter.mp h).2
  intro hname
  simp [hname] at hkept

/-! ## Chains of redirects -/

/-- How a request differs from the one that a redirect of this status answered. -/
structure Redirected (status : Nat) (before after : WireRequest) : Prop where
  kept : status = 307 ∨ status = 308 → after.method = before.method ∧ after.body = before.body
  get : before.method = "GET" → after.method = "GET"
  head : before.method = "HEAD" → status ≠ 303 → after.method = "HEAD"
  changed : after.method ≠ before.method →
    (status = 303 ∨ (status = 301 ∨ status = 302) ∧ before.method = "POST") ∧
      after.method = "GET" ∧ after.body = [] ∧
      ∀ line ∈ after.headers, lower line.1 ≠ "content-length" ∧ lower line.1 ≠ "content-type"

theorem becomesGet_iff {attempt : Attempt} {status : Nat} :
    attempt.becomesGet status = true ↔
      status = 303 ∨ (status = 301 ∨ status = 302) ∧ attempt.method = .post := by
  simp [Attempt.becomesGet]

theorem redirected_wire (attempt : Attempt) (status : Nat) (url : Url) :
    Redirected status attempt.wire (attempt.redirected status url).wire := by
  unfold Attempt.redirected
  split
  next hget =>
    have hstatus := becomesGet_iff.mp hget
    constructor
    · rintro (rfl | rfl) <;> simp at hstatus
    · exact fun _ => rfl
    · intro hhead hother
      have hpost := (hstatus.resolve_left hother).2
      simp [Attempt.wire, hpost, Method.asStr] at hhead
    · refine fun _ => ⟨hstatus.imp_right fun h => ⟨h.1, ?_⟩, rfl, rfl, fun line hline => ?_⟩
      · simp [Attempt.wire, h.2, Method.asStr]
      · exact ⟨wireLines_not_content_length hline,
          lower_ne_of_mem_remove (List.mem_filter.mp hline).1⟩
  next =>
    exact ⟨fun _ => ⟨rfl, rfl⟩, id, fun h _ => h, fun h => absurd rfl h⟩

/-- What the rounds of the loop can be: nothing is sent, the last request is sent, or the answer to
a request is a redirect that is followed. -/
inductive Rounds (maxRedirects : Nat) : Attempt → List Reply → Exchange → Prop where
  | refused {attempt : Attempt} {replies : List Reply} (error : HttpClientError) :
      Rounds maxRedirects attempt replies ⟨[], some (.error error)⟩
  | last {attempt : Attempt} {replies : List Reply}
      {result : Option (Except HttpClientError Response)}
      (count : ∀ response, result = some (.ok response) →
        response.redirectCount = attempt.redirectCount) :
      Rounds maxRedirects attempt replies ⟨[attempt.wire], result⟩
  | followed {attempt : Attempt} {status : Nat} {location : String} {url : Url}
      {rest : List Reply} {exchange : Exchange}
      (limit : attempt.redirectCount < maxRedirects) (credentials : url.hasCredentials = false)
      (origin : sameOrigin attempt.url url = true)
      (later : Rounds maxRedirects (attempt.redirected status url) rest exchange) :
      Rounds maxRedirects attempt (.response status (some location) :: rest)
        ⟨attempt.wire :: exchange.sent, exchange.result⟩

theorem attempts_rounds (texts : Texts) (config : ClientConfig) (policy : ResolvedRequestPolicy)
    (attempt : Attempt) (replies : List Reply) :
    Rounds policy.maxRedirects attempt replies (attempts texts config policy attempt replies) := by
  induction replies generalizing attempt with
  | nil =>
    unfold attempts
    split
    next => exact .refused _
    next => exact .refused _
    next hbuild _ =>
      rw [buildRequestWithLimits_ok hbuild]
      exact .last nofun
    next hreplies => nomatch hreplies
  | cons reply rest ih =>
    unfold attempts
    split
    next => exact .refused _
    next => exact .refused _
    next hreplies => nomatch hreplies
    next hbuild hreplies =>
      obtain ⟨rfl, rfl⟩ := List.cons.inj hreplies
      rw [buildRequestWithLimits_ok hbuild]
      split
      next result hanswer =>
        refine .last fun response hresponse => ?_
        rw [Option.some.inj hresponse] at hanswer
        exact answered_finished hanswer
      next next hanswer =>
        obtain ⟨status, location, url, rfl, hlimit, hcredentials, horigin, rfl⟩ :=
          answered_again hanswer
        exact .followed hlimit hcredentials horigin (ih _)

namespace Rounds

variable {maxRedirects : Nat} {attempt : Attempt} {replies : List Reply} {exchange : Exchange}
  (h : Rounds maxRedirects attempt replies exchange)

include h

theorem length_le (hcount : attempt.redirectCount ≤ maxRedirects) :
    attempt.redirectCount + exchange.sent.length ≤ maxRedirects + 1 := by
  induction h with
  | refused error => exact Nat.le_succ_of_le hcount
  | last count => exact Nat.succ_le_succ hcount
  | followed limit credentials origin later ih =>
    rw [redirected_redirectCount] at ih
    have hlater := ih limit
    rw [List.length_cons]
    omega

/-- No request leaves the origin of the first round, and none carries credentials. -/
theorem confined (hcredentials : attempt.url.hasCredentials = false) :
    ∀ wire ∈ exchange.sent,
      sameOrigin attempt.url wire.url = true ∧ wire.url.hasCredentials = false := by
  induction h with
  | refused error => nofun
  | last count =>
    intro wire hwire
    rw [List.mem_singleton.mp hwire]
    exact ⟨sameOrigin_iff.mpr ⟨rfl, rfl, rfl⟩, hcredentials⟩
  | followed limit credentials origin later ih =>
    intro wire hwire
    rcases List.mem_cons.mp hwire with rfl | hlater
    · exact ⟨sameOrigin_iff.mpr ⟨rfl, rfl, rfl⟩, hcredentials⟩
    · rw [redirected_url] at ih
      obtain ⟨horigin, hclean⟩ := ih credentials wire hlater
      exact ⟨sameOrigin_trans origin horigin, hclean⟩

theorem first {wire : WireRequest}
    (hwire : exchange.sent[0]? = some wire) : wire = attempt.wire := by
  cases h with
  | refused error => nomatch hwire
  | last count | followed limit credentials origin later => exact (Option.some.inj hwire).symm

/-- Each request but the first follows the redirect that answered the one before it. -/
theorem chained (k : Nat) (before after : WireRequest) (hbefore : exchange.sent[k]? = some before)
    (hafter : exchange.sent[k + 1]? = some after) :
    ∃ status location, replies[k]? = some (.response status (some location)) ∧
      Redirected status before after := by
  induction h generalizing k with
  | refused error => nomatch hbefore
  | last count => nomatch hafter
  | @followed attempt status location url rest exchange limit credentials origin later ih =>
    cases k with
    | zero =>
      refine ⟨status, location, rfl, ?_⟩
      rw [← Option.some.inj hbefore, later.first hafter]
      exact redirected_wire attempt status url
    | succ k => exact ih k hbefore hafter

theorem counted {response : Response} (hresponse : exchange.result = some (.ok response)) :
    response.redirectCount + 1 = attempt.redirectCount + exchange.sent.length := by
  induction h with
  | refused error => nomatch hresponse
  | last count =>
    rw [count response hresponse]
    rfl
  | followed limit credentials origin later ih =>
    rw [redirected_redirectCount] at ih
    rw [ih hresponse, List.length_cons]
    omega

end Rounds

theorem redirects_confined (texts : Texts) (config : ClientConfig) (request : Request)
    (replies : List Reply) :
    (execute texts config request replies).sent.length ≤
        min (request.config.maxRedirects.getD config.maxRedirects) config.maxRedirects + 1 ∧
      (∀ wire ∈ (execute texts config request replies).sent,
        wire.url.scheme = request.url.scheme ∧ wire.url.hostStr = request.url.hostStr ∧
          wire.url.portOrKnownDefault = request.url.portOrKnownDefault ∧
          wire.url.username = "" ∧ wire.url.password = none) ∧
      (∀ k before after, (execute texts config request replies).sent[k]? = some before →
        (execute texts config request replies).sent[k + 1]? = some after →
        ∃ status location, replies[k]? = some (.response status (some location)) ∧
          Redirected status before after) ∧
      ∀ response, (execute texts config request replies).result = some (.ok response) →
        response.redirectCount + 1 = (execute texts config request replies).sent.length := by
  unfold execute
  split
  next =>
    refine ⟨Nat.zero_le _, fun wire hwire => absurd hwire List.not_mem_nil,
      fun k before after hbefore => ?_, fun response hresponse => ?_⟩
    · rw [List.getElem?_nil] at hbefore
      nomatch hbefore
    · nomatch hresponse
  next hcredentials =>
    have hrounds := attempts_rounds texts config (.fromConfigs config request.config)
      { method := request.method, url := request.url, headers := request.headers,
        body := request.body } replies
    refine ⟨?_, fun wire hwire => ?_, hrounds.chained, fun response hresponse => ?_⟩
    · rw [← Nat.zero_add (List.length _)]
      exact hrounds.length_le (Nat.zero_le _)
    · obtain ⟨horigin, hclean⟩ := hrounds.confined (by simpa using hcredentials) wire hwire
      obtain ⟨hscheme, hhost, hport⟩ := sameOrigin_iff.mp horigin
      simp only [Url.hasCredentials, Bool.or_eq_false_iff, bne_eq_false_iff_eq,
        Option.isSome_eq_false_iff, Option.isNone_iff_eq_none] at hclean
      exact ⟨hscheme.symm, hhost.symm, hport.symm, hclean⟩
    · simpa using hrounds.counted hresponse

/-! ## What `303` does -/

/-- Every text is taken, and a location replaces the path. -/
def pathTexts : Texts where
  methodToken := fun _ => true
  uri := fun _ => .ok ()
  headerName := fun _ => .ok ()
  headerValue := fun _ => .ok ()
  join := fun url location => .ok { url with pathAndQuery := location }

def encodedHeaders : HeaderMap where
  headers := AList.singleton "content-encoding" ["gzip"]
  normalized := by
    intro name hname
    rw [List.mem_singleton.mp hname]
    decide

/-- The second of two requests when the first is answered by `303`. -/
def afterSeeOther (method : Method) : Option WireRequest :=
  (execute pathTexts ⟨1, 10, 100⟩
    { method := method, headers := encodedHeaders, body := [31],
      url := { scheme := "https", hostStr := some "example.test", portOrKnownDefault := some 443 } }
    [.response 303 (some "/seen")]).sent[1]?

/-- A `HEAD` request becomes a `GET`, and a request that has lost its body still says how that body
was encoded. -/
theorem see_other_drops_head_and_keeps_encoding :
    (afterSeeOther .head).map WireRequest.method = some "GET" ∧
      (afterSeeOther .put).map (fun wire => (wire.body, wire.headers)) =
        some ([], [("content-encoding", "gzip")]) := by
  decide

end Lily.HttpClient
