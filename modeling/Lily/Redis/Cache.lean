import Lily.Control.Validation
import Lily.Transition.Interleaving
import Mathlib.Data.List.Infix

/-!
# The key namespaces of the Redis cache

Every key and every `SCAN` pattern is sent behind the namespace of the plan and a colon. A namespace
may hold colons itself, so that the keys of one plan can lie inside the namespace of another: two
plans are apart exactly when neither scope continues the other. Redis itself is a parameter: what
its commands do, its globs, which keys a page examines and which answers are lost.
-/

namespace Lily.Redis

open Transition

/-- A Rust string, by its characters. -/
abbrev Text := List Char

abbrev Bytes := List UInt8

def byteLength (text : Text) : Nat := (text.map Char.utf8Size).sum

inductive CacheError where
  | invalidConfiguration (message : String)
  | disposed
  | invalidKey (message : String)
  | invalidScan (message : String)
  | scanLimitExceeded (limit : Nat)
  | pool (message : String)
  | backend (message : String)
  | timedOut
  | cancelled

/-! ## Plans -/

inductive ConnectionAddr where
  | tcp
  | tcpTls (insecure : Bool)
  | unix

/-- What the client crate reads from a URL. -/
structure ConnectionInfo where
  addr : ConnectionAddr
  db : Int
  hasAuth : Bool

structure CacheConfig where
  redisUrl : Option String := none
  useTls : Option Bool := none
  keyNamespace : Option Text := none
  defaultTtlSecs : Option Nat := none
  poolSize : Option Nat := none
  connectionTimeoutSecs : Option Nat := none
  operationTimeoutSecs : Option Nat := none
  scanPageSize : Option Nat := none
  maxScanResults : Option Nat := none

def namespaceCharacter (c : Char) : Bool :=
  c.isAlphanum || ['-', '_', ':', ' ', '.'].contains c

def validNamespace (keyNamespace : Text) : Bool :=
  !(keyNamespace.isEmpty || byteLength keyNamespace > 64 || !keyNamespace.all namespaceCharacter ||
    keyNamespace.contains ' ')

structure RedisCachePlan where
  redisUrl : String
  useTls : Bool
  database : Int
  hasAuth : Bool
  keyNamespace : Text
  defaultTtl : Nat
  poolSize : Nat
  connectionTimeout : Nat
  operationTimeout : Nat
  scanPageSize : Nat
  maxScanResults : Nat
  named : validNamespace keyNamespace = true
  paged : scanPageSize ≤ maxScanResults

def maxTtlSecs : Nat := 31536000
def maxScanResultsLimit : Nat := 10000
def maxScanPageSize : Nat := 1000

def bounded (name : String) (value min max : Nat) :
    Except CacheError { n : Nat // min ≤ n ∧ n ≤ max } :=
  if h : min ≤ value ∧ value ≤ max then .ok ⟨value, h⟩
  else .error (.invalidConfiguration s!"{name} must be between {min} and {max}")

def checkTransport (addr : ConnectionAddr) (useTls : Bool) : Except CacheError Unit :=
  match addr, useTls with
  | .tcp, true => .error (.invalidConfiguration "use_tls=true requires a rediss:// URL")
  | .tcpTls true, _ =>
    .error (.invalidConfiguration "insecure Redis TLS verification is unsupported")
  | .tcpTls false, false => .error (.invalidConfiguration "rediss:// requires use_tls=true")
  | .unix, _ => .error (.invalidConfiguration
      "Unix socket Redis URLs are outside the Lily V1 support profile")
  | _, _ => .ok ()

/-- The URL is read by the client crate. -/
def RedisCachePlan.build (intoConnectionInfo : String → Option ConnectionInfo)
    (config : CacheConfig) : Except CacheError RedisCachePlan := do
  let some redisUrl := config.redisUrl
    | .error (.invalidConfiguration "redis_url is required")
  let some useTls := config.useTls
    | .error (.invalidConfiguration
        "use_tls must be explicit so transport cannot silently downgrade")
  let some connection := intoConnectionInfo redisUrl
    | .error (.invalidConfiguration "redis_url is invalid")
  checkTransport connection.addr useTls
  if connection.db < 0 then
    .error (.invalidConfiguration "Redis database number cannot be negative")
  let keyNamespace := config.keyNamespace.getD "lily".toList
  if h : validNamespace keyNamespace = true then
    let defaultTtl ← bounded "default_ttl_secs" (config.defaultTtlSecs.getD 3600) 1 maxTtlSecs
    let poolSize ← bounded "pool_size" (config.poolSize.getD 16) 1 128
    let connectionTimeout ←
      bounded "connection_timeout_secs" (config.connectionTimeoutSecs.getD 5) 1 120
    let operationTimeout ←
      bounded "operation_timeout_secs" (config.operationTimeoutSecs.getD 2) 1 300
    let scanPageSize ← bounded "scan_page_size" (config.scanPageSize.getD 100) 1 maxScanPageSize
    let maxScanResults ← bounded "max_scan_results" (config.maxScanResults.getD 1000)
      scanPageSize.val maxScanResultsLimit
    .ok
      { redisUrl, useTls, database := connection.db, hasAuth := connection.hasAuth, keyNamespace,
        defaultTtl := defaultTtl.val, poolSize := poolSize.val,
        connectionTimeout := connectionTimeout.val, operationTimeout := operationTimeout.val,
        scanPageSize := scanPageSize.val, maxScanResults := maxScanResults.val, named := h,
        paged := maxScanResults.property.1 }
  else
    .error (.invalidConfiguration ("key_namespace must contain 1..=64 ASCII alphanumeric, " ++
      "'-', '_', ':' or '.' characters"))

namespace RedisCachePlan

variable (plan : RedisCachePlan)

/-- What stands before every key and pattern of the plan. -/
def scope : Text := plan.keyNamespace ++ [':']

/-- The bound shared by keys and patterns. -/
def admissible (text : Text) : Bool :=
  !(text.isEmpty || byteLength text > 256 || text.contains '\x00')

def qualifiedKey (key : Text) : Except CacheError Text :=
  if admissible key then .ok (plan.scope ++ key)
  else .error (.invalidKey "key must contain 1..=256 non-NUL bytes")

def qualifiedPattern (pattern : Text) : Except CacheError Text :=
  if admissible pattern then .ok (plan.scope ++ pattern)
  else .error (.invalidScan "pattern must contain 1..=256 non-NUL bytes")

def stripNamespace (key : Text) : Except CacheError Text :=
  if plan.scope.isPrefixOf key then .ok (key.drop plan.scope.length)
  else .error (.backend "Redis returned a key outside the namespace")

end RedisCachePlan

/-! ## Redis -/

/-- The commands that the cache sends on one key, with their arguments. -/
inductive Command where
  | get
  | setex (ttlSeconds : Nat) (value : Bytes)
  /-- `SET … NX EX …` -/
  | setNxEx (value : Bytes) (ttlSeconds : Nat)
  | del
  | exists
  | expire (seconds : Nat)
  | ttl
  /-- `EVAL script 1 key argument` -/
  | eval (script : String) (argument : Nat)

/-- The type that the cache asks the client crate to read the reply as. -/
abbrev Command.Response : Command → Type
  | .get => Option Bytes
  | .setex _ _ => Unit
  | .setNxEx _ _ => Option String
  | .del => Nat
  | .exists | .expire _ => Bool
  | .ttl => Int
  | .eval _ _ => Nat × Int

/-- A character of a pattern that stands for itself. -/
def literal (c : Char) : Bool := !(['*', '?', '[', '\\'].contains c)

/-- Redis, with what the cache relies on: a command writes the cell of its key only, what it
writes and answers depends on that cell only, and a glob matches literal characters exactly. -/
structure Server where
  Cell : Type
  execute : Text → (command : Command) → (now : Nat) → (Text → Option Cell) →
    (Text → Option Cell) × Except String command.Response
  execute_other : ∀ key command now db other, other ≠ key →
    (execute key command now db).1 other = db other
  execute_congr : ∀ key command now db db', db key = db' key →
    (execute key command now db).1 key = (execute key command now db').1 key ∧
      (execute key command now db).2 = (execute key command now db').2
  /-- Whether a scan finds the key of the cell. -/
  present : (now : Nat) → Option Cell → Bool
  matchesGlob : Text → Text → Bool
  literal_exact : ∀ c pattern text, literal c = true →
    (matchesGlob (c :: pattern) text = true ↔
      ∃ rest, text = c :: rest ∧ matchesGlob pattern rest = true)

abbrev Server.Database (server : Server) := Text → Option server.Cell

/-! ## Operations -/

inductive CacheTtl where
  | missing
  | persistent
  | expiresIn (seconds : Nat)

structure FixedWindowRateLimit where
  allowed : Bool
  count : Nat
  remaining : Nat
  retryAfterMillis : Nat

structure CacheScanPage where
  keys : List Text
  nextCursor : Nat

structure CacheScanRequest where
  cursor : Nat
  pattern : Text
  pageSize : Nat
  valid : RedisCachePlan.admissible pattern = true ∧ 0 < pageSize ∧ pageSize ≤ maxScanPageSize

inductive Operation where
  | readRaw (key : Text)
  | writeRaw (key : Text) (value : Bytes) (ttlSeconds : Nat)
  | writeRawIfAbsent (key : Text) (value : Bytes) (ttlSeconds : Nat)
  | remove (key : Text)
  | exists (key : Text)
  | expire (key : Text) (ttlSeconds : Nat)
  | ttl (key : Text)
  | fixedWindowRateLimit (key : Text) (maxRequests windowMillis : Nat)
  | scanPage (request : CacheScanRequest)

inductive Reply where
  | raw (value : Option Bytes)
  | done
  | flag (value : Bool)
  | ttl (value : CacheTtl)
  | rateLimit (value : FixedWindowRateLimit)
  | page (value : CacheScanPage)

abbrev Answer := Except CacheError Reply

def validateTtlSeconds (ttlSeconds : Nat) : Except CacheError Unit :=
  if ttlSeconds = 0 ∨ ttlSeconds > 31536000 then
    .error (.invalidConfiguration "ttl_seconds must be between 1 and 31536000")
  else .ok ()

def validateFixedWindow (maxRequests windowMillis : Nat) : Except CacheError Unit :=
  if maxRequests = 0 ∨ maxRequests > 1000000000 then
    .error (.invalidConfiguration "max_requests must be in 1..=1000000000")
  else if windowMillis ≥ 2 ^ 64 then
    .error (.invalidConfiguration "rate-limit window is too large")
  else if ¬ (1000 ≤ windowMillis ∧ windowMillis ≤ 86400000) then
    .error (.invalidConfiguration "rate-limit window must be between one second and one day")
  else .ok ()

def conditionalSet : Option String → Answer
  | some "OK" => .ok (.flag true)
  | none => .ok (.flag false)
  | some _ => .error (.backend "Redis returned an unexpected conditional SET response")

def ttlAnswer (ttl : Int) : Answer :=
  if ttl = -2 then .ok (.ttl .missing)
  else if ttl = -1 then .ok (.ttl .persistent)
  else if 0 ≤ ttl then .ok (.ttl (.expiresIn ttl.toNat))
  else .error (.backend "Redis returned an invalid TTL")

def fixedWindowScript : String :=
  "\nlocal current = redis.call('INCR', KEYS[1])\n" ++
  "local ttl = redis.call('PTTL', KEYS[1])\n" ++
  "if current == 1 or ttl < 0 then\n" ++
  "  redis.call('PEXPIRE', KEYS[1], ARGV[1])\n" ++
  "  ttl = tonumber(ARGV[1])\n" ++
  "end\n" ++
  "return \x7bcurrent, ttl\x7d\n"

def rateLimitAnswer (maxRequests : Nat) : Nat × Int → Answer
  | (count, ttlMillis) =>
    if ttlMillis < 0 then .error (.backend "Redis returned an invalid rate-limit TTL")
    else .ok (.rateLimit
      { allowed := count ≤ maxRequests, count, remaining := maxRequests - count,
        retryAfterMillis := max ttlMillis.toNat 1 })

/-- What an operation sends (a command on one key, or a scan) and how it reads the reply. -/
inductive Call where
  | onKey (key : Text) (command : Command) (answer : command.Response → Answer)
  | scan (pattern : Text)

def Operation.prepare (plan : RedisCachePlan) : Operation → Except CacheError Call
  | .readRaw key => do
    return .onKey (← plan.qualifiedKey key) .get fun value => .ok (.raw value)
  | .writeRaw key value ttlSeconds => do
    validateTtlSeconds ttlSeconds
    return .onKey (← plan.qualifiedKey key) (.setex ttlSeconds value) fun _ => .ok .done
  | .writeRawIfAbsent key value ttlSeconds => do
    validateTtlSeconds ttlSeconds
    return .onKey (← plan.qualifiedKey key) (.setNxEx value ttlSeconds) conditionalSet
  | .remove key => do
    return .onKey (← plan.qualifiedKey key) .del fun removed => .ok (.flag (removed > 0))
  | .exists key => do
    return .onKey (← plan.qualifiedKey key) .exists fun found => .ok (.flag found)
  | .expire key ttlSeconds => do
    -- the bound keeps the seconds within `i64`
    validateTtlSeconds ttlSeconds
    return .onKey (← plan.qualifiedKey key) (.expire ttlSeconds) fun found => .ok (.flag found)
  | .ttl key => do
    return .onKey (← plan.qualifiedKey key) .ttl ttlAnswer
  | .fixedWindowRateLimit key maxRequests windowMillis => do
    validateFixedWindow maxRequests windowMillis
    return .onKey (← plan.qualifiedKey key) (.eval fixedWindowScript windowMillis)
      (rateLimitAnswer maxRequests)
  | .scanPage request => do
    if request.pageSize > plan.scanPageSize then
      .error (.invalidScan
        s!"requested page_size exceeds configured scan_page_size {plan.scanPageSize}")
    return .scan (← plan.qualifiedPattern request.pattern)

/-- What happens on the way to Redis and back. A call can fail with or without its effect. -/
structure Exchange where
  now : Nat
  failure : Option (CacheError × Bool) := none
  /-- The keys that a scan looks at, and the cursor it returns. -/
  examined : List Text := []
  nextCursor : Nat := 0

variable {ι : Type} (server : Server) (plans : ι → RedisCachePlan)

/-- The keys that Redis returns for a scan. -/
def scanned (exchange : Exchange) (pattern : Text) (db : server.Database) : List Text :=
  exchange.examined.filter fun key =>
    server.present exchange.now (db key) && server.matchesGlob pattern key

def pageOf (plan : RedisCachePlan) (keys : List Text) (nextCursor : Nat) : Answer :=
  if keys.length > plan.maxScanResults then .error (.scanLimitExceeded plan.maxScanResults)
  else do
    let keys ← keys.mapM plan.stripNamespace
    return .page { keys, nextCursor }

def Call.perform (plan : RedisCachePlan) (exchange : Exchange) (db : server.Database) :
    Call → server.Database × Answer
  | .onKey key command answer =>
    let result := server.execute key command exchange.now db
    (result.1, (result.2.mapError CacheError.backend).bind answer)
  | .scan pattern =>
    (db, pageOf plan (scanned server exchange pattern db) exchange.nextCursor)

def perform (plan : RedisCachePlan) (operation : Operation)
    (exchange : Exchange) (db : server.Database) : server.Database × Answer :=
  match operation.prepare plan with
  | .error error => (db, .error error)
  | .ok call =>
    let result := call.perform server plan exchange db
    match exchange.failure with
    | none => result
    | some (error, applied) => (if applied then result.1 else db, .error error)

/-- The services of several plans on one database, each with the answers it gave. -/
def machine :
    Machine ι server.Database Unit (Operation × Exchange) Answer where
  act i move db _ :=
    let result := perform server (plans i) move.1 move.2 db
    ⟨result.1, (), [result.2]⟩

def start {server : Server} (db : server.Database) : World ι server.Database Unit Answer :=
  ⟨db, fun _ => (), []⟩

/-! ## Scopes -/

namespace RedisCachePlan

variable {plan first second : RedisCachePlan} {key stored : Text}

theorem qualifiedKey_eq_ok :
    plan.qualifiedKey key = .ok stored ↔ admissible key = true ∧ stored = plan.scope ++ key := by
  unfold qualifiedKey
  split
  next h => simp [h, eq_comm]
  next h => simp [h]

/-- The characters of a scope stand for themselves in a pattern. -/
theorem literal_of_mem_scope {c : Char} (h : c ∈ plan.scope) : literal c = true := by
  have hnamed := plan.named
  simp only [validNamespace, Bool.not_eq_true', Bool.or_eq_false_iff, Bool.not_eq_false',
    List.all_eq_true] at hnamed
  have hname : namespaceCharacter c = true := by
    rcases List.mem_append.mp h with hmem | hmem
    · exact hnamed.1.2 c hmem
    · rw [List.mem_singleton.mp hmem]
      rfl
  by_contra hliteral
  have hspecial : c ∈ ['*', '?', '[', '\\'] := by
    rwa [literal, Bool.not_eq_true, Bool.not_eq_false', List.contains_iff_mem] at hliteral
  have hnone : ['*', '?', '[', '\\'].all (fun c => !namespaceCharacter c) = true := by decide
  have hc := List.all_eq_true.mp hnone c hspecial
  rw [hname] at hc
  cases hc

/-- Neither scope continues the other. -/
def Apart (first second : RedisCachePlan) : Prop :=
  ¬ first.scope <+: second.scope ∧ ¬ second.scope <+: first.scope

theorem Apart.append_ne (h : Apart first second) (rest rest' : Text) :
    first.scope ++ rest ≠ second.scope ++ rest' := by
  intro heq
  rcases List.append_eq_append_iff.mp heq with ⟨more, hmore, -⟩ | ⟨more, hmore, -⟩
  · exact h.1 ⟨more, hmore.symm⟩
  · exact h.2 ⟨more, hmore.symm⟩

/-- A scope that continues another one makes a key of the other plan. -/
theorem exists_collision (h : first.scope <+: second.scope) :
    ∃ key key' stored, first.qualifiedKey key = .ok stored ∧
      second.qualifiedKey key' = .ok stored := by
  obtain ⟨more, hmore⟩ := h
  have hnamed := second.named
  simp only [validNamespace, Bool.not_eq_true', Bool.or_eq_false_iff, Bool.not_eq_false',
    List.all_eq_true, decide_eq_false_iff_not] at hnamed
  have hbytes : byteLength (more ++ ['k']) ≤ 256 := by
    have hscope : byteLength second.scope = byteLength first.scope + byteLength more := by
      rw [← hmore, byteLength, List.map_append, List.sum_append]
      rfl
    have hsecond : byteLength second.scope = byteLength second.keyNamespace + 1 := by
      rw [byteLength, scope, List.map_append, List.sum_append]
      rfl
    have hkey : byteLength (more ++ ['k']) = byteLength more + 1 := by
      rw [byteLength, List.map_append, List.sum_append]
      rfl
    have hsmall := hnamed.1.1.2
    omega
  have hnul : ∀ c ∈ more, c ≠ '\x00' := by
    intro c hc heq
    have hmem : c ∈ second.scope := hmore ▸ List.mem_append_right _ hc
    rcases List.mem_append.mp hmem with hname | hcolon
    · have hbad := hnamed.1.2 c hname
      rw [heq] at hbad
      exact absurd hbad (by decide)
    · rw [List.mem_singleton.mp hcolon] at heq
      exact absurd heq (by decide)
  refine ⟨more ++ ['k'], ['k'], second.scope ++ ['k'], qualifiedKey_eq_ok.mpr ⟨?_, ?_⟩,
    qualifiedKey_eq_ok.mpr ⟨by decide, rfl⟩⟩
  · simp only [admissible, Bool.not_eq_true', Bool.or_eq_false_iff, decide_eq_false_iff_not,
      List.isEmpty_eq_false_iff, List.contains_eq_mem, List.mem_append, List.mem_singleton]
    refine ⟨⟨by simp, by omega⟩, ?_⟩
    rintro (hmem | heq)
    · exact hnul _ hmem rfl
    · exact absurd heq (by decide)
  · rw [← List.append_assoc, hmore]

theorem apart_iff_keys_disjoint :
    Apart first second ↔ ∀ key key' stored stored', first.qualifiedKey key = .ok stored →
      second.qualifiedKey key' = .ok stored' → stored ≠ stored' := by
  constructor
  · intro h key key' stored stored' hkey hkey'
    rw [(qualifiedKey_eq_ok.mp hkey).2, (qualifiedKey_eq_ok.mp hkey').2]
    exact h.append_ne key key'
  · intro h
    refine ⟨fun hscope => ?_, fun hscope => ?_⟩
    · obtain ⟨key, key', stored, hkey, hkey'⟩ := exists_collision hscope
      exact h key key' stored stored hkey hkey' rfl
    · obtain ⟨key, key', stored, hkey, hkey'⟩ := exists_collision hscope
      exact h key' key stored stored hkey' hkey rfl

theorem stripNamespace_append (key : Text) : plan.stripNamespace (plan.scope ++ key) = .ok key := by
  have hscope : plan.scope.isPrefixOf (plan.scope ++ key) = true :=
    List.isPrefixOf_iff_prefix.mpr (List.prefix_append _ _)
  rw [stripNamespace, if_pos hscope, List.drop_left]

end RedisCachePlan

open RedisCachePlan

/-! ## Globs and scans -/

section Scan

variable {server : Server} {plan : RedisCachePlan}

theorem matchesGlob_append {literals : Text} (h : ∀ c ∈ literals, literal c = true)
    {pattern text : Text} (hmatch : server.matchesGlob (literals ++ pattern) text = true) :
    ∃ rest, text = literals ++ rest := by
  induction literals generalizing text with
  | nil => exact ⟨text, rfl⟩
  | cons c literals ih =>
    obtain ⟨rest, rfl, hrest⟩ :=
      (server.literal_exact c _ text (h c List.mem_cons_self)).mp hmatch
    obtain ⟨rest', rfl⟩ := ih (fun c hc => h c (List.mem_cons_of_mem _ hc)) hrest
    exact ⟨rest', rfl⟩

theorem mem_scanned {exchange : Exchange} {pattern qualified stored : Text} {db : server.Database}
    (hpattern : plan.qualifiedPattern pattern = .ok qualified)
    (h : stored ∈ scanned server exchange qualified db) : ∃ key, stored = plan.scope ++ key := by
  have hqualified : qualified = plan.scope ++ pattern := by
    unfold qualifiedPattern at hpattern
    split at hpattern
    · exact (Except.ok.inj hpattern).symm
    · cases hpattern
  subst hqualified
  have hmatch := (List.mem_filter.mp h).2
  rw [Bool.and_eq_true] at hmatch
  exact matchesGlob_append (fun c => literal_of_mem_scope) hmatch.2

/-- The database as the plan sees it. -/
def Alike (plan : RedisCachePlan) (db db' : server.Database) : Prop :=
  ∀ key, db (plan.scope ++ key) = db' (plan.scope ++ key)

theorem scanned_congr {db db' : server.Database} (h : Alike plan db db') {pattern qualified : Text}
    (hpattern : plan.qualifiedPattern pattern = .ok qualified) (exchange : Exchange) :
    scanned server exchange qualified db = scanned server exchange qualified db' := by
  refine List.filter_congr fun stored hexamined => ?_
  by_cases hscope : ∃ key, stored = plan.scope ++ key
  · obtain ⟨key, rfl⟩ := hscope
    rw [h key]
  · -- outside the scope the glob already says no
    have hno : ∀ db : server.Database, (server.present exchange.now (db stored) &&
        server.matchesGlob qualified stored) = false := by
      intro db
      by_contra hyes
      have hmem : stored ∈ scanned server exchange qualified db :=
        List.mem_filter.mpr ⟨hexamined, by simpa using hyes⟩
      exact hscope (mem_scanned hpattern hmem)
    rw [hno, hno]

end Scan

/-! ## Moves -/

section Moves

variable {server : Server} {plan other : RedisCachePlan} {operation : Operation}

theorem Operation.prepare_cases {call : Call} (h : operation.prepare plan = .ok call) :
    (∃ key command answer, call = .onKey (plan.scope ++ key) command answer) ∨
      ∃ pattern qualified, plan.qualifiedPattern pattern = .ok qualified ∧
        call = .scan qualified := by
  have honKey : ∀ {key : Text} {command : Command} {answer : command.Response → Answer},
      (do return Call.onKey (← plan.qualifiedKey key) command answer) = Except.ok call →
        ∃ key command answer, call = .onKey (plan.scope ++ key) command answer := by
    intro key command answer h
    obtain ⟨stored, hstored, hcall⟩ := Validation.bind_ok_iff.mp h
    rw [(qualifiedKey_eq_ok.mp hstored).2] at hcall
    exact ⟨key, command, answer, (Except.ok.inj hcall).symm⟩
  cases operation with
  | readRaw key | remove key | «exists» key | ttl key => exact .inl (honKey h)
  | writeRaw key value ttlSeconds | writeRawIfAbsent key value ttlSeconds
  | expire key ttlSeconds | fixedWindowRateLimit key maxRequests windowMillis =>
    obtain ⟨_, -, h⟩ := Validation.bind_ok_iff.mp h
    exact .inl (honKey h)
  | scanPage request =>
    simp only [Operation.prepare] at h
    split at h
    · cases h
    · obtain ⟨qualified, hqualified, hcall⟩ := Validation.bind_ok_iff.mp h
      exact .inr ⟨request.pattern, qualified, hqualified, (Except.ok.inj hcall).symm⟩

theorem perform_other (hapart : Apart plan other) (exchange : Exchange) (db : server.Database) :
    Alike other (perform server plan operation exchange db).1 db := by
  intro key
  unfold perform
  split
  · rfl
  next call hcall =>
    have hcalled : (call.perform server plan exchange db).1 (other.scope ++ key) =
        db (other.scope ++ key) := by
      rcases Operation.prepare_cases hcall with ⟨own, command, _, rfl⟩ | ⟨_, qualified, -, rfl⟩
      · exact server.execute_other _ _ _ _ _ (hapart.append_ne own key).symm
      · rfl
    dsimp only
    split
    · exact hcalled
    next error applied _ =>
      cases applied
      · rfl
      · exact hcalled

/-- What a call does within its scope, and its answer, depend on its scope only. -/
theorem perform_congr {db db' : server.Database} (h : Alike plan db db') (exchange : Exchange) :
    Alike plan (perform server plan operation exchange db).1
        (perform server plan operation exchange db').1 ∧
      (perform server plan operation exchange db).2 =
        (perform server plan operation exchange db').2 := by
  unfold perform
  split
  · exact ⟨h, rfl⟩
  next call hcall =>
    have hcalled : Alike plan (call.perform server plan exchange db).1
          (call.perform server plan exchange db').1 ∧
        (call.perform server plan exchange db).2 = (call.perform server plan exchange db').2 := by
      rcases Operation.prepare_cases hcall with ⟨key, command, answer, rfl⟩ | ⟨_, _, hpattern, rfl⟩
      · obtain ⟨hcell, hreply⟩ :=
          server.execute_congr (plan.scope ++ key) command exchange.now db db' (h key)
        simp only [Call.perform, hreply, and_true]
        intro key'
        by_cases hkey : plan.scope ++ key' = plan.scope ++ key
        · rw [hkey]
          exact hcell
        · rw [server.execute_other _ _ _ _ _ hkey, server.execute_other _ _ _ _ _ hkey, h key']
      · simp only [Call.perform, scanned_congr h hpattern exchange, and_true]
        exact h
    dsimp only
    split
    · exact hcalled
    next error applied _ =>
      cases applied
      · exact ⟨h, rfl⟩
      · exact ⟨hcalled.1, rfl⟩

end Moves

/-! ## Two plans on one database -/

inductive Side where
  | first
  | second
  deriving DecidableEq

def pair (first second : RedisCachePlan) : Side → RedisCachePlan
  | .first => first
  | .second => second

/-- Two plans with different namespaces share no key exactly when neither scope continues the
other. Then no page of one holds a key of the other, and the answers of one are those it would give
without the other. Within one plan the keys stay apart and can be read back. -/
theorem namespaces_isolated (server : Server) (first second : RedisCachePlan) :
    (first.keyNamespace ≠ second.keyNamespace →
      (Apart first second ↔ ∀ key key' stored stored', first.qualifiedKey key = .ok stored →
        second.qualifiedKey key' = .ok stored' → stored ≠ stored')) ∧
    (Apart first second →
      (∀ pattern qualified exchange db, second.qualifiedPattern pattern = .ok qualified →
        ∀ stored ∈ scanned server exchange qualified db, ∀ key,
          first.qualifiedKey key ≠ .ok stored) ∧
      ∀ db moves,
        ((machine server (pair first second)).run (start db) moves).logOf .second =
          ((machine server (pair first second)).run (start db)
            (moves.filter fun move => move.1 = .second)).logOf .second) ∧
    (∀ key key' stored, first.qualifiedKey key = .ok stored →
      first.stripNamespace stored = .ok key ∧
        (first.qualifiedKey key' = .ok stored → key' = key)) := by
  refine ⟨fun _ => apart_iff_keys_disjoint, fun hapart => ⟨?_, ?_⟩, ?_⟩
  · intro pattern qualified exchange db hpattern stored hstored key hkey
    obtain ⟨key', rfl⟩ := mem_scanned hpattern hstored
    exact hapart.append_ne key key' (qualifiedKey_eq_ok.mp hkey).2.symm
  · intro db moves
    -- the two runs agree on the scope of the second plan and on the answers given through it
    let m := machine server (pair first second)
    refine (m.run_filter (p := fun side => side = .second)
      (R := fun w w' => Alike second w.shared w'.shared ∧ w.logOf .second = w'.logOf .second)
      ?_ ?_ ⟨fun _ => rfl, rfl⟩ moves).2
    · intro w w' side move hside ⟨hdb, hlog⟩
      obtain rfl : side = .second := of_decide_eq_true hside
      obtain ⟨hdb', hanswer⟩ := perform_congr hdb move.2
      refine ⟨hdb', ?_⟩
      rw [m.step_logOf_self, m.step_logOf_self, hlog]
      exact congrArg (w'.logOf .second ++ [·]) hanswer
    · intro w w' side move hside ⟨hdb, hlog⟩
      have hfirst : side = .first := by
        cases side with
        | first => rfl
        | second => cases hside
      subst hfirst
      refine ⟨fun key => ?_, ?_⟩
      · exact (perform_other hapart move.2 w.shared key).trans (hdb key)
      · rw [m.step_logOf_other _ _ _ _ (by decide), hlog]
  · intro key key' stored hkey
    obtain ⟨-, rfl⟩ := qualifiedKey_eq_ok.mp hkey
    refine ⟨stripNamespace_append key, fun hkey' => ?_⟩
    exact (List.append_cancel_left (qualifiedKey_eq_ok.mp hkey').2).symm

/-- Globs with stars only. -/
def starMatches : Text → Text → Bool
  | [] => List.isEmpty
  | c :: pattern => fun text =>
    if c = '*' then text.tails.any (starMatches pattern)
    else match text with
      | [] => false
      | d :: rest => c == d && starMatches pattern rest

/-- A server that keeps values in memory and knows `GET`, `SETEX` and star globs only. -/
def starServer : Server where
  Cell := Bytes × Nat
  execute key command now db :=
    let cell := (db key).filter fun cell => now < cell.2
    match command with
    | .get => (db, .ok (cell.map Prod.fst))
    | .setex ttlSeconds value =>
      (Function.update db key (some (value, now + ttlSeconds * 1000)), .ok ())
    | _ => (db, .error "ERR unknown command")
  execute_other key command now db other hother := by
    cases command with
    | setex ttlSeconds value => exact Function.update_of_ne hother _ _
    | _ => rfl
  execute_congr key command now db db' h := by
    cases command <;> simp [h]
  present now cell := cell.any fun cell => now < cell.2
  matchesGlob := starMatches
  literal_exact c pattern text hc := by
    have hstar : c ≠ '*' := by
      rintro rfl
      cases hc
    cases text with
    | nil => simp [starMatches, hstar]
    | cons d rest =>
      simp only [starMatches, hstar, if_false, Bool.and_eq_true, beq_iff_eq, List.cons.injEq]
      exact ⟨fun h => ⟨rest, ⟨h.1.symm, rfl⟩, h.2⟩, fun ⟨_, h, hrest⟩ => ⟨h.1.symm, h.2 ▸ hrest⟩⟩

/-- The plan for a local server with the given namespace and the defaults. -/
def localPlan (keyNamespace : Text) (h : validNamespace keyNamespace = true) : RedisCachePlan :=
  ⟨"redis://localhost:6379/0", false, 0, false, keyNamespace, 3600, 16, 5, 2, 100, 1000, h,
    by decide⟩

def nestedPlans : Side → RedisCachePlan :=
  pair (localPlan "a".toList (by decide)) (localPlan "a:b".toList (by decide))

def scanAll : Side × Operation × Exchange :=
  (.second, .scanPage ⟨0, "*".toList, 10, by decide⟩, { now := 2, examined := ["a:b:c".toList] })

/-- Under the namespaces `a` and `a:b`, both accepted, one entry has the keys `b:c` and `c`: what
the first plan writes is read and scanned through the second. -/
theorem nested_namespace_is_shared :
    (∀ side, RedisCachePlan.build (fun _ => some ⟨.tcp, 0, false⟩)
        { redisUrl := some "redis://localhost:6379/0", useTls := some false,
          keyNamespace := some (nestedPlans side).keyNamespace } = .ok (nestedPlans side)) ∧
    (nestedPlans .first).keyNamespace ≠ (nestedPlans .second).keyNamespace ∧
    (nestedPlans .first).qualifiedKey "b:c".toList =
      (nestedPlans .second).qualifiedKey "c".toList ∧
    ((machine starServer nestedPlans).run (start fun _ => none)
        [(.first, .writeRaw "b:c".toList [1] 60, { now := 0 }),
          (.second, .readRaw "c".toList, { now := 1 }), scanAll]).logOf .second =
      [.ok (.raw (some [1])), .ok (.page ⟨["c".toList], 0⟩)] ∧
    ((machine starServer nestedPlans).run (start fun _ => none)
        [(.second, .readRaw "c".toList, { now := 1 }), scanAll]).logOf .second =
      [.ok (.raw none), .ok (.page ⟨[], 0⟩)] := by
  refine ⟨fun side => ?_, by decide, rfl, by rfl, by rfl⟩
  cases side <;> rfl

end Lily.Redis
