import Mathlib.Algebra.Order.Ring.Int
import Mathlib.Data.List.Basic

/-!
# Forwarded client addresses

The two places where a server takes the address of its client from a trusted proxy: the HTTP server
over its list of header lines, and the WebSocket handshake over its table of headers. How the text
of a hop is read as an address, and which addresses a network contains, are parameters.
-/

namespace Lily.Http.Forwarding

/-! ## Addresses -/

inductive IpAddr where
  | v4 (bits : BitVec 32)
  | v6 (bits : BitVec 128)

/-- An `ipnet` network, by the addresses it contains. -/
structure TrustedProxyNetwork where
  contains : IpAddr → Bool

/-- What the configurations of both servers say about proxies. -/
structure ProxyConfig where
  trustedProxyCidrs : List TrustedProxyNetwork
  maxForwardedHops : Nat

def ProxyConfig.trusts (config : ProxyConfig) (address : IpAddr) : Bool :=
  config.trustedProxyCidrs.any (·.contains address)

structure RequestConnectionInfo where
  peerIp : Option IpAddr := none
  clientIp : Option IpAddr := none
  trustedProxy : Bool := false

namespace RequestConnectionInfo

def direct (peer : IpAddr) : RequestConnectionInfo := ⟨some peer, some peer, false⟩

def fromTrustedTransport (peer client : Option IpAddr) (trustedProxy : Bool) :
    RequestConnectionInfo :=
  ⟨peer, client, trustedProxy⟩

end RequestConnectionInfo

/-! ## Texts -/

/-- The characters that `str::trim` removes. -/
def isWhitespace (c : Char) : Bool :=
  (9 ≤ c.toNat && c.toNat ≤ 13) || (0x2000 ≤ c.toNat && c.toNat ≤ 0x200A) ||
    [0x20, 0x85, 0xA0, 0x1680, 0x2028, 0x2029, 0x202F, 0x205F, 0x3000].contains c.toNat

def trim (text : List Char) : List Char :=
  ((text.dropWhile isWhitespace).reverse.dropWhile isWhitespace).reverse

/-- `to_ascii_lowercase`. -/
def lower (name : String) : String := String.ofList (name.toList.map Char.toLower)

theorem toLower_of_not_upper {c : Char} (h : ¬ (65 ≤ c.val ∧ c.val ≤ 90)) : c.toLower = c :=
  dif_neg h

theorem toLower_toLower (c : Char) : c.toLower.toLower = c.toLower := by
  by_cases h : 65 ≤ c.val ∧ c.val ≤ 90
  · have hlower : c.toLower.val = c.val + 32 := congrArg Char.val (dif_pos h)
    refine toLower_of_not_upper fun hupper => ?_
    have hlow := UInt32.le_iff_toNat_le.mp h.1
    have hhigh := UInt32.le_iff_toNat_le.mp h.2
    have hagain := UInt32.le_iff_toNat_le.mp hupper.2
    rw [hlower, UInt32.toNat_add] at hagain
    simp at hlow hhigh hagain
    omega
  · rw [toLower_of_not_upper h, toLower_of_not_upper h]

theorem lower_lower (name : String) : lower (lower name) = lower name := by
  rw [lower, lower, String.toList_ofList, List.map_map]
  exact congrArg String.ofList (List.map_congr_left fun c _ => toLower_toLower c)

def equalsIgnoringCase (a b : String) : Bool := lower a == lower b

/-- The names that stand for an identity the proxy has established. -/
def edgeIdentityHeaders : List String :=
  ["x-lily-principal", "x-lily-subject", "x-lily-roles", "x-lily-scopes", "x-auth-request-user",
    "x-auth-request-email", "x-forwarded-user", "x-forwarded-email", "x-remote-user",
    "x-client-cert", "x-ssl-client-cert", "x-ssl-client-subject-dn", "x-forwarded-client-cert"]

/-! ## Hops -/

inductive HopError where
  | count
  | address

/-- The comma-separated hops of a value. -/
def parseHops (parse : List Char → Option IpAddr) (limit : Nat) (value : String) :
    Except HopError (List IpAddr) :=
  let hops := (value.toList.splitOn ',').map trim
  if hops.isEmpty || limit < hops.length then .error .count
  else hops.mapM fun hop =>
    if hop.isEmpty then .error .address
    else match parse hop with
      | some address => .ok address
      | none => .error .address

/-- The walk from the peer to the left, which stops at an address that is not trusted. -/
def walk (trusts : IpAddr → Bool) (effective : IpAddr) : List IpAddr → IpAddr
  | [] => effective
  | hop :: rest => if trusts effective then walk trusts hop rest else effective

/-! ## The HTTP server -/

namespace Server

structure RawHeader where
  name : String
  value : String
  lineNumber : Nat
  rawLine : String

inductive HttpApiError where
  | invalidHttpHeader (message : String)

def isReservedEdgeIdentityHeader (name : String) : Bool := edgeIdentityHeaders.contains (lower name)

def forwardedFor (headers : List RawHeader) : List String :=
  (headers.filter fun header => equalsIgnoringCase header.name "x-forwarded-for").map (·.value)

def retain (header : RawHeader) : Bool :=
  !equalsIgnoringCase header.name "x-forwarded-for" &&
    !equalsIgnoringCase header.name "x-real-ip" && !equalsIgnoringCase header.name "forwarded" &&
    !isReservedEdgeIdentityHeader header.name

/-- The connection of a request, and the header lines that are left. -/
def resolveConnectionInfo (parse : List Char → Option IpAddr) (transport : ProxyConfig)
    (peerIp : Option IpAddr) (headers : List RawHeader) :
    Except HttpApiError RequestConnectionInfo × List RawHeader :=
  let info := match peerIp with
    | none => .ok {}
    | some peer =>
      if !transport.trusts peer then .ok (.direct peer)
      else match forwardedFor headers with
        | _ :: _ :: _ => .error
            (.invalidHttpHeader "trusted proxy supplied duplicate X-Forwarded-For headers")
        | [] => .ok (.fromTrustedTransport (some peer) (some peer) true)
        | [value] =>
          match parseHops parse transport.maxForwardedHops value with
          | .error .count => .error
              (.invalidHttpHeader "trusted proxy supplied an invalid forwarded hop count")
          | .error .address => .error
              (.invalidHttpHeader "trusted proxy supplied an invalid forwarded address")
          | .ok hops =>
            let client := walk transport.trusts peer hops.reverse
            .ok (.fromTrustedTransport (some peer) (some client) true)
  (info, headers.filter retain)

end Server

/-! ## The WebSocket handshake -/

namespace Handshake

/-- The headers of an upgrade request, under their names in lower case. -/
structure Headers where
  entries : List (String × String)
  nodup : (entries.map (·.1)).Nodup
  lowercase : ∀ entry ∈ entries, lower entry.1 = entry.1

namespace Headers

def get (headers : Headers) (name : String) : Option String := headers.entries.lookup name

def retain (headers : Headers) (keep : String → Bool) : Headers where
  entries := headers.entries.filter fun entry => keep entry.1
  nodup := headers.nodup.sublist (List.filter_sublist.map _)
  lowercase entry hentry := headers.lowercase entry (List.mem_filter.mp hentry).1

def remove (headers : Headers) (name : String) : Headers := headers.retain (· != name)

theorem not_mem_of_get (headers : Headers) {name : String} (h : headers.get name = none) :
    name ∉ headers.entries.map (·.1) := by
  intro hmem
  obtain ⟨entry, hentry, rfl⟩ := List.mem_map.mp hmem
  exact absurd (List.lookup_eq_none_iff.mp h entry hentry) (by simp)

/-- A header that is not there yet. -/
def insert (headers : Headers) (name value : String) (hnew : headers.get name = none)
    (hlower : lower name = name) : Headers where
  entries := (name, value) :: headers.entries
  nodup := List.nodup_cons.mpr ⟨headers.not_mem_of_get hnew, headers.nodup⟩
  lowercase entry hentry := by
    rcases List.mem_cons.mp hentry with rfl | hold
    · exact hlower
    · exact headers.lowercase entry hold

def amend (headers : Headers) (name value : String) : Headers where
  entries := headers.entries.map fun entry =>
    (entry.1, if entry.1 = name then value else entry.2)
  nodup := by
    rw [List.map_map]
    exact headers.nodup
  lowercase entry hentry := by
    obtain ⟨old, hold, rfl⟩ := List.mem_map.mp hentry
    exact headers.lowercase old hold

end Headers

inductive WsHeaderError where
  | tooManyHeaders
  | invalidHeaderName
  | invalidHeaderValue
  | mergedHeaderValueTooLarge
  | duplicateHeader

def maxHandshakeHeaderEntries : Nat := 64
def maxHandshakeHeaderNameBytes : Nat := 128
def maxHandshakeHeaderValueBytes : Nat := 8 * 1024
def maxHandshakeMergedHeaderValueBytes : Nat := 16 * 1024

/-- The characters that a header value may have as a text. -/
def isVisible (c : Char) : Bool := c = '\t' || (32 ≤ c.toNat && c.toNat ≤ 126)

def validateRawHeader (name value : String) : Except WsHeaderError Unit :=
  if maxHandshakeHeaderNameBytes < name.utf8ByteSize then .error .invalidHeaderName
  else if !value.toList.all isVisible then .error .invalidHeaderValue
  else if maxHandshakeHeaderValueBytes < value.utf8ByteSize then .error .invalidHeaderValue
  else .ok ()

def isRepeatableWebsocketHeader (name : String) : Bool :=
  name = "sec-websocket-protocol" || name = "sec-websocket-extensions"

def collectLine (headers : Headers) (name value : String) : Except WsHeaderError Headers :=
  match validateRawHeader name value with
  | .error error => .error error
  | .ok () =>
    match hget : headers.get (lower name) with
    | some existing =>
      if !isRepeatableWebsocketHeader (lower name) then .error .duplicateHeader
      else if maxHandshakeMergedHeaderValueBytes <
          existing.utf8ByteSize + 1 + value.utf8ByteSize then
        .error .mergedHeaderValueTooLarge
      else .ok (headers.amend (lower name) (existing ++ "," ++ value))
    | none => .ok (headers.insert (lower name) value hget (lower_lower name))

/-- `collect_handshake_headers`. The first argument is the number of lines that are done. -/
def collectFrom (index : Nat) (headers : Headers) :
    List (String × String) → Except WsHeaderError Headers
  | [] => .ok headers
  | (name, value) :: rest =>
    if maxHandshakeHeaderEntries ≤ index then .error .tooManyHeaders
    else match collectLine headers name value with
      | .error error => .error error
      | .ok headers => collectFrom (index + 1) headers rest

def collectHandshakeHeaders (lines : List (String × String)) : Except WsHeaderError Headers :=
  collectFrom 0 ⟨[], List.nodup_nil, List.forall_mem_nil _⟩ lines

def isReservedEdgeIdentityHeader (name : String) : Bool := edgeIdentityHeaders.contains name

/-- The connection of an upgrade request, and the headers that are left. -/
def resolveConnectionInfo (parse : List Char → Option IpAddr) (config : ProxyConfig)
    (peer : IpAddr) (headers : Headers) : Except Unit RequestConnectionInfo × Headers :=
  let rest := (headers.remove "x-forwarded-for").retain fun name =>
    name != "x-real-ip" && name != "forwarded" && !isReservedEdgeIdentityHeader name
  let info :=
    if !config.trusts peer then .ok (.direct peer)
    else match headers.get "x-forwarded-for" with
      | none => .ok (.direct peer)
      | some value =>
        match parseHops parse config.maxForwardedHops value with
        | .error _ => .error ()
        | .ok hops =>
          let client := walk config.trusts peer hops.reverse
          .ok (.fromTrustedTransport (some peer) (some client) true)
  (info, rest)

end Handshake

/-! ## The address that is chosen -/

section Choice

variable {parse : List Char → Option IpAddr} {config : ProxyConfig} {trusts : IpAddr → Bool}
  {peer : IpAddr}

/-- The rightmost address of the chain that is not trusted, or the leftmost address. -/
def chosen (trusts : IpAddr → Bool) (hops : List IpAddr) (peer : IpAddr) : IpAddr :=
  ((hops ++ [peer]).reverse.find? (!trusts ·)).getD ((hops ++ [peer]).headD peer)

theorem walk_eq_find (effective : IpAddr) (rest : List IpAddr) :
    walk trusts effective rest =
      ((effective :: rest).find? (!trusts ·)).getD ((effective :: rest).getLastD effective) := by
  induction rest generalizing effective with
  | nil => cases h : trusts effective <;> simp [walk, h]
  | cons hop rest ih =>
    cases h : trusts effective with
    | false => simp [walk, h]
    | true =>
      have hskip : (effective :: hop :: rest).find? (!trusts ·) =
          (hop :: rest).find? (!trusts ·) := List.find?_cons_of_neg (by simp [h])
      rw [walk, if_pos h, ih, hskip]
      rfl

theorem walk_reverse (hops : List IpAddr) :
    walk trusts peer hops.reverse = chosen trusts hops peer := by
  have hreverse : (hops ++ [peer]).reverse = peer :: hops.reverse := by simp
  rw [walk_eq_find, chosen, hreverse]
  congr 1
  rw [← hreverse, List.getLastD_eq_getLast?, List.getLast?_reverse, List.headD_eq_head?_getD]

/-- What stands to the left of an address that is not trusted does not matter. -/
theorem chosen_congr {address : IpAddr} (left left' right : List IpAddr)
    (huntrusted : trusts address = false) :
    chosen trusts (left ++ address :: right) peer =
      chosen trusts (left' ++ address :: right) peer := by
  have hsome : ∃ found, ((address :: right) ++ [peer]).reverse.find? (!trusts ·) = some found := by
    rw [← Option.isSome_iff_exists, List.find?_isSome]
    exact ⟨address, by simp, by simp [huntrusted]⟩
  obtain ⟨found, hfound⟩ := hsome
  have hfind (left : List IpAddr) :
      ((left ++ address :: right) ++ [peer]).reverse.find? (!trusts ·) = some found := by
    rw [List.append_assoc, List.reverse_append, List.find?_append, hfound, Option.some_or]
  rw [chosen, chosen, hfind, hfind]
  rfl

/-- The hops that the values of `X-Forwarded-For` are, if they are acceptable. -/
def chain (parse : List Char → Option IpAddr) (config : ProxyConfig) :
    List String → Option (List IpAddr)
  | [] => some []
  | [value] => (parseHops parse config.maxForwardedHops value).toOption
  | _ => none

/-- The client of a connection that is accepted. -/
def client (parse : List Char → Option IpAddr) (config : ProxyConfig) (peer : IpAddr)
    (values : List String) : Option IpAddr :=
  if config.trusts peer then (chain parse config values).map (chosen config.trusts · peer)
  else some peer

/-- There is no chain without a header. -/
theorem chain_some {value : Option String} {hops : List IpAddr}
    (h : chain parse config value.toList = some hops) (hne : hops ≠ []) :
    ∃ text, value = some text := by
  cases value with
  | none =>
    cases h
    exact absurd rfl hne
  | some text => exact ⟨text, rfl⟩

/-- The effective client that a server has resolved. -/
def resolved {ε : Type} (info : Except ε RequestConnectionInfo) : Option (Option IpAddr) :=
  info.toOption.map (·.clientIp)

/-- What a connection is taken for, given the values of the header. -/
def answer (parse : List Char → Option IpAddr) (config : ProxyConfig) (peer : IpAddr)
    (values : List String) : Option RequestConnectionInfo :=
  if config.trusts peer then (chain parse config values).map fun hops =>
    .fromTrustedTransport (some peer) (some (chosen config.trusts hops peer)) true
  else some (.direct peer)

theorem answer_client {values : List String} :
    (answer parse config peer values).map (·.clientIp) =
      (client parse config peer values).map some := by
  rw [answer, client]
  split_ifs
  · rw [Option.map_map, Option.map_map]
    rfl
  · rfl

theorem answer_of_chain {values : List String} {hops : List IpAddr}
    (h : chain parse config values = some hops) :
    answer parse config peer values = some (if config.trusts peer then
      .fromTrustedTransport (some peer) (some (chosen config.trusts hops peer)) true
      else .direct peer) := by
  rw [answer, h]
  split_ifs <;> rfl

theorem server_answer {headers : List Server.RawHeader} :
    (Server.resolveConnectionInfo parse config (some peer) headers).1.toOption =
      answer parse config peer (Server.forwardedFor headers) := by
  rw [answer]
  cases h : config.trusts peer with
  | false => simp [Server.resolveConnectionInfo, h, Except.toOption]
  | true =>
    simp only [Server.resolveConnectionInfo, h, Bool.not_true, Bool.false_eq_true, if_false,
      if_true, ← walk_reverse]
    rcases Server.forwardedFor headers with _ | ⟨value, _ | ⟨second, rest⟩⟩
    · rfl
    · simp only [chain]
      rcases parseHops parse config.maxForwardedHops value with (_ | _) | hops <;> rfl
    · rfl

theorem server_client {headers : List Server.RawHeader} :
    resolved (Server.resolveConnectionInfo parse config (some peer) headers).1 =
      (client parse config peer (Server.forwardedFor headers)).map some := by
  rw [resolved, server_answer, answer_client]

section Handshake

variable {headers : Handshake.Headers}

/-- Without the header, the handshake takes a connection as direct from any peer. -/
theorem handshake_answer {value : String} (hvalue : headers.get "x-forwarded-for" = some value) :
    (Handshake.resolveConnectionInfo parse config peer headers).1.toOption =
      answer parse config peer (headers.get "x-forwarded-for").toList := by
  rw [answer, hvalue, Option.toList_some]
  cases h : config.trusts peer with
  | false => simp [Handshake.resolveConnectionInfo, h, Except.toOption]
  | true =>
    simp only [Handshake.resolveConnectionInfo, h, Bool.not_true, Bool.false_eq_true, if_false,
      if_true, hvalue, chain, ← walk_reverse]
    cases parseHops parse config.maxForwardedHops value <;> rfl

theorem handshake_client :
    resolved (Handshake.resolveConnectionInfo parse config peer headers).1 =
      (client parse config peer (headers.get "x-forwarded-for").toList).map some := by
  cases hvalue : headers.get "x-forwarded-for" with
  | none =>
    cases h : config.trusts peer <;> simp [Handshake.resolveConnectionInfo, hvalue, client, chain,
      chosen, h, resolved, Except.toOption, RequestConnectionInfo.direct]
  | some value => rw [resolved, handshake_answer hvalue, answer_client, hvalue]

end Handshake

theorem eq_of_toOption {ε α : Type} {x y : Except ε α} {a : α} (hx : x.toOption = some a)
    (hy : y.toOption = some a) : x = y := by
  cases x <;> cases y <;> simp_all [Except.toOption]

/-! ## What is left of the headers -/

/-- The names, in lower case, that no application sees. -/
def Stripped (name : String) : Prop :=
  name ∈ "x-forwarded-for" :: "x-real-ip" :: "forwarded" :: edgeIdentityHeaders

theorem lower_names : lower "x-forwarded-for" = "x-forwarded-for" ∧
    lower "x-real-ip" = "x-real-ip" ∧ lower "forwarded" = "forwarded" := by
  decide

theorem not_stripped {name : String} (hforwardedFor : name ≠ "x-forwarded-for")
    (hrealIp : name ≠ "x-real-ip") (hforwarded : name ≠ "forwarded")
    (hedge : name ∉ edgeIdentityHeaders) : ¬ Stripped name := by
  rintro (_ | ⟨_, _ | ⟨_, _ | ⟨_, hmem⟩⟩⟩)
  · exact hforwardedFor rfl
  · exact hrealIp rfl
  · exact hforwarded rfl
  · exact hedge hmem

theorem server_stripped {peerIp : Option IpAddr} {headers : List Server.RawHeader} :
    ∀ header ∈ (Server.resolveConnectionInfo parse config peerIp headers).2,
      ¬ Stripped (lower header.name) := by
  intro header hheader
  have hretain : Server.retain header = true := (List.mem_filter.mp hheader).2
  simp only [Server.retain, equalsIgnoringCase, Server.isReservedEdgeIdentityHeader,
    lower_names.1, lower_names.2.1, lower_names.2.2, Bool.and_eq_true, Bool.not_eq_true',
    beq_eq_false_iff_ne, List.contains_eq_mem, decide_eq_false_iff_not] at hretain
  obtain ⟨⟨⟨hforwardedFor, hrealIp⟩, hforwarded⟩, hedge⟩ := hretain
  exact not_stripped hforwardedFor hrealIp hforwarded hedge

theorem handshake_stripped {headers : Handshake.Headers} :
    ∀ entry ∈ (Handshake.resolveConnectionInfo parse config peer headers).2.entries,
      ¬ Stripped (lower entry.1) := by
  intro entry hentry
  rw [Handshake.Headers.lowercase _ entry hentry]
  obtain ⟨hleft, hretain⟩ := List.mem_filter.mp hentry
  have hforwardedFor := (List.mem_filter.mp hleft).2
  simp only [Handshake.isReservedEdgeIdentityHeader, Bool.and_eq_true, Bool.not_eq_true',
    bne_iff_ne, List.contains_eq_mem, decide_eq_false_iff_not] at hretain hforwardedFor
  exact not_stripped hforwardedFor hretain.1.1 hretain.1.2 hretain.2

/-! ## The two representations of the headers -/

theorem get_insert (headers : Handshake.Headers) {name value : String}
    (hnew : headers.get name = none) (hlower : lower name = name) (other : String) :
    (headers.insert name value hnew hlower).get other =
      if other = name then some value else headers.get other := by
  rw [Handshake.Headers.get, Handshake.Headers.insert, List.lookup_cons]
  by_cases h : other = name
  · rw [if_pos h, beq_iff_eq.mpr h]
  · rw [if_neg h, beq_eq_false_iff_ne.mpr h]
    rfl

theorem lookup_amend (entries : List (String × String)) (value : String) {name other : String}
    (h : other ≠ name) :
    (entries.map fun entry => (entry.1, if entry.1 = name then value else entry.2)).lookup other =
      entries.lookup other := by
  induction entries with
  | nil => rfl
  | cons entry rest ih =>
    rw [List.map_cons, List.lookup_cons, ih, List.lookup_cons]
    by_cases hentry : other = entry.1
    · rw [beq_iff_eq.mpr hentry, if_neg (hentry ▸ h)]
    · rw [beq_eq_false_iff_ne.mpr hentry]

theorem get_amend (headers : Handshake.Headers) (name value : String) {other : String}
    (h : other ≠ name) : (headers.amend name value).get other = headers.get other :=
  lookup_amend headers.entries value h

def values (name : String) (lines : List (String × String)) : List String :=
  (lines.filter fun line => lower line.1 == name).map (·.2)

/-- A header that is not repeatable has at most one line, and its value is that of the line. -/
theorem collectLine_get {name : String} (hname : Handshake.isRepeatableWebsocketHeader name = false)
    {headers headers' : Handshake.Headers} {line : String × String}
    (h : Handshake.collectLine headers line.1 line.2 = .ok headers') :
    (headers'.get name).toList = (headers.get name).toList ++ values name [line] := by
  unfold Handshake.collectLine at h
  split at h
  · cases h
  · split at h
    next existing hget =>
      split_ifs at h with hrepeatable hlong
      cases h
      have hother : name ≠ lower line.1 := by
        rintro rfl
        simp [hname] at hrepeatable
      rw [get_amend headers _ _ hother]
      simp [values, hother.symm]
    next hget =>
      cases h
      rw [get_insert]
      by_cases hsame : name = lower line.1
      · subst hsame
        simp [values, hget]
      · simp [values, hsame, Ne.symm hsame]

theorem collectFrom_get (name : String)
    (hname : Handshake.isRepeatableWebsocketHeader name = false) {index : Nat}
    {headers result : Handshake.Headers} {lines : List (String × String)}
    (h : Handshake.collectFrom index headers lines = .ok result) :
    (result.get name).toList = (headers.get name).toList ++ values name lines := by
  induction lines generalizing index headers with
  | nil =>
    cases h
    simp [values]
  | cons line rest ih =>
    unfold Handshake.collectFrom at h
    split at h
    · cases h
    · split at h
      · cases h
      next headers' hline =>
        have hvalues : values name (line :: rest) = values name [line] ++ values name rest := by
          rw [values, values, values, ← List.map_append, ← List.filter_append,
            List.singleton_append]
        rw [ih h, collectLine_get hname hline, hvalues, List.append_assoc]

theorem collected_forwardedFor {lines : List Server.RawHeader} {headers : Handshake.Headers}
    (h : Handshake.collectHandshakeHeaders (lines.map fun line => (line.name, line.value)) =
      .ok headers) : (headers.get "x-forwarded-for").toList = Server.forwardedFor lines := by
  have hget := collectFrom_get "x-forwarded-for" (by decide) h
  rw [hget]
  simp [Handshake.Headers.get, values, Server.forwardedFor, equalsIgnoringCase, lower_names.1,
    List.filter_map, Function.comp_def]

/-! ## The client cannot choose its address -/

/-- Both servers resolve the same client, the rightmost address that is not trusted; no header that
could claim another one is left; and what stands to the left of the chosen address is of no
consequence. -/
theorem client_address_resolved (parse : List Char → Option IpAddr) (config : ProxyConfig)
    (peer : IpAddr) :
    (∀ headers, resolved (Server.resolveConnectionInfo parse config (some peer) headers).1 =
      (client parse config peer (Server.forwardedFor headers)).map some) ∧
    (∀ headers, resolved (Handshake.resolveConnectionInfo parse config peer headers).1 =
      (client parse config peer (headers.get "x-forwarded-for").toList).map some) ∧
    (∀ peerIp headers,
      ∀ header ∈ (Server.resolveConnectionInfo parse config peerIp headers).2,
        ¬ Stripped (lower header.name)) ∧
    (∀ headers, ∀ entry ∈ (Handshake.resolveConnectionInfo parse config peer headers).2.entries,
      ¬ Stripped (lower entry.1)) ∧
    (∀ left left' address right, config.trusts address = false →
      (∀ hop ∈ right, config.trusts hop = true) →
      (∀ headers headers',
        chain parse config (Server.forwardedFor headers) = some (left ++ address :: right) →
        chain parse config (Server.forwardedFor headers') = some (left' ++ address :: right) →
        (Server.resolveConnectionInfo parse config (some peer) headers).1 =
          (Server.resolveConnectionInfo parse config (some peer) headers').1) ∧
      ∀ headers headers' : Handshake.Headers,
        chain parse config (headers.get "x-forwarded-for").toList =
          some (left ++ address :: right) →
        chain parse config (headers'.get "x-forwarded-for").toList =
          some (left' ++ address :: right) →
        (Handshake.resolveConnectionInfo parse config peer headers).1 =
          (Handshake.resolveConnectionInfo parse config peer headers').1) ∧
    ∀ (lines : List Server.RawHeader) (headers : Handshake.Headers),
      ((Server.forwardedFor lines).length ≤ 1 ∧
          headers.get "x-forwarded-for" = (Server.forwardedFor lines).head? ∨
        Handshake.collectHandshakeHeaders (lines.map fun line => (line.name, line.value)) =
          .ok headers) →
      resolved (Server.resolveConnectionInfo parse config (some peer) lines).1 =
        resolved (Handshake.resolveConnectionInfo parse config peer headers).1 := by
  refine ⟨fun _ => server_client, fun _ => handshake_client, fun _ _ => server_stripped,
    fun _ => handshake_stripped, ?_, ?_⟩
  · intro left left' address right huntrusted _
    have hsame : chosen config.trusts (left ++ address :: right) peer =
        chosen config.trusts (left' ++ address :: right) peer :=
      chosen_congr left left' right huntrusted
    refine ⟨fun headers headers' hchain hchain' => ?_, fun headers headers' hchain hchain' => ?_⟩
    · refine eq_of_toOption (server_answer.trans (answer_of_chain hchain)) ?_
      rw [server_answer, answer_of_chain hchain', hsame]
    · obtain ⟨value, hvalue⟩ := chain_some hchain (by simp)
      obtain ⟨value', hvalue'⟩ := chain_some hchain' (by simp)
      refine eq_of_toOption ((handshake_answer hvalue).trans (answer_of_chain hchain)) ?_
      rw [handshake_answer hvalue', answer_of_chain hchain', hsame]
  · intro lines headers htable
    have hvalues : (headers.get "x-forwarded-for").toList = Server.forwardedFor lines := by
      rcases htable with ⟨hlength, hvalue⟩ | hcollected
      · rw [hvalue]
        rcases hlines : Server.forwardedFor lines with _ | ⟨value, _ | ⟨second, rest⟩⟩
        · rfl
        · rfl
        · rw [hlines] at hlength
          simp at hlength
      · exact collected_forwardedFor hcollected
    rw [server_client, handshake_client, hvalues]

end Choice

/-- The network 10.0.0.0/8. -/
def privateNetwork : TrustedProxyNetwork where
  contains
    | .v4 bits => bits >>> 24 == 10
    | .v6 _ => false

def parseSample (text : List Char) : Option IpAddr :=
  if text = "203.0.113.7".toList then some (.v4 0xCB007107)
  else if text = "198.51.100.9".toList then some (.v4 0xC6336409)
  else if text = "10.0.0.2".toList then some (.v4 0x0A000002)
  else none

/-- The client is the hop before the two proxies, whatever it has put in front of itself. -/
theorem client_behind_proxies :
    resolved (Server.resolveConnectionInfo parseSample ⟨[privateNetwork], 8⟩
      (some (.v4 0x0A000001))
      [⟨"X-Forwarded-For", "198.51.100.9, 203.0.113.7, 10.0.0.2", 1, ""⟩]).1 =
        some (some (.v4 0xCB007107)) := by
  rw [(client_address_resolved parseSample ⟨[privateNetwork], 8⟩ (.v4 0x0A000001)).1]
  rfl

end Lily.Http.Forwarding
