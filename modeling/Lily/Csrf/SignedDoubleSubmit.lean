import Lily.Csrf.Request
import Lily.Text.Base64Url
import Lily.Text.Framing
import Lily.Text.Utf8

/-!
# Signed double-submit tokens

A token carries its expiry, a nonce and a code that authenticates both together with the session. A
request presents it twice, once as a cookie. The authentication code is any function of a key and a
message, and the texts of bytes are those of any Base64 engine.
-/

namespace Lily.Csrf

open Base64Url.Engine

/-- An array of `n` bytes. -/
def Bytes (n : Nat) : Type := { bytes : List UInt8 // bytes.length = n }

instance (n : Nat) : DecidableEq (Bytes n) := inferInstanceAs (DecidableEq { _b : List UInt8 // _ })

abbrev Nonce := Bytes 32
abbrev Mac := Bytes 32

/-- HMAC-SHA256, of a key and a message. -/
abbrev Hmac := List UInt8 → List UInt8 → Mac

section Engine

variable [Base64Url.Engine]

/-! ## Texts of tokens -/

structure ParsedToken where
  expires : UInt64
  nonce : Nonce
  mac : Mac

/-- `str::parse::<u64>`: a plus sign and leading zeros are allowed. -/
def parseU64 (text : List Char) : Option UInt64 :=
  let digits := if text.head? = some '+' then text.tail else text
  if digits.isEmpty || !digits.all Char.isDigit then none
  else
    let value := Nat.ofDigitChars 10 digits 0
    if value < 2 ^ 64 then some (UInt64.ofNat value) else none

def decodeFixed (n : Nat) (encoded : List Char) : Option (Bytes n) :=
  match decode encoded with
  | none => none
  | some decoded => if h : decoded.length = n then some ⟨decoded, h⟩ else none

def csrfTokenVersion : String := "v1"

def parseParts : List (List Char) → Option ParsedToken
  | [version, expires, nonce, mac] =>
    if version = csrfTokenVersion.toList then do
      let expires ← parseU64 expires
      let nonce ← decodeFixed 32 nonce
      let mac ← decodeFixed 32 mac
      some ⟨expires, nonce, mac⟩
    else none
  | _ => none

def parseToken (token : String) : Except CsrfRuntimeRejection ParsedToken :=
  if maxCsrfTokenBytes < token.utf8ByteSize then .error .tokenMalformed
  else
    match parseParts (token.toList.splitOn '.') with
    | none => .error .tokenMalformed
    | some parsed => .ok parsed

variable (hmac : Hmac) (key : CsrfSecret) (binding : CsrfSessionId) (expires : UInt64)
  (nonce : Nonce)

def encodeToken (mac : Mac) : String :=
  String.ofList (['.'].intercalate [csrfTokenVersion.toList, Nat.toDigits 10 expires.toNat,
    encode nonce.val, encode mac.val])

/-! ## Codes -/

def csrfMacDomain : List UInt8 :=
  "lily.csrf.signed-double-submit.v1\x00".toList.map fun c => UInt8.ofNat c.toNat

/-- What `update_mac` feeds to the code. -/
def macInput : List UInt8 :=
  csrfMacDomain ++ (Framing.frame 8 binding.bytes ++
    (Framing.bigEndian 8 expires.toNat ++ nonce.val))

def sign : Mac :=
  hmac key.bytes (macInput binding expires nonce)

/-! ## Policies -/

/-- The attributes of the cookie that carries the token: its name, and the cookie of a value if the
value can be one. -/
structure CsrfCookiePolicy where
  name : String
  responseCookie : String → Nat → Option String

structure CompiledSignedDoubleSubmit where
  primaryKey : CsrfSecret
  previousKeys : List CsrfSecret
  binding : CsrfSessionBinding
  cookie : CsrfCookiePolicy
  tokenHeader : String
  formField : Option String
  /-- In seconds. -/
  ttl : Nat

namespace CompiledSignedDoubleSubmit

variable (signed : CompiledSignedDoubleSubmit) (hmac : Hmac) (request : Request) (now : UInt64)
  (random : Option Nonce)

def keys : List CsrfSecret :=
  signed.primaryKey :: signed.previousKeys

/-- `random` is what the generator of the operating system yields. -/
def issue : Except CsrfOperationError (String × String) := do
  let binding ← operationBinding signed.binding request
  let expires ←
    if now.toNat + signed.ttl < 2 ^ 64 then .ok (UInt64.ofNat (now.toNat + signed.ttl))
    else .error .clockInvalid
  let nonce ← random.elim (.error .randomUnavailable) .ok
  let token := encodeToken expires nonce (sign hmac signed.primaryKey binding expires nonce)
  let cookie ← (signed.cookie.responseCookie token signed.ttl).elim (.error .cookieInvalid) .ok
  pure (token, cookie)

def requestCookie : Except CsrfRuntimeRejection String :=
  match request.cookie signed.cookie.name with
  | .error _ => .error .cookieInvalid
  | .ok none => .error .cookieMissing
  | .ok (some cookie) =>
    if maxCsrfTokenBytes < cookie.utf8ByteSize then .error .cookieInvalid else .ok cookie

def verify (binding : CsrfSessionId) (parsed : ParsedToken) : Bool :=
  signed.keys.any fun key => decide (sign hmac key binding parsed.expires parsed.nonce = parsed.mac)

def enforce : Except CsrfRuntimeRejection Unit := do
  let binding ← runtimeBinding signed.binding request
  let cookie ← signed.requestCookie request
  let requestToken ← extractRequestToken request signed.tokenHeader signed.formField
  if cookie ≠ requestToken then .error .tokenMismatch
  else
    let parsed ← parseToken requestToken
    if parsed.expires ≤ now then .error .tokenExpired
    else if signed.verify hmac binding parsed then .ok ()
    else .error .signatureInvalid

end CompiledSignedDoubleSubmit

/-- A route that is exempt from the checks. -/
structure CsrfBypass where
  method : String
  path : String

structure SignedPolicy where
  bypasses : List CsrfBypass
  signed : CompiledSignedDoubleSubmit

def safeMethod (method : String) : Bool :=
  method == "GET" || method == "HEAD" || method == "OPTIONS"

def isBypassed (bypasses : List CsrfBypass) (request : Request) : Bool :=
  match request.uriPath with
  | none => false
  | some path => bypasses.any fun bypass => bypass.method == request.method && bypass.path == path

/-- `clock` is the time since the epoch, if the clock is past it. -/
def SignedPolicy.enforce (policy : SignedPolicy) (hmac : Hmac) (request : Request)
    (clock : Option UInt64) : Except CsrfRuntimeRejection Unit :=
  if safeMethod request.method || isBypassed policy.bypasses request then .ok ()
  else
    match clock with
    | none => .error .clockInvalid
    | some now => policy.signed.enforce hmac request now

/-! ## Tokens are read as they were written -/

omit [Base64Url.Engine] in
theorem parseU64_eq_some_iff {text : List Char} {n : UInt64} (hplus : text.head? ≠ some '+') :
    parseU64 text = some n ↔
      text ≠ [] ∧ text.all Char.isDigit = true ∧ Nat.ofDigitChars 10 text 0 = n.toNat := by
  have hbound := n.toNat_lt
  simp only [parseU64, if_neg hplus, Bool.or_eq_true, Bool.not_eq_true', List.isEmpty_iff]
  split_ifs with hnone hvalue
  · refine iff_of_false nofun fun ⟨hempty, hdigits, _⟩ => ?_
    simp [hempty, hdigits] at hnone
  · rw [not_or, Bool.not_eq_false] at hnone
    rw [Option.some.injEq, ← UInt64.toNat_inj, UInt64.toNat_ofNat', Nat.mod_eq_of_lt hvalue]
    simp [hnone]
  · exact iff_of_false nofun fun h => hvalue (h.2.2 ▸ hbound)

omit [Base64Url.Engine] in
theorem parseU64_toDigits (n : UInt64) : parseU64 (Nat.toDigits 10 n.toNat) = some n := by
  have hdigit : ∀ c ∈ Nat.toDigits 10 n.toNat, c.isDigit = true := fun c hc =>
    Nat.isDigit_of_mem_toDigits (by decide) (by decide) hc
  have hplus : (Nat.toDigits 10 n.toNat).head? ≠ some '+' := by
    intro hhead
    exact absurd (hdigit '+' (List.mem_of_mem_head? hhead)) (by decide)
  exact (parseU64_eq_some_iff hplus).mpr
    ⟨Nat.toDigits_ne_nil, List.all_eq_true.mpr hdigit, Nat.ofDigitChars_ten_toDigits⟩

theorem decodeFixed_encode {n : Nat} (bytes : Bytes n) :
    decodeFixed n (encode bytes.val) = some bytes := by
  simp only [decodeFixed, decode_encode, bytes.property, dite_true]
  rfl

omit [Base64Url.Engine] in
theorem utf8Size_of_isDigit {c : Char} (h : c.isDigit = true) : c.utf8Size = 1 := by
  have hbound : c.val ≤ 57 := by
    simp only [Char.isDigit, Bool.and_eq_true, decide_eq_true_eq] at h
    exact h.2
  have hascii : c.val ≤ 127 := UInt32.le_trans hbound (by decide)
  simp [Char.utf8Size, hascii]

variable (expires : UInt64) (nonce : Nonce) (mac : Mac)

def tokenParts : List (List Char) :=
  [csrfTokenVersion.toList, Nat.toDigits 10 expires.toNat, encode nonce.val,
    encode mac.val]

theorem mem_tokenParts {expires : UInt64} {nonce : Nonce} {mac : Mac} {part : List Char} {c : Char}
    (hpart : part ∈ tokenParts expires nonce mac) (hc : c ∈ part) : c ≠ '.' ∧ c.utf8Size = 1 := by
  simp only [tokenParts, List.mem_cons, List.not_mem_nil, or_false] at hpart
  rcases hpart with rfl | rfl | rfl | rfl
  · have hversion : csrfTokenVersion.toList.all (fun c => c != '.' && c.utf8Size == 1) = true := by
      decide
    simpa using List.all_eq_true.mp hversion c hc
  · have hdigit := Nat.isDigit_of_mem_toDigits (by decide) (by decide) hc
    refine ⟨?_, utf8Size_of_isDigit hdigit⟩
    rintro rfl
    exact absurd hdigit (by decide)
  · exact mem_encode hc
  · exact mem_encode hc

theorem utf8ByteSize_encodeToken :
    (encodeToken expires nonce mac).utf8ByteSize ≤ maxCsrfTokenBytes := by
  have htext : ['.'].intercalate (tokenParts expires nonce mac) =
      csrfTokenVersion.toList ++ '.' :: (Nat.toDigits 10 expires.toNat ++
        '.' :: (encode nonce.val ++ '.' :: encode mac.val)) := by
    simp [tokenParts, List.intercalate]
  have hascii : ∀ c ∈ ['.'].intercalate (tokenParts expires nonce mac), c.utf8Size = 1 := by
    intro c hc
    obtain rfl | ⟨part, hpart, hmem⟩ :
        c = '.' ∨ ∃ part ∈ tokenParts expires nonce mac, c ∈ part := by
      rw [htext] at hc
      simp only [tokenParts, List.mem_append, List.mem_cons] at hc ⊢
      grind
    · decide
    · exact (mem_tokenParts hpart hmem).2
  have hdigits : (Nat.toDigits 10 expires.toNat).length ≤ 20 :=
    (Nat.length_toDigits_le_iff (by decide) (by decide)).mpr
      (Nat.lt_of_lt_of_le expires.toNat_lt (by decide))
  have hnonce : (encode nonce.val).length = 43 := by
    rw [length_encode, nonce.property]
  have hmac : (encode mac.val).length = 43 := by
    rw [length_encode, mac.property]
  have hversion : csrfTokenVersion.toList.length = 2 := by decide
  have hsize : (encodeToken expires nonce mac).utf8ByteSize =
      (['.'].intercalate (tokenParts expires nonce mac)).length := by
    rw [encodeToken, String.utf8ByteSize_ofList]
    exact Utf8.utf8Len_eq_length hascii
  rw [hsize, htext]
  simp only [List.length_append, List.length_cons, hnonce, hmac, hversion, maxCsrfTokenBytes]
  omega

theorem parseToken_encodeToken :
    parseToken (encodeToken expires nonce mac) = .ok ⟨expires, nonce, mac⟩ := by
  have hparts : (encodeToken expires nonce mac).toList.splitOn '.' =
      tokenParts expires nonce mac := by
    rw [encodeToken, String.toList_ofList]
    exact List.splitOn_intercalate '.' (fun part hpart hdot => (mem_tokenParts hpart hdot).1 rfl)
      (List.cons_ne_nil _ _)
  have hshort : ¬maxCsrfTokenBytes < (encodeToken expires nonce mac).utf8ByteSize :=
    Nat.not_lt.mpr (utf8ByteSize_encodeToken expires nonce mac)
  have hparsed : parseParts (tokenParts expires nonce mac) = some ⟨expires, nonce, mac⟩ := by
    simp only [parseParts, tokenParts, if_true, parseU64_toDigits, decodeFixed_encode,
      Option.bind_eq_bind, Option.bind_some]
  rw [parseToken, if_neg hshort, hparts, hparsed]

/-! ## What is authenticated -/

omit [Base64Url.Engine] in
theorem macInput_inj {binding binding' : CsrfSessionId} {expires expires' : UInt64}
    {nonce nonce' : Nonce}
    (h : macInput binding expires nonce = macInput binding' expires' nonce') :
    binding = binding' ∧ expires = expires' ∧ nonce = nonce' := by
  have hlength : ∀ binding : CsrfSessionId, binding.bytes.length < 256 ^ 8 := fun binding =>
    Nat.lt_of_le_of_lt binding.bounded.2 (by decide)
  obtain ⟨hbinding, hrest⟩ :=
    Framing.frame_append_inj (hlength binding) (hlength binding') (List.append_cancel_left h)
  obtain ⟨hexpires, hnonce⟩ := List.append_inj hrest
    (by rw [Framing.length_bigEndian, Framing.length_bigEndian])
  have hexpires' : expires.toNat = expires'.toNat :=
    Framing.bigEndian_inj expires.toNat_lt expires'.toNat_lt hexpires
  exact ⟨CsrfSessionId.ext_bytes hbinding, UInt64.toNat_inj.mp hexpires', Subtype.ext hnonce⟩

/-! ## Acceptance -/

theorem parseToken_ok_size {token : String} {parsed : ParsedToken}
    (h : parseToken token = .ok parsed) : token.utf8ByteSize ≤ maxCsrfTokenBytes := by
  by_contra hlong
  rw [parseToken, if_pos (Nat.lt_of_not_le hlong)] at h
  nomatch h

namespace CompiledSignedDoubleSubmit

variable {signed : CompiledSignedDoubleSubmit} {hmac : Hmac} {request : Request} {now : UInt64}

/-- The request presents the token: as its cookie, and as the only token it carries. -/
structure Presents (signed : CompiledSignedDoubleSubmit) (request : Request)
    (binding : CsrfSessionId) (token : String) : Prop where
  session : signed.binding request = .ok (some binding)
  cookie : request.cookie signed.cookie.name = .ok (some token)
  only : carried request signed.tokenHeader signed.formField = some [token]

/-- The token is good for the session at the time. -/
def Good (signed : CompiledSignedDoubleSubmit) (hmac : Hmac) (binding : CsrfSessionId)
    (now : UInt64) (token : String) : Prop :=
  ∃ parsed, parseToken token = .ok parsed ∧ now < parsed.expires ∧
    ∃ key ∈ signed.keys, parsed.mac = hmac key.bytes (macInput binding parsed.expires parsed.nonce)

omit [Base64Url.Engine] in
theorem requestCookie_ok {cookie : String} :
    signed.requestCookie request = .ok cookie ↔
      request.cookie signed.cookie.name = .ok (some cookie) ∧
        cookie.utf8ByteSize ≤ maxCsrfTokenBytes := by
  fun_cases signed.requestCookie request
  all_goals grind

omit [Base64Url.Engine] in
theorem verify_iff {binding : CsrfSessionId} {parsed : ParsedToken} :
    signed.verify hmac binding parsed = true ↔
      ∃ key ∈ signed.keys,
        parsed.mac = hmac key.bytes (macInput binding parsed.expires parsed.nonce) := by
  rw [verify, List.any_eq_true]
  refine exists_congr fun key => and_congr_right fun _ => ?_
  rw [decide_eq_true_eq, eq_comm]
  rfl

theorem enforce_ok :
    signed.enforce hmac request now = .ok () ↔
      ∃ binding token, signed.Presents request binding token ∧
        signed.Good hmac binding now token := by
  simp only [enforce, Validation.bind_ok_iff, runtimeBinding_ok, requestCookie_ok,
    extractRequestToken_ok]
  constructor
  · rintro ⟨binding, hsession, cookie, ⟨hcookie, -⟩, token, ⟨honly, -⟩, h⟩
    split_ifs at h with hsame
    obtain ⟨parsed, hparsed, h⟩ := Validation.bind_ok_iff.mp h
    split_ifs at h with hexpires hvalid
    obtain rfl : cookie = token := not_not.mp hsame
    exact ⟨binding, cookie, ⟨hsession, hcookie, honly⟩, parsed, hparsed,
      UInt64.not_le.mp hexpires, verify_iff.mp hvalid⟩
  · rintro ⟨binding, token, hpresents, parsed, hparsed, hexpires, hvalid⟩
    have hsize := parseToken_ok_size hparsed
    refine ⟨binding, hpresents.session, token, ⟨hpresents.cookie, hsize⟩, token,
      ⟨hpresents.only, hsize⟩, ?_⟩
    rw [if_neg (not_not.mpr rfl), hparsed]
    exact (if_neg (UInt64.not_le.mpr hexpires)).trans (if_pos (verify_iff.mpr hvalid))

theorem issue_ok {random : Option Nonce} {token cookie : String}
    (h : signed.issue hmac request now random = .ok (token, cookie)) :
    ∃ binding expires nonce, signed.binding request = .ok (some binding) ∧
      expires.toNat = now.toNat + signed.ttl ∧
      token = encodeToken expires nonce
        (hmac signed.primaryKey.bytes (macInput binding expires nonce)) := by
  simp only [issue, Validation.bind_ok_iff, operationBinding_ok] at h
  obtain ⟨binding, hbinding, h⟩ := h
  split_ifs at h with hfits
  · obtain ⟨_, ⟨⟩, h⟩ := Validation.bind_ok_iff.mp h
    obtain ⟨nonce, -, h⟩ := Validation.bind_ok_iff.mp h
    obtain ⟨_, -, h⟩ := Validation.bind_ok_iff.mp h
    exact ⟨binding, _, nonce, hbinding, UInt64.toNat_ofNat_of_lt hfits,
      (congrArg Prod.fst (Except.ok.inj h)).symm⟩
  · nomatch h

end CompiledSignedDoubleSubmit

theorem SignedPolicy.enforce_checked {policy : SignedPolicy} {hmac : Hmac} {request : Request}
    {clock : Option UInt64} (hmethod : safeMethod request.method = false)
    (hbypass : isBypassed policy.bypasses request = false) :
    policy.enforce hmac request clock = .ok () ↔
      ∃ now, clock = some now ∧ policy.signed.enforce hmac request now = .ok () := by
  cases clock with
  | none | some now => simp [SignedPolicy.enforce, hmethod, hbypass]

/-- Which requests a signed double-submit policy accepts, what the code of a token depends on, and
for whom a token is good that was issued. -/
theorem signed_tokens_bound (hmac : Hmac) :
    (∀ (policy : SignedPolicy) (request : Request) (clock : Option UInt64),
      safeMethod request.method = false → isBypassed policy.bypasses request = false →
      (policy.enforce hmac request clock = .ok () ↔
        ∃ now binding token, clock = some now ∧ policy.signed.Presents request binding token ∧
          policy.signed.Good hmac binding now token)) ∧
    (∀ binding binding' expires expires' nonce nonce',
      macInput binding expires nonce = macInput binding' expires' nonce' →
        binding = binding' ∧ expires = expires' ∧ nonce = nonce') ∧
    ∀ (issuer : SignedPolicy) (issued : Request) (now : UInt64) (random : Option Nonce)
      (token cookie : String), issuer.signed.issue hmac issued now random = .ok (token, cookie) →
      ∃ binding expires nonce, issuer.signed.binding issued = .ok (some binding) ∧
        expires.toNat = now.toNat + issuer.signed.ttl ∧
        (∀ (policy : SignedPolicy) (request : Request) (clock : Option UInt64)
          (other : CsrfSessionId), safeMethod request.method = false →
          isBypassed policy.bypasses request = false →
          policy.signed.Presents request other token → other ≠ binding →
          policy.enforce hmac request clock = .ok () →
          ∃ key ∈ policy.signed.keys,
            macInput other expires nonce ≠ macInput binding expires nonce ∧
              hmac key.bytes (macInput other expires nonce) =
                hmac issuer.signed.primaryKey.bytes (macInput binding expires nonce)) ∧
        ∀ (policy : SignedPolicy) (request : Request) (later : UInt64),
          issuer.signed.primaryKey ∈ policy.signed.keys →
          policy.signed.Presents request binding token → later < expires →
          policy.enforce hmac request (some later) = .ok () := by
  refine ⟨fun policy request clock hmethod hbypass => ?_, fun _ _ _ _ _ _ => macInput_inj,
    fun issuer issued now random token cookie hissue => ?_⟩
  · rw [SignedPolicy.enforce_checked hmethod hbypass]
    constructor
    · rintro ⟨now, hclock, haccepted⟩
      obtain ⟨binding, token, hpresents, hgood⟩ :=
        CompiledSignedDoubleSubmit.enforce_ok.mp haccepted
      exact ⟨now, binding, token, hclock, hpresents, hgood⟩
    · rintro ⟨now, binding, token, hclock, hpresents, hgood⟩
      exact ⟨now, hclock,
        CompiledSignedDoubleSubmit.enforce_ok.mpr ⟨binding, token, hpresents, hgood⟩⟩
  · obtain ⟨binding, expires, nonce, hbinding, hexpires, rfl⟩ :=
      CompiledSignedDoubleSubmit.issue_ok hissue
    refine ⟨binding, expires, nonce, hbinding, hexpires, ?_, ?_⟩
    · intro policy request clock other hmethod hbypass hpresents hother haccepted
      obtain ⟨now', -, hchecked⟩ := (SignedPolicy.enforce_checked hmethod hbypass).mp haccepted
      obtain ⟨binding', token, hpresents', parsed, hparsed, -, key, hkey, hmac'⟩ :=
        CompiledSignedDoubleSubmit.enforce_ok.mp hchecked
      -- the request has one session and one cookie
      have hsession : binding' = other := by
        simpa using hpresents'.session.symm.trans hpresents.session
      have htoken := hpresents'.cookie.symm.trans hpresents.cookie
      simp only [Except.ok.injEq, Option.some.injEq] at htoken
      rw [htoken, parseToken_encodeToken] at hparsed
      obtain rfl := Except.ok.inj hparsed
      rw [hsession] at hmac'
      exact ⟨key, hkey, fun hsame => hother (macInput_inj hsame).1, hmac'.symm⟩
    · intro policy request later hkey hpresents hlater
      have haccepted : policy.signed.enforce hmac request later = .ok () :=
        CompiledSignedDoubleSubmit.enforce_ok.mpr ⟨binding, _, hpresents, _,
          parseToken_encodeToken _ _ _, hlater, issuer.signed.primaryKey, hkey, rfl⟩
      rw [SignedPolicy.enforce]
      split
      · rfl
      · exact haccepted

end Engine

/-! ## A form that cannot be read -/

open scoped Base64Url.Rfc4648

def zeroBytes (n : Nat) : Bytes n := ⟨List.replicate n 0, List.length_replicate⟩

/-- The session of every request is the same, and so is every code. -/
def samplePolicy : SignedPolicy where
  bypasses := [⟨"POST", "/hook"⟩]
  signed :=
    { primaryKey := ⟨List.replicate 32 0, by decide⟩
      previousKeys := []
      binding := fun _ => .ok (some ⟨[1], by decide⟩)
      cookie := ⟨"__Host-lily-csrf", fun value _ => some value⟩
      tokenHeader := "x-csrf-token"
      formField := some "csrf"
      ttl := 3600 }

def sampleToken : String := encodeToken 10 (zeroBytes 32) (zeroBytes 32)

/-- A form whose body is not URL-encoded, with the token in a header. -/
def unreadableForm : Request where
  method := "POST"
  uriPath := some "/transfer"
  headers := [⟨"X-CSRF-Token", sampleToken⟩]
  isForm := true
  form := none
  cookie := fun _ => .ok (some sampleToken)

/-- The only token of the request stands in its header and is good, and the request is rejected for
its form. A request to an exempt route is accepted with no token at all. -/
theorem good_token_with_unreadable_form :
    headerValues unreadableForm "x-csrf-token" = [sampleToken] ∧
      samplePolicy.signed.Good (fun _ _ => zeroBytes 32) ⟨[1], by decide⟩ 5 sampleToken ∧
      samplePolicy.enforce (fun _ _ => zeroBytes 32) unreadableForm (some 5) =
        .error .formInvalid ∧
      samplePolicy.enforce (fun _ _ => zeroBytes 32)
        { unreadableForm with uriPath := some "/hook", headers := [] } (some 5) = .ok () := by
  refine ⟨by decide, ?_, by decide, by decide⟩
  exact ⟨_, parseToken_encodeToken _ _ _, by decide, _, List.mem_cons_self, rfl⟩

end Lily.Csrf
