import Lily.Csrf.SignedDoubleSubmit
import Lily.Transition.Interleaving

/-!
# Synchronizer tokens

The token of a session is a random text that a store keeps under a key derived from the session.
Calls to issue, rotate, clear and check tokens run at the same time. Each makes one call of the
store, which takes effect in one move of its own or not at all, and which may fail either way.
-/

namespace Lily.Csrf

open Transition (Turn Machine World)

variable [Base64Url.Engine]

/-! ## Records -/

def validSynchronizerToken (token : String) : Bool :=
  if token == "" || decide (maxCsrfTokenBytes < token.utf8ByteSize) then false
  else
    match Base64Url.Engine.decode token.toList with
    | none => false
    | some decoded => decoded.length == 32 && Base64Url.Engine.encode decoded == token.toList

structure StoredCsrfToken where
  token : String
  expires : UInt64
  valid : expires ≠ 0 ∧ validSynchronizerToken token = true
  deriving DecidableEq

def StoredCsrfToken.fromParts (token : String) (expires : UInt64) : Option StoredCsrfToken :=
  if h : expires ≠ 0 ∧ validSynchronizerToken token = true then some ⟨token, expires, h⟩ else none

inductive CsrfTokenStoreError where
  | unavailable
  | timeout
  | capacity
  | corruptData
  | internal

/-- `store_call`: how an operation reports a failure of the store. -/
def operationStoreError : CsrfTokenStoreError → CsrfOperationError
  | .timeout => .storeTimeout
  | .corruptData => .storeInvalid
  | .unavailable | .capacity | .internal => .storeUnavailable

/-- `runtime_store_call`: how a check reports a failure of the store. -/
def runtimeStoreError : CsrfTokenStoreError → CsrfRuntimeRejection
  | .timeout => .storeTimeout
  | .corruptData => .storeInvalid
  | .unavailable | .capacity | .internal => .storeUnavailable

abbrev CsrfStoreKey := Bytes 32

def csrfStoreKeyDomain : List UInt8 :=
  "lily.csrf.synchronizer.store-key.v1\x00".toList.map fun c => UInt8.ofNat c.toNat

def deriveStoreKey (hmac : Hmac) (secret : CsrfSecret) (binding : CsrfSessionId) : CsrfStoreKey :=
  hmac secret.bytes (csrfStoreKeyDomain ++ Framing.frame 8 binding.bytes)

/-! ## Calls -/

structure CompiledSynchronizer where
  keyDerivationSecret : CsrfSecret
  binding : CsrfSessionBinding
  tokenHeader : String
  formField : Option String
  /-- In seconds. -/
  ttl : Nat

inductive Operation where
  | issue
  | rotate
  | clear
  | enforce

/-- A call: what is asked for, and for which request. -/
structure Order where
  operation : Operation
  request : Request

inductive Outcome where
  /-- The token that an issue or a rotation returns. -/
  | issued (token : String)
  | cleared
  | accepted
  | failed (error : CsrfOperationError)
  | rejected (rejection : CsrfRuntimeRejection)
  deriving DecidableEq

/-- The call of the store that is under way, with what its caller still needs. -/
inductive Pending where
  | loadOrInsert (candidate : StoredCsrfToken) (now : UInt64)
  | replace (replacement : StoredCsrfToken)
  | revoke
  | load (requestToken : String) (now : UInt64)

namespace CompiledSynchronizer

variable (synchronizer : CompiledSynchronizer)

variable (request : Request) (clock : Option UInt64) (random : Option Nonce)

/-- The session of a request, if it has one that can be read. -/
def session : Option CsrfSessionId :=
  match synchronizer.binding request with
  | .error _ => none
  | .ok found => found

def candidate (now : UInt64) (random : Option Nonce) :
    Except CsrfOperationError StoredCsrfToken := do
  let expires ←
    if now.toNat + synchronizer.ttl < 2 ^ 64 then .ok (UInt64.ofNat (now.toNat + synchronizer.ttl))
    else .error .clockInvalid
  let nonce ← random.elim (.error .randomUnavailable) .ok
  (StoredCsrfToken.fromParts (String.ofList (Base64Url.Engine.encode nonce.val)) expires).elim
    (.error .storeInvalid) .ok

/-- The part of `issue` before the store is called. -/
def prepareIssue :
    Except CsrfOperationError Pending := do
  let now ← clock.elim (.error .clockInvalid) .ok
  let _ ← operationBinding synchronizer.binding request
  let candidate ← synchronizer.candidate now random
  pure (.loadOrInsert candidate now)

def prepareRotate :
    Except CsrfOperationError Pending := do
  let now ← clock.elim (.error .clockInvalid) .ok
  let _ ← operationBinding synchronizer.binding request
  let replacement ← synchronizer.candidate now random
  pure (.replace replacement)

def prepareClear : Except CsrfOperationError Pending := do
  let _ ← operationBinding synchronizer.binding request
  pure .revoke

def prepareEnforce :
    Except CsrfRuntimeRejection Pending := do
  let now ← clock.elim (.error .clockInvalid) .ok
  let _ ← runtimeBinding synchronizer.binding request
  let requestToken ←
    extractRequestToken request synchronizer.tokenHeader synchronizer.formField
  if validSynchronizerToken requestToken then pure (.load requestToken now)
  else .error .tokenMalformed

/-- What a call does before it calls the store. -/
def prepare (order : Order) (clock : Option UInt64) (random : Option Nonce) :
    Except Outcome Pending :=
  match order.operation with
  | .issue => (synchronizer.prepareIssue order.request clock random).mapError .failed
  | .rotate => (synchronizer.prepareRotate order.request clock random).mapError .failed
  | .clear => (synchronizer.prepareClear order.request).mapError .failed
  | .enforce => (synchronizer.prepareEnforce order.request clock).mapError .rejected

end CompiledSynchronizer

namespace Pending

variable (now : UInt64) (current : Option StoredCsrfToken)

/-- `load_or_insert` keeps a record that is still alive. -/
def live : Option StoredCsrfToken :=
  current.filter fun record => decide (now < record.expires)

/-- The record under the key after the call of the store. -/
def stored : Pending → Option StoredCsrfToken
  | .loadOrInsert candidate now => some ((live now current).getD candidate)
  | .replace replacement => some replacement
  | .revoke => none
  | .load _ _ => current

def answer : Pending → Option StoredCsrfToken
  | .loadOrInsert candidate now => some ((live now current).getD candidate)
  | .replace _ => none
  | .revoke => none
  | .load _ _ => current

/-- What a call returns when the store has answered. -/
def conclude (found : Option StoredCsrfToken) : Pending → Outcome
  | .loadOrInsert _ now =>
    match found with
    | none => .failed .storeInvalid
    | some record =>
      if record.expires ≤ now then .failed .storeInvalid else .issued record.token
  | .replace replacement => .issued replacement.token
  | .revoke => .cleared
  | .load requestToken now =>
    match found with
    | none => .rejected .tokenMissing
    | some record =>
      if record.expires ≤ now then .rejected .tokenExpired
      else if record.token = requestToken then .accepted
      else .rejected .tokenMismatch

def fail (error : CsrfTokenStoreError) : Pending → Outcome
  | .load _ _ => .rejected (runtimeStoreError error)
  | .loadOrInsert _ _ | .replace _ | .revoke => .failed (operationStoreError error)

end Pending

/-! ## Moves -/

inductive Stage where
  | idle
  | calling (pending : Pending)
  | answered (pending : Pending) (found : Option StoredCsrfToken)
  | returned

/-- How a call goes on. -/
inductive Event where
  | begin (clock : Option UInt64) (random : Option Nonce)
  /-- The call of the store takes effect. -/
  | perform
  /-- The call of the store fails or is given up, whether it has taken effect or not. -/
  | fail (error : CsrfTokenStoreError)
  | finish

inductive Action where
  | began (clock : Option UInt64)
  /-- The store keeps another record than before, or none. -/
  | wrote (record : StoredCsrfToken)
  | removed
  | read (found : Option StoredCsrfToken)
  | returned (outcome : Outcome)
  deriving DecidableEq

abbrev Store := CsrfStoreKey → Option StoredCsrfToken

/-- What the store does for a call, as the log has it. -/
def Pending.action (current : Option StoredCsrfToken) : Pending → Action
  | .loadOrInsert candidate now =>
    match Pending.live now current with
    | some record => .read (some record)
    | none => .wrote candidate
  | .replace replacement => .wrote replacement
  | .revoke => .removed
  | .load _ _ => .read current

section Machine

variable {ι : Type} (hmac : Hmac) (synchronizer : CompiledSynchronizer) (orders : ι → Order)

def keyOf (i : ι) : Option CsrfStoreKey :=
  (synchronizer.session (orders i).request).map
    (deriveStoreKey hmac synchronizer.keyDerivationSecret)

def performed (key : CsrfStoreKey) (store : Store) (pending : Pending) :
    Turn Store Stage Action where
  shared := Function.update store key (pending.stored (store key))
  own := .answered pending (pending.answer (store key))
  emitted := [pending.action (store key)]

def callTurn (i : ι) (event : Event) (store : Store) (stage : Stage) : Turn Store Stage Action :=
  match stage, event with
  | .idle, .begin clock random =>
    match synchronizer.prepare (orders i) clock random with
    | .error outcome => ⟨store, .returned, [.began clock, .returned outcome]⟩
    | .ok pending => ⟨store, .calling pending, [.began clock]⟩
  | .calling pending, .perform =>
    match keyOf hmac synchronizer orders i with
    | none => ⟨store, stage, []⟩
    | some key => performed key store pending
  | .calling pending, .fail error => ⟨store, .returned, [.returned (pending.fail error)]⟩
  | .answered pending _, .fail error => ⟨store, .returned, [.returned (pending.fail error)]⟩
  | .answered pending found, .finish => ⟨store, .returned, [.returned (pending.conclude found)]⟩
  | _, _ => ⟨store, stage, []⟩

def synchronizerMachine : Machine ι Store Stage Event Action where
  act := callTurn hmac synchronizer orders

/-- No call has begun, and the store is empty. -/
def synchronizerStart : World ι Store Stage Action := ⟨fun _ => none, fun _ => .idle, []⟩

end Machine

end Lily.Csrf
