import Lily.Control.Validation
import Lily.Http.Forwarding

/-!
# The token of a request

What both kinds of tokens against cross-site request forgery share: the keys, the identity of a
session, and the one place of a request where its token may stand.
-/

namespace Lily.Csrf

open Http.Forwarding (lower)

/-! ## Keys and sessions -/

structure CsrfSecret where
  bytes : List UInt8
  bounded : 32 ≤ bytes.length ∧ bytes.length ≤ 128

/-- An application's session, as far as the tokens are bound to it. -/
structure CsrfSessionId where
  bytes : List UInt8
  bounded : 1 ≤ bytes.length ∧ bytes.length ≤ 4096
  deriving DecidableEq

theorem CsrfSessionId.ext_bytes {left right : CsrfSessionId} (h : left.bytes = right.bytes) :
    left = right := by
  obtain ⟨bytes, hbounded⟩ := left
  subst h
  rfl

inductive CsrfBindingError where
  | empty
  | tooLong
  | malformed
  | ambiguous

inductive CsrfRuntimeRejection where
  | bindingMissing
  | bindingInvalid
  | cookieMissing
  | cookieInvalid
  | tokenMissing
  | tokenAmbiguous
  | tokenMalformed
  | tokenExpired
  | tokenMismatch
  | signatureInvalid
  | formInvalid
  | clockInvalid
  | storeUnavailable
  | storeTimeout
  | storeInvalid
  deriving DecidableEq

inductive CsrfOperationError where
  | bindingMissing
  | bindingInvalid
  | clockInvalid
  | randomUnavailable
  | cookieInvalid
  | storeUnavailable
  | storeTimeout
  | storeInvalid
  deriving DecidableEq

/-! ## Requests -/

structure RawHeader where
  name : String
  value : String

/-- A request, by what the checks read of it. -/
structure Request where
  method : String
  /-- The path of the target, if the target is a URI. -/
  uriPath : Option String
  headers : List RawHeader
  isForm : Bool
  /-- The fields of the body, if it is a URL-encoded form of at most 64 KiB. -/
  form : Option (List (String × String))
  cookie : String → Except Unit (Option String)

/-- How an application finds the session of a request. -/
abbrev CsrfSessionBinding := Request → Except CsrfBindingError (Option CsrfSessionId)

variable (binding : CsrfSessionBinding) (request : Request)

def operationBinding : Except CsrfOperationError CsrfSessionId :=
  match binding request with
  | .error _ => .error .bindingInvalid
  | .ok none => .error .bindingMissing
  | .ok (some session) => .ok session

def runtimeBinding : Except CsrfRuntimeRejection CsrfSessionId :=
  match binding request with
  | .error _ => .error .bindingInvalid
  | .ok none => .error .bindingMissing
  | .ok (some session) => .ok session

variable {request : Request}

variable {binding : CsrfSessionBinding} {session : CsrfSessionId}

theorem operationBinding_ok :
    operationBinding binding request = .ok session ↔ binding request = .ok (some session) := by
  unfold operationBinding
  split
  next hbinding => simp [hbinding]
  next hbinding => simp [hbinding]
  next hbinding => simp [hbinding]

theorem runtimeBinding_ok :
    runtimeBinding binding request = .ok session ↔ binding request = .ok (some session) := by
  unfold runtimeBinding
  split
  next hbinding => simp [hbinding]
  next hbinding => simp [hbinding]
  next hbinding => simp [hbinding]

def maxCsrfTokenBytes : Nat := 512

def exactlyOne : List String → Except CsrfRuntimeRejection (Option String)
  | [] => .ok none
  | [value] => .ok (some value)
  | _ => .error .tokenAmbiguous

def headerValues (request : Request) (name : String) : List String :=
  (request.headers.filter fun header => lower header.name == lower name).map RawHeader.value

def exactHeader (request : Request) (name : String) : Except CsrfRuntimeRejection (Option String) :=
  exactlyOne (headerValues request name)

def fieldValues (fields : List (String × String)) (name : String) : List String :=
  (fields.filter fun field => field.1 == name).map Prod.snd

def extractFormToken (request : Request) (fieldName : String) :
    Except CsrfRuntimeRejection (Option String) :=
  if !request.isForm then .ok none
  else
    match request.form with
    | none => .error .formInvalid
    | some fields => exactlyOne (fieldValues fields fieldName)

def extractConfiguredForm (request : Request) :
    Option String → Except CsrfRuntimeRejection (Option String)
  | none => .ok none
  | some fieldName => extractFormToken request fieldName

def eitherToken : Option String → Option String → Except CsrfRuntimeRejection String
  | some _, some _ => .error .tokenAmbiguous
  | some token, none => .ok token
  | none, some token => .ok token
  | none, none => .error .tokenMissing

def extractRequestToken (request : Request) (tokenHeader : String) (formField : Option String) :
    Except CsrfRuntimeRejection String := do
  let headerToken ← exactHeader request tokenHeader
  let formToken ← extractConfiguredForm request formField
  let token ← eitherToken headerToken formToken
  if maxCsrfTokenBytes < token.utf8ByteSize then .error .tokenMalformed
  else pure token

/-! ## What a request carries -/

/-- The tokens in the form of a request, unless there is a form to look at that cannot be read. -/
def formValues (request : Request) : Option String → Option (List String)
  | none => some []
  | some fieldName =>
    if request.isForm then request.form.map fun fields => fieldValues fields fieldName
    else some []

/-- The tokens of a request, in its headers and in its form. -/
def carried (request : Request) (tokenHeader : String) (formField : Option String) :
    Option (List String) :=
  (formValues request formField).map fun values => headerValues request tokenHeader ++ values

theorem exactlyOne_ok {values : List String} {value : Option String} :
    exactlyOne values = .ok value ↔ values = value.toList := by
  cases values with
  | nil => cases value <;> simp [exactlyOne]
  | cons first rest =>
    cases rest with
    | nil => cases value <;> simp [exactlyOne]
    | cons second rest => cases value <;> simp [exactlyOne]

theorem extractConfiguredForm_ok {formField value : Option String} :
    extractConfiguredForm request formField = .ok value ↔
      formValues request formField = some value.toList := by
  cases formField with
  | none => cases value <;> simp [extractConfiguredForm, formValues]
  | some fieldName =>
    cases hform : request.isForm with
    | false => cases value <;> simp [extractConfiguredForm, extractFormToken, formValues, hform]
    | true =>
      cases hfields : request.form with
      | none => simp [extractConfiguredForm, extractFormToken, formValues, hform, hfields]
      | some fields =>
        simp [extractConfiguredForm, extractFormToken, formValues, hform, hfields,
          exactlyOne_ok]

theorem eitherToken_ok {header form : Option String} {token : String} :
    eitherToken header form = .ok token ↔ header.toList ++ form.toList = [token] := by
  cases header <;> cases form <;> simp [eitherToken]

theorem extractRequestToken_ok {tokenHeader token : String} {formField : Option String} :
    extractRequestToken request tokenHeader formField = .ok token ↔
      carried request tokenHeader formField = some [token] ∧
        token.utf8ByteSize ≤ maxCsrfTokenBytes := by
  simp only [extractRequestToken, Validation.bind_ok_iff, exactHeader, exactlyOne_ok,
    extractConfiguredForm_ok, eitherToken_ok]
  constructor
  · rintro ⟨header, hheader, form, hform, chosen, hchosen, h⟩
    split_ifs at h with hlength
    obtain rfl : chosen = token := Except.ok.inj h
    refine ⟨?_, Nat.le_of_not_lt hlength⟩
    rw [carried, hform, hheader]
    exact congrArg some hchosen
  · rintro ⟨hcarried, hlength⟩
    obtain ⟨values, hvalues, happend⟩ := Option.map_eq_some_iff.mp hcarried
    have hshort : ¬maxCsrfTokenBytes < token.utf8ByteSize := Nat.not_lt.mpr hlength
    rcases List.append_eq_singleton_iff.mp happend with ⟨hheader, rfl⟩ | ⟨hheader, rfl⟩
    · exact ⟨none, hheader, some token, hvalues, token, rfl, if_neg hshort⟩
    · exact ⟨some token, hheader, none, hvalues, token, rfl, if_neg hshort⟩

end Lily.Csrf
