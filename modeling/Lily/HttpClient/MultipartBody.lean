import Lily.Control.Validation
import Lily.Text.Utf8

/-!
# The multipart body of the HTTP client

The length of the encoding is computed when a field is added, with checked additions, and the bytes
only when the body is sent. Allocations are taken to succeed.
-/

namespace Lily.HttpClient.MultipartBody

open Utf8
open Validation (bind_ok_iff)

inductive MultipartMetadataField where
  | name | filename | contentType

inductive MultipartBuildError where
  | invalidBoundary
  | emptyFieldName
  | metadataTooLong (field : MultipartMetadataField) (limitBytes : Nat)
  | controlCharacter (field : MultipartMetadataField)
  | invalidContentType
  | lengthOverflow

inductive MultipartValue where
  | text (value : List Char)
  | binary (data : List UInt8)

def MultipartValue.bytes : MultipartValue → List UInt8
  | .text value => Utf8.bytes value
  | .binary data => data

structure MultipartField where
  name : List Char
  value : MultipartValue
  contentType : Option (List Char) := none
  filename : Option (List Char) := none

structure Body where
  fields : List MultipartField := []
  boundary : List Char
  encodedLen : Nat

def maxBoundaryBytes : Nat := 70
def maxFieldNameBytes : Nat := 256
def maxFilenameBytes : Nat := 1024
def maxContentTypeBytes : Nat := 256

def dispositionPrefix : List UInt8 := bytes "Content-Disposition: form-data; name=\"".toList
def filenameSeparator : List UInt8 := bytes "\"; filename=\"".toList
def contentTypePrefix : List UInt8 := bytes "Content-Type: ".toList
def dashes : List UInt8 := [45, 45]
def crlf : List UInt8 := [13, 10]

/-! ## Checks -/

def isAsciiAlphanumeric (b : UInt8) : Bool :=
  (48 ≤ b && b ≤ 57) || (65 ≤ b && b ≤ 90) || (97 ≤ b && b ≤ 122)

def boundaryMarks : List UInt8 := bytes "'()+_,-./:=? ".toList

def isBoundaryByte (b : UInt8) : Bool := isAsciiAlphanumeric b || boundaryMarks.contains b

variable (boundary : List Char)

def validateBoundary : Except MultipartBuildError Unit :=
  let encoded := bytes boundary
  if encoded.isEmpty || maxBoundaryBytes < encoded.length || !encoded.all isBoundaryByte ||
      encoded.getLast? == some 32 then .error .invalidBoundary
  else .ok ()

/-- The control characters of Unicode. -/
def isControl (c : Char) : Bool := c.toNat < 32 || (127 ≤ c.toNat && c.toNat < 160)

def validateMetadata (value : List Char) (field : MultipartMetadataField) (limitBytes : Nat)
    (allowEmpty : Bool) : Except MultipartBuildError Unit :=
  if !allowEmpty && value.isEmpty then .error .emptyFieldName
  else if limitBytes < (bytes value).length then .error (.metadataTooLong field limitBytes)
  else if value.any isControl then .error (.controlCharacter field)
  else .ok ()

/-! ## Lengths -/

def checkedAdd (total amount : Nat) : Except MultipartBuildError Nat :=
  if total + amount < 2 ^ 64 then .ok (total + amount) else .error .lengthOverflow

/-- A quote or a backslash. -/
def isEscaped (b : UInt8) : Bool := b == 34 || b == 92

def escapedLen (value : List Char) : Except MultipartBuildError Nat :=
  (bytes value).foldlM (fun length b => checkedAdd length (if isEscaped b then 2 else 1)) 0

def filenameLen (length : Nat) : Option (List Char) → Except MultipartBuildError Nat
  | some filename => do
    let length ← checkedAdd length filenameSeparator.length
    checkedAdd length (← escapedLen filename)
  | none => .ok length

def contentTypeLen (length : Nat) : Option (List Char) → Except MultipartBuildError Nat
  | some contentType => do
    let length ← checkedAdd length contentTypePrefix.length
    let length ← checkedAdd length (bytes contentType).length
    checkedAdd length 2
  | none => .ok length

def encodedFieldLen (field : MultipartField) :
    Except MultipartBuildError Nat := do
  let length ← checkedAdd 0 2
  let length ← checkedAdd length (bytes boundary).length
  let length ← checkedAdd length 2
  let length ← checkedAdd length dispositionPrefix.length
  let length ← checkedAdd length (← escapedLen field.name)
  let length ← filenameLen length field.filename
  let length ← checkedAdd length 3
  let length ← contentTypeLen length field.contentType
  let length ← checkedAdd length 2
  let length ← checkedAdd length field.value.bytes.length
  checkedAdd length 2

/-! ## The body -/

def fromValidBoundary : Body :=
  { boundary, encodedLen := (bytes boundary).length + 6 }

/-- The lower-case hexadecimal numeral. -/
def hex (n : Nat) : List Char := Nat.toDigits 16 n

def boundaryStart : List Char := "----formdata-lily-".toList

def generatedBoundary (timestamp counter : Nat) : List Char :=
  boundaryStart ++ hex timestamp ++ '-' :: hex counter

/-- The clock gives nanoseconds in 128 bits. -/
def new (timestamp : BitVec 128) (counter : UInt64) : Body :=
  fromValidBoundary (generatedBoundary timestamp.toNat counter.toNat)

def withBoundary : Except MultipartBuildError Body := do
  validateBoundary boundary
  return fromValidBoundary boundary

namespace Body

def pushField (field : MultipartField) (body : Body) : Except MultipartBuildError Body := do
  let length ← encodedFieldLen body.boundary field
  let next ← checkedAdd body.encodedLen length
  return { body with fields := body.fields ++ [field], encodedLen := next }

def textField (name value : List Char) (body : Body) : Except MultipartBuildError Body := do
  validateMetadata name .name maxFieldNameBytes false
  body.pushField { name, value := .text value }

/-- Which content types parse is up to the MIME parser. -/
def fileField (isMime : List Char → Bool) (name filename contentType : List Char)
    (data : List UInt8) (body : Body) : Except MultipartBuildError Body := do
  validateMetadata name .name maxFieldNameBytes false
  validateMetadata filename .filename maxFilenameBytes true
  validateMetadata contentType .contentType maxContentTypeBytes false
  if isMime contentType then
    body.pushField { name, value := .binary data, contentType, filename }
  else .error .invalidContentType

end Body

inductive Call where
  | textField (name value : List Char)
  | fileField (name filename contentType : List Char) (data : List UInt8)

variable (isMime : List Char → Bool) (body : Body) (calls : List Call)

def Call.apply : Call → Except MultipartBuildError Body
  | .textField name value => body.textField name value
  | .fileField name filename contentType data =>
    body.fileField isMime name filename contentType data

/-- The calls one after the other, up to the first that fails. -/
def build : Except MultipartBuildError Body :=
  calls.foldlM (Call.apply isMime) body

/-- `append_quoted`. -/
def quoted (value : List Char) : List UInt8 :=
  (bytes value).flatMap fun b => if isEscaped b then [92, b] else [b]

def filenamePart : Option (List Char) → List UInt8
  | some filename => filenameSeparator ++ quoted filename
  | none => []

def contentTypeLine : Option (List Char) → List UInt8
  | some contentType => contentTypePrefix ++ bytes contentType ++ crlf
  | none => []

/-- The headers of a field, each with its line end. -/
def headers (field : MultipartField) : List UInt8 :=
  dispositionPrefix ++ quoted field.name ++ filenamePart field.filename ++ (34 :: crlf) ++
    contentTypeLine field.contentType

/-- A field with the boundary line before it. -/
def encodeField (boundary : List Char) (field : MultipartField) : List UInt8 :=
  dashes ++ bytes boundary ++ crlf ++ headers field ++ crlf ++ field.value.bytes ++ crlf

def Body.toMultipartBytes : List UInt8 :=
  body.fields.flatMap (encodeField body.boundary) ++ dashes ++ bytes body.boundary ++ dashes ++ crlf

/-! ## The length of the encoding -/

variable {result : Nat}

theorem checkedAdd_ok {total amount : Nat} (h : checkedAdd total amount = .ok result) :
    result = total + amount := by
  unfold checkedAdd at h
  split at h <;> simp_all

theorem foldlM_escaped {encoded : List UInt8} {start : Nat}
    (h : encoded.foldlM (fun length b => checkedAdd length (if isEscaped b then 2 else 1)) start =
      .ok result) :
    result = start + (encoded.flatMap fun b => if isEscaped b then [92, b] else [b]).length := by
  induction encoded generalizing start with
  | nil =>
    rw [List.foldlM_nil] at h
    cases h
    simp
  | cons b rest ih =>
    rw [List.foldlM_cons] at h
    obtain ⟨next, hnext, hrest⟩ := bind_ok_iff.mp h
    rw [ih hrest, checkedAdd_ok hnext, List.flatMap_cons, List.length_append]
    split <;> simp <;> omega

theorem escapedLen_ok {value : List Char} (h : escapedLen value = .ok result) :
    result = (quoted value).length := by
  simpa [quoted] using foldlM_escaped h

theorem filenameLen_ok {length : Nat} {filename : Option (List Char)}
    (h : filenameLen length filename = .ok result) :
    result = length + (filenamePart filename).length := by
  cases filename with
  | none =>
    cases h
    rfl
  | some filename =>
    simp only [filenameLen, bind_ok_iff] at h
    obtain ⟨l, hl, n, hn, h⟩ := h
    rw [filenamePart, List.length_append, checkedAdd_ok h, checkedAdd_ok hl, escapedLen_ok hn,
      Nat.add_assoc]

theorem contentTypeLen_ok {length : Nat} {contentType : Option (List Char)}
    (h : contentTypeLen length contentType = .ok result) :
    result = length + (contentTypeLine contentType).length := by
  cases contentType with
  | none =>
    cases h
    rfl
  | some contentType =>
    simp only [contentTypeLen, bind_ok_iff] at h
    obtain ⟨l, hl, n, hn, h⟩ := h
    rw [contentTypeLine, List.length_append, List.length_append, checkedAdd_ok h,
      checkedAdd_ok hn, checkedAdd_ok hl, Nat.add_assoc, Nat.add_assoc, Nat.add_assoc]
    rfl

variable {boundary : List Char}

theorem encodedFieldLen_ok {field : MultipartField}
    (h : encodedFieldLen boundary field = .ok result) :
    result = (encodeField boundary field).length := by
  simp only [encodedFieldLen, bind_ok_iff] at h
  obtain ⟨_, h₁, _, h₂, _, h₃, _, h₄, _, hn, _, h₅, _, h₆, _, h₇, _, h₈, _, h₉, _, h₁₀, h⟩ := h
  rw [checkedAdd_ok h, checkedAdd_ok h₁₀, checkedAdd_ok h₉, contentTypeLen_ok h₈, checkedAdd_ok h₇,
    filenameLen_ok h₆, checkedAdd_ok h₅, escapedLen_ok hn, checkedAdd_ok h₄, checkedAdd_ok h₃,
    checkedAdd_ok h₂, checkedAdd_ok h₁]
  simp only [encodeField, headers, List.length_append, List.length_cons, crlf, dashes,
    List.length_nil]
  omega

/-- What the checks let through. -/
structure MultipartField.Valid (isMime : List Char → Bool) (field : MultipartField) : Prop where
  name : field.name ≠ [] ∧ (bytes field.name).length ≤ maxFieldNameBytes
  printable : ∀ c ∈ field.name ++ field.filename.getD [] ++ field.contentType.getD [],
    isControl c = false
  filename : ∀ filename, field.filename = some filename →
    (bytes filename).length ≤ maxFilenameBytes
  contentType : ∀ contentType, field.contentType = some contentType → isMime contentType = true

def Call.field : Call → MultipartField
  | .textField name value => { name, value := .text value }
  | .fileField name filename contentType data =>
    { name, value := .binary data, contentType, filename }

theorem validateMetadata_ok {value : List Char} {field : MultipartMetadataField} {limit : Nat}
    {allowEmpty : Bool} (h : validateMetadata value field limit allowEmpty = .ok ()) :
    (allowEmpty = false → value ≠ []) ∧ (bytes value).length ≤ limit ∧
      ∀ c ∈ value, isControl c = false := by
  unfold validateMetadata at h
  split_ifs at h with hempty hlong hcontrol
  refine ⟨fun hallow hnil => hempty ?_, not_lt.mp hlong, ?_⟩
  · simp [hallow, hnil]
  · simpa using hcontrol

variable {isMime : List Char → Bool} {body body' : Body}

theorem pushField_ok {field : MultipartField} (h : body.pushField field = .ok body') :
    body'.boundary = body.boundary ∧ body'.fields = body.fields ++ [field] ∧
      body'.encodedLen = body.encodedLen + (encodeField body.boundary field).length := by
  simp only [Body.pushField, bind_ok_iff] at h
  obtain ⟨length, hlength, next, hnext, ⟨⟩⟩ := h
  rw [checkedAdd_ok hnext, encodedFieldLen_ok hlength]
  exact ⟨rfl, rfl, rfl⟩

theorem apply_ok {call : Call} (h : call.apply isMime body = .ok body') :
    call.field.Valid isMime ∧ body'.boundary = body.boundary ∧
      body'.fields = body.fields ++ [call.field] ∧
      body'.encodedLen = body.encodedLen + (encodeField body.boundary call.field).length := by
  cases call with
  | textField name value =>
    obtain ⟨⟨⟩, hname, h⟩ := bind_ok_iff.mp h
    obtain ⟨hempty, hlength, hprintable⟩ := validateMetadata_ok hname
    refine ⟨⟨⟨hempty rfl, hlength⟩, ?_, by simp [Call.field], by simp [Call.field]⟩,
      pushField_ok h⟩
    simpa [Call.field] using hprintable
  | fileField name filename contentType data =>
    simp only [Call.apply, Body.fileField, bind_ok_iff] at h
    obtain ⟨_, hname, _, hfilename, _, hcontentType, h⟩ := h
    obtain ⟨hempty, hlength, hprintable⟩ := validateMetadata_ok hname
    obtain ⟨-, hlength', hprintable'⟩ := validateMetadata_ok hfilename
    obtain ⟨-, -, hprintable''⟩ := validateMetadata_ok hcontentType
    split at h
    next hmime =>
      refine ⟨⟨⟨hempty rfl, hlength⟩, ?_, ?_, ?_⟩, pushField_ok h⟩
      · simp only [Call.field, Option.getD_some, List.mem_append]
        rintro c ((hc | hc) | hc)
        exacts [hprintable c hc, hprintable' c hc, hprintable'' c hc]
      · rintro _ ⟨⟩
        exact hlength'
      · rintro _ ⟨⟩
        exact hmime
    next => cases h

theorem build_ok {calls : List Call} (h : build isMime body calls = .ok body') :
    (∀ call ∈ calls, call.field.Valid isMime) ∧ body'.boundary = body.boundary ∧
      body'.fields = body.fields ++ calls.map Call.field ∧
      body'.encodedLen = body.encodedLen +
        ((calls.map Call.field).flatMap (encodeField body.boundary)).length := by
  induction calls generalizing body with
  | nil =>
    cases h
    simp
  | cons call calls ih =>
    rw [build, List.foldlM_cons] at h
    obtain ⟨next, hnext, h⟩ := bind_ok_iff.mp h
    obtain ⟨hvalid, hboundary, hfields, hlength⟩ := apply_ok hnext
    obtain ⟨hvalid', hboundary', hfields', hlength'⟩ := ih h
    refine ⟨?_, hboundary'.trans hboundary, ?_, ?_⟩
    · simpa using ⟨hvalid, hvalid'⟩
    · rw [hfields', hfields, List.map_cons, List.append_assoc]
      rfl
    · rw [hlength', hlength, hboundary, List.map_cons, List.flatMap_cons, List.length_append,
        Nat.add_assoc]

theorem length_toMultipartBytes {calls : List Call}
    (h : build isMime (fromValidBoundary boundary) calls = .ok body) :
    body.toMultipartBytes.length = body.encodedLen := by
  obtain ⟨-, hboundary, hfields, hlength⟩ := build_ok h
  rw [Body.toMultipartBytes, hlength, hfields, hboundary]
  simp only [fromValidBoundary, List.nil_append, List.length_append, dashes, crlf,
    List.length_cons, List.length_nil]
  omega

/-! ## Boundaries -/

theorem validateBoundary_ok (h : validateBoundary boundary = .ok ()) :
    ∀ b ∈ bytes boundary, isBoundaryByte b = true := by
  unfold validateBoundary at h
  simp only at h
  split at h
  · cases h
  next hvalid =>
    simp only [Bool.or_eq_true, not_or, Bool.not_eq_true, Bool.not_eq_false',
      List.all_eq_true] at hvalid
    exact hvalid.1.2

variable {c : Char}

theorem mem_hex {n : Nat} (h : c ∈ hex n) : ∃ d < 16, c = Nat.digitChar d := by
  induction n using Nat.strongRecOn with
  | ind n ih =>
    rw [hex, Nat.toDigits_eq_if (by decide)] at h
    split at h
    next hsmall => exact ⟨n, hsmall, List.mem_singleton.mp h⟩
    next hlarge =>
      rcases List.mem_append.mp h with h | h
      · exact ih (n / 16) (by omega) h
      · exact ⟨n % 16, Nat.mod_lt n (by decide), List.mem_singleton.mp h⟩

/-- A character that may stand anywhere in a boundary. -/
def isPlain (c : Char) : Bool :=
  match String.utf8EncodeChar c with
  | [b] => isBoundaryByte b && b != 32
  | _ => false

theorem isPlain_digitChar : ∀ d < 16, isPlain (Nat.digitChar d) = true := by
  decide

/-- Plain characters make a boundary if there are not too many of them. -/
theorem validateBoundary_of_plain (hne : boundary ≠ [])
    (hlength : boundary.length ≤ maxBoundaryBytes) (hplain : ∀ c ∈ boundary, isPlain c = true) :
    validateBoundary boundary = .ok () := by
  have hencoded : (bytes boundary).length = boundary.length ∧
      ∀ b ∈ bytes boundary, isBoundaryByte b = true ∧ b ≠ 32 := by
    clear hne hlength
    induction boundary with
    | nil => exact ⟨rfl, by simp [bytes]⟩
    | cons c rest ih =>
      obtain ⟨hlength, hbytes⟩ := ih fun c hc => hplain c (List.mem_cons_of_mem _ hc)
      have hc := hplain c List.mem_cons_self
      unfold isPlain at hc
      split at hc
      next b hb =>
        simp only [Bool.and_eq_true, bne_iff_ne] at hc
        have hcons : bytes (c :: rest) = b :: bytes rest := by
          rw [bytes, List.flatMap_cons, hb]
          rfl
        rw [hcons]
        refine ⟨by rw [List.length_cons, hlength, List.length_cons], fun b' hb' => ?_⟩
        rcases List.mem_cons.mp hb' with rfl | hb'
        · exact hc
        · exact hbytes b' hb'
      next => cases hc
  have hnonempty : bytes boundary ≠ [] := by
    intro hnil
    rw [hnil, List.length_nil] at hencoded
    exact hne (List.length_eq_zero_iff.mp hencoded.1.symm)
  have hlast : (bytes boundary).getLast? ≠ some 32 := fun h =>
    (hencoded.2 32 (List.mem_of_getLast? h)).2 rfl
  have hall : (bytes boundary).all isBoundaryByte = true :=
    List.all_eq_true.mpr fun b hb => (hencoded.2 b hb).1
  simp only [validateBoundary, hall, List.isEmpty_eq_false_iff.mpr hnonempty]
  simp [hencoded.1, hlength, hlast]

theorem isPlain_hex {n : Nat} (h : c ∈ hex n) : isPlain c = true := by
  obtain ⟨d, hd, rfl⟩ := mem_hex h
  exact isPlain_digitChar d hd

theorem generated_length (timestamp counter : Nat) : (generatedBoundary timestamp counter).length =
    19 + (hex timestamp).length + (hex counter).length := by
  have hstart : boundaryStart.length = 18 := by decide
  rw [generatedBoundary, List.length_append, List.length_append, List.length_cons, hstart]
  omega

theorem isPlain_generated {timestamp counter : Nat}
    (h : c ∈ generatedBoundary timestamp counter) : isPlain c = true := by
  have hstart : boundaryStart.all isPlain = true := by decide
  rw [generatedBoundary, List.mem_append, List.mem_append, List.mem_cons] at h
  rcases h with (h | h) | rfl | h
  · exact List.all_eq_true.mp hstart c h
  · exact isPlain_hex h
  · decide
  · exact isPlain_hex h

/-- `new` does not check its boundary in a release build; the check would pass. -/
theorem validateBoundary_new (timestamp : BitVec 128) (counter : UInt64) :
    validateBoundary (new timestamp counter).boundary = .ok () := by
  have hlength : (hex timestamp.toNat).length ≤ 32 :=
    (Nat.length_toDigits_le_iff (k := 32) (by decide) (by decide)).mpr timestamp.isLt
  have hlength' : (hex counter.toNat).length ≤ 16 :=
    (Nat.length_toDigits_le_iff (k := 16) (by decide) (by decide)).mpr counter.toNat_lt
  have hbound := generated_length timestamp.toNat counter.toNat
  refine validateBoundary_of_plain (fun hnil => ?_) ?_ fun c hc => isPlain_generated hc
  · rw [show generatedBoundary _ _ = [] from hnil, List.length_nil] at hbound
    omega
  · rw [show (new timestamp counter).boundary.length = _ from hbound, maxBoundaryBytes]
    omega

/-- The bodies without fields: those with a generated boundary, and those with a boundary that
was given and accepted. -/
inductive Fresh : Body → Prop where
  | new (timestamp : BitVec 128) (counter : UInt64) : Fresh (new timestamp counter)
  | withBoundary {boundary : List Char} {body : Body} (h : withBoundary boundary = .ok body) :
    Fresh body

theorem Fresh.accepted {start : Body} (h : Fresh start) :
    start = fromValidBoundary start.boundary ∧ validateBoundary start.boundary = .ok () := by
  cases h with
  | new timestamp counter => exact ⟨rfl, validateBoundary_new timestamp counter⟩
  | withBoundary h =>
    obtain ⟨_, hvalid, ⟨⟩⟩ := bind_ok_iff.mp h
    exact ⟨rfl, hvalid⟩

end Lily.HttpClient.MultipartBody
