import Lily.Text.Utf8

/-!
# The scanner of `Content-Disposition`

The cursor of the scanner is what is left of the header value.
-/

namespace Lily.Http.ContentDisposition

open Utf8

inductive MultipartError where
  | malformedBody
  | missingFieldName
  | emptyFieldName
  | fieldNameTooLong (limitBytes : Nat)
  | filenameTooLong (limitBytes : Nat)

structure MultipartLimits where
  maxFieldNameBytes : Nat := 256
  maxFilenameBytes : Nat := 1024

structure DispositionMetadata where
  name : List Char
  filename : Option (List Char)

structure ParameterValue where
  raw : List UInt8
  hasEscapes : Bool

def isOws (b : UInt8) : Bool := b == 32 || b == 9

def skipOws (input : List UInt8) : List UInt8 := input.dropWhile isOws

def tokenMarks : List UInt8 := bytes "!#$%&'*+-.^_`|~".toList

def isToken (b : UInt8) : Bool :=
  (48 ≤ b && b ≤ 57) || (65 ≤ b && b ≤ 90) || (97 ≤ b && b ≤ 122) || tokenMarks.contains b

def consumeToken (input : List UInt8) : Except MultipartError (List UInt8 × List UInt8) :=
  if (input.takeWhile isToken).isEmpty then .error .malformedBody
  else .ok (input.takeWhile isToken, input.dropWhile isToken)

def isQuotedValueByte (b : UInt8) : Bool := b == 9 || b == 32 || (33 ≤ b && b ≤ 126) || 128 ≤ b

/-- The scan after the opening quote: what it passed, whether it saw an escape, and what follows the
closing quote. -/
def scanQuoted : Bool → List UInt8 → Option (ParameterValue × List UInt8)
  | _, [] => none
  | true, b :: rest =>
    if isQuotedValueByte b then
      (scanQuoted false rest).map fun r => ({ r.1 with raw := b :: r.1.raw }, r.2)
    else none
  | false, b :: rest =>
    if b = 34 then some (⟨[], false⟩, rest)
    else if b = 92 then (scanQuoted true rest).map fun r => (⟨b :: r.1.raw, true⟩, r.2)
    else if isQuotedValueByte b then
      (scanQuoted false rest).map fun r => ({ r.1 with raw := b :: r.1.raw }, r.2)
    else none

def consumeParameterValue (input : List UInt8) :
    Except MultipartError (ParameterValue × List UInt8) :=
  match input with
  | 34 :: rest => match scanQuoted false rest with
    | some result => .ok result
    | none => .error .malformedBody
  | _ => do
    let (token, rest) ← consumeToken input
    return (⟨token, false⟩, rest)

/-- The decoded bytes, of which there are already `count`. -/
def decodeRaw (hasEscapes : Bool) (limitBytes : Nat) (tooLarge : MultipartError) :
    Nat → List UInt8 → Except MultipartError (List UInt8)
  | _, [] => .ok []
  | count, [b] =>
    if hasEscapes && b == 92 then .error .malformedBody
    else if limitBytes ≤ count then .error tooLarge
    else .ok [b]
  | count, b :: next :: rest =>
    if hasEscapes && b == 92 then
      if limitBytes ≤ count then .error tooLarge
      else do return next :: (← decodeRaw hasEscapes limitBytes tooLarge (count + 1) rest)
    else if limitBytes ≤ count then .error tooLarge
    else do return b :: (← decodeRaw hasEscapes limitBytes tooLarge (count + 1) (next :: rest))

def metadataString (value : ParameterValue) (limitBytes : Nat) (tooLarge : MultipartError) :
    Except MultipartError (List Char) :=
  if !value.hasEscapes && limitBytes < value.raw.length then .error tooLarge
  else do
    let decoded ← decodeRaw value.hasEscapes limitBytes tooLarge 0 value.raw
    match decode decoded with
    | some text => .ok text
    | none => .error .malformedBody

def formDataToken : List UInt8 := bytes "form-data".toList
def nameToken : List UInt8 := bytes "name".toList
def filenameToken : List UInt8 := bytes "filename".toList

def toLower (b : UInt8) : UInt8 := if 65 ≤ b && b ≤ 90 then b + 32 else b

def eqIgnoreAsciiCase (a b : List UInt8) : Bool := a.map toLower == b.map toLower

/-- One parameter after its semicolon: its name, its value, and what follows. -/
def consumeParameter (input : List UInt8) :
    Except MultipartError (List UInt8 × ParameterValue × List UInt8) := do
  let (parameter, rest) ← consumeToken (skipOws input)
  match skipOws rest with
  | 61 :: rest =>
    let (value, rest) ← consumeParameterValue (skipOws rest)
    return (parameter, value, skipOws rest)
  | _ => .error .malformedBody

/-- The loop over the parameters. Each turn takes at least the semicolon, so that there are no more
turns than bytes. -/
def parameters (limits : MultipartLimits) : Nat → List UInt8 → DispositionMetadata → Bool →
    Except MultipartError (DispositionMetadata × Bool)
  | _, [], metadata, named => .ok (metadata, named)
  | 0, _ :: _, _, _ => .error .malformedBody
  | turns + 1, b :: rest, metadata, named =>
    if b ≠ 59 then .error .malformedBody
    else do
      let (parameter, value, rest) ← consumeParameter rest
      if eqIgnoreAsciiCase parameter nameToken then
        if named then .error .malformedBody
        else
          let name ← metadataString value limits.maxFieldNameBytes
            (.fieldNameTooLong limits.maxFieldNameBytes)
          if name.isEmpty then .error .emptyFieldName
          else parameters limits turns rest { metadata with name } true
      else if eqIgnoreAsciiCase parameter filenameToken then
        if metadata.filename.isSome then .error .malformedBody
        else
          let filename ← metadataString value limits.maxFilenameBytes
            (.filenameTooLong limits.maxFilenameBytes)
          parameters limits turns rest { metadata with filename } named
      else parameters limits turns rest metadata named

def parseContentDisposition (input : List UInt8) (limits : MultipartLimits) :
    Except MultipartError DispositionMetadata := do
  let (disposition, rest) ← consumeToken (skipOws input)
  if !eqIgnoreAsciiCase disposition formDataToken then .error .malformedBody
  else
    let (metadata, named) ← parameters limits (skipOws rest).length (skipOws rest) ⟨[], none⟩ false
    if named then .ok metadata else .error .missingFieldName

/-! ## What the scanner makes of a quoted value -/

/-- A quote or a backslash. -/
def isSpecial (b : UInt8) : Bool := b == 34 || b == 92

/-- A value with its quotes and backslashes escaped. -/
def escape (value : List UInt8) : List UInt8 :=
  value.flatMap fun b => if isSpecial b then [92, b] else [b]

variable {value rest : List UInt8}

theorem scanQuoted_escape (hvalue : ∀ b ∈ value, isQuotedValueByte b = true) :
    scanQuoted false (escape value ++ 34 :: rest) =
      some (⟨escape value, value.any isSpecial⟩, rest) := by
  induction value with
  | nil => simp [escape, scanQuoted]
  | cons b value ih =>
    have hb := hvalue b List.mem_cons_self
    have ih := ih fun b hb => hvalue b (List.mem_cons_of_mem _ hb)
    cases hspecial : isSpecial b with
    | true =>
      have hcons : escape (b :: value) = 92 :: b :: escape value := by
        simp [escape, hspecial]
      rw [hcons, List.cons_append, List.cons_append, scanQuoted, if_neg (by decide),
        if_pos rfl, scanQuoted, if_pos hb, ih]
      simp [hspecial]
    | false =>
      have hcons : escape (b :: value) = b :: escape value := by simp [escape, hspecial]
      simp only [isSpecial, Bool.or_eq_false_iff, beq_eq_false_iff_ne] at hspecial
      rw [hcons, List.cons_append, scanQuoted, if_neg hspecial.1, if_neg hspecial.2,
        if_pos hb, ih]
      simp [isSpecial, hspecial]

theorem decodeRaw_escape {hasEscapes : Bool} {limit count : Nat} {tooLarge : MultipartError}
    (hescapes : hasEscapes = true ∨ value.any isSpecial = false)
    (hlimit : count + value.length ≤ limit) :
    decodeRaw hasEscapes limit tooLarge count (escape value) = .ok value := by
  induction value generalizing count with
  | nil => simp [escape, decodeRaw]
  | cons b value ih =>
    rw [List.length_cons] at hlimit
    have hroom : ¬ limit ≤ count := by omega
    have hrest : decodeRaw hasEscapes limit tooLarge (count + 1) (escape value) = .ok value := by
      refine ih ?_ (by omega)
      rcases hescapes with h | h
      · exact .inl h
      · exact .inr (by simp_all)
    cases hspecial : isSpecial b with
    | true =>
      have hescapes : hasEscapes = true := by simpa [hspecial] using hescapes
      have hcons : escape (b :: value) = 92 :: b :: escape value := by
        simp [escape, hspecial]
      rw [hcons, decodeRaw, if_pos (by simp [hescapes]), if_neg hroom, hrest]
      rfl
    | false =>
      have hcons : escape (b :: value) = b :: escape value := by simp [escape, hspecial]
      have hb : ¬ (hasEscapes && b == 92) = true := by
        simp only [isSpecial, Bool.or_eq_false_iff] at hspecial
        simp [hspecial.2]
      rw [hcons]
      cases hescape : escape value with
      | nil =>
        rw [hescape] at hrest
        rw [decodeRaw, if_neg hb, if_neg hroom]
        cases value with
        | nil => rfl
        | cons b' value' => cases hrest
      | cons next more =>
        rw [hescape] at hrest
        rw [decodeRaw, if_neg hb, if_neg hroom, hrest]
        rfl

theorem metadataString_escape {text : List Char} {limit : Nat} {tooLarge : MultipartError}
    (hlimit : (bytes text).length ≤ limit) :
    metadataString ⟨escape (bytes text), (bytes text).any isSpecial⟩ limit tooLarge =
      .ok text := by
  have hraw : (!(bytes text).any isSpecial &&
      decide (limit < (escape (bytes text)).length)) = false := by
    cases hspecial : (bytes text).any isSpecial with
    | true => rfl
    | false =>
      have hplain : escape (bytes text) = bytes text := by
        have hmap : ∀ b ∈ bytes text, (if isSpecial b then [92, b] else [b]) = [b] := by
          intro b hb
          rw [if_neg (by simpa using List.any_eq_false.mp hspecial b hb)]
        rw [escape, List.flatMap_congr hmap, List.flatMap_singleton']
      simp [hplain, hlimit]
  have hdecoded : decodeRaw ((bytes text).any isSpecial) limit tooLarge 0
      (escape (bytes text)) = .ok (bytes text) := by
    refine decodeRaw_escape ?_ (by omega)
    cases (bytes text).any isSpecial <;> simp
  simp only [metadataString, hraw, hdecoded]
  rw [if_neg (by decide)]
  simp [bind, Except.bind, decode_bytes]

theorem consumeToken_append {token : List UInt8} {b : UInt8} (hne : token ≠ [])
    (htoken : ∀ b ∈ token, isToken b = true) (hb : isToken b = false) :
    consumeToken (token ++ b :: rest) = .ok (token, b :: rest) := by
  have htake : (token ++ b :: rest).takeWhile isToken = token := by
    rw [List.takeWhile_append_of_pos htoken, List.takeWhile_cons_of_neg (by simp [hb]),
      List.append_nil]
  have hdrop : (token ++ b :: rest).dropWhile isToken = b :: rest := by
    rw [List.dropWhile_append_of_pos htoken, List.dropWhile_cons_of_neg (by simp [hb])]
  rw [consumeToken, htake, hdrop, if_neg (by simpa using hne)]

/-- Not a blank, as at the end of the value and before its semicolons. -/
theorem skipOws_eq (hrest : ∀ b ∈ rest.head?, isOws b = false) : skipOws rest = rest := by
  cases rest with
  | nil => rfl
  | cons b rest => exact List.dropWhile_cons_of_neg (by simpa using hrest b rfl)

theorem consumeParameter_quoted {token : List UInt8} (hne : token ≠ [])
    (htoken : ∀ b ∈ token, isToken b = true) (hows : ∀ b ∈ token.head?, isOws b = false)
    (hvalue : ∀ b ∈ value, isQuotedValueByte b = true) (hrest : ∀ b ∈ rest.head?, isOws b = false) :
    consumeParameter (32 :: (token ++ 61 :: 34 :: (escape value ++ 34 :: rest))) =
      .ok (token, ⟨escape value, value.any isSpecial⟩, rest) := by
  have hskip : skipOws (32 :: (token ++ 61 :: 34 :: (escape value ++ 34 :: rest))) =
      token ++ 61 :: 34 :: (escape value ++ 34 :: rest) := by
    rw [skipOws, List.dropWhile_cons_of_pos (by decide)]
    refine skipOws_eq ?_
    cases token with
    | nil => exact absurd rfl hne
    | cons b token => exact hows
  have hequals : skipOws (61 :: 34 :: (escape value ++ 34 :: rest)) =
      61 :: 34 :: (escape value ++ 34 :: rest) := List.dropWhile_cons_of_neg (by decide)
  have hquote : skipOws (34 :: (escape value ++ 34 :: rest)) =
      34 :: (escape value ++ 34 :: rest) := List.dropWhile_cons_of_neg (by decide)
  have htaken : consumeToken (token ++ 61 :: 34 :: (escape value ++ 34 :: rest)) =
      .ok (token, 61 :: 34 :: (escape value ++ 34 :: rest)) :=
    consumeToken_append hne htoken (by decide)
  simp only [consumeParameter, hskip, htaken, bind, Except.bind, hequals, hquote,
    consumeParameterValue, scanQuoted_escape hvalue, skipOws_eq hrest]
  rfl

set_option maxRecDepth 8000 in
/-- The three names the parser looks for are tokens themselves. -/
theorem token_of_names : ∀ token ∈ [nameToken, filenameToken, formDataToken], token ≠ [] ∧
    (∀ b ∈ token, isToken b = true) ∧ ∀ b ∈ token.head?, isOws b = false := by
  decide

theorem nameToken_isToken : nameToken ≠ [] ∧ (∀ b ∈ nameToken, isToken b = true) ∧
    ∀ b ∈ nameToken.head?, isOws b = false :=
  token_of_names _ (by simp)

theorem filenameToken_isToken : filenameToken ≠ [] ∧ (∀ b ∈ filenameToken, isToken b = true) ∧
    ∀ b ∈ filenameToken.head?, isOws b = false :=
  token_of_names _ (by simp)

theorem formDataToken_isToken : formDataToken ≠ [] ∧ (∀ b ∈ formDataToken, isToken b = true) ∧
    ∀ b ∈ formDataToken.head?, isOws b = false :=
  token_of_names _ (by simp)

variable {limits : MultipartLimits} {metadata : DispositionMetadata} {text : List Char}
  {named : Bool} {turns : Nat}

theorem parameters_name (hne : text ≠ []) (hlimit : (bytes text).length ≤ limits.maxFieldNameBytes)
    (hvalue : ∀ b ∈ bytes text, isQuotedValueByte b = true)
    (hrest : ∀ b ∈ rest.head?, isOws b = false) :
    parameters limits (turns + 1)
        (59 :: 32 :: (nameToken ++ 61 :: 34 :: (escape (bytes text) ++ 34 :: rest)))
        metadata false =
      parameters limits turns rest { metadata with name := text } true := by
  obtain ⟨htoken, hall, hows⟩ := nameToken_isToken
  have hname : eqIgnoreAsciiCase nameToken nameToken = true := by simp [eqIgnoreAsciiCase]
  rw [parameters, if_neg (by simp), consumeParameter_quoted htoken hall hows hvalue hrest]
  simp only [bind, Except.bind, hname, if_true, metadataString_escape hlimit]
  simp [hne]

theorem parameters_filename (hlimit : (bytes text).length ≤ limits.maxFilenameBytes)
    (hvalue : ∀ b ∈ bytes text, isQuotedValueByte b = true)
    (hrest : ∀ b ∈ rest.head?, isOws b = false) (hfirst : metadata.filename = none) :
    parameters limits (turns + 1)
        (59 :: 32 :: (filenameToken ++ 61 :: 34 :: (escape (bytes text) ++ 34 :: rest)))
        metadata named =
      parameters limits turns rest { metadata with filename := some text } named := by
  obtain ⟨htoken, hall, hows⟩ := filenameToken_isToken
  have hname : eqIgnoreAsciiCase filenameToken nameToken = false := by decide
  have hfilename : eqIgnoreAsciiCase filenameToken filenameToken = true := by
    simp [eqIgnoreAsciiCase]
  rw [parameters, if_neg (by simp), consumeParameter_quoted htoken hall hows hvalue hrest]
  simp only [bind, Except.bind, hname, hfilename, if_true, metadataString_escape hlimit, hfirst]
  simp

def filenameParameter : Option (List Char) → List UInt8
  | some filename =>
    59 :: 32 :: (filenameToken ++ 61 :: 34 :: (escape (bytes filename) ++ [34]))
  | none => []

/-- The scanner gives back a name and a file name that were escaped and quoted. -/
theorem parseContentDisposition_quoted {name : List Char} {filename : Option (List Char)}
    (hne : name ≠ []) (hname : (bytes name).length ≤ limits.maxFieldNameBytes)
    (hfilename : ∀ text ∈ filename, (bytes text).length ≤ limits.maxFilenameBytes)
    (hvalue : ∀ b ∈ bytes (name ++ filename.getD []), isQuotedValueByte b = true) :
    parseContentDisposition (32 :: (formDataToken ++ 59 :: 32 :: (nameToken ++ 61 :: 34 ::
      (escape (bytes name) ++ 34 :: filenameParameter filename)))) limits =
        .ok ⟨name, filename⟩ := by
  obtain ⟨htoken, hall, hows⟩ := formDataToken_isToken
  have hbytes : ∀ b, b ∈ bytes name ∨ b ∈ bytes (filename.getD []) →
      isQuotedValueByte b = true := by
    rw [bytes_append] at hvalue
    exact fun b hb => hvalue b (List.mem_append.mpr hb)
  generalize hlist : 59 :: 32 :: (nameToken ++ 61 :: 34 ::
    (escape (bytes name) ++ 34 :: filenameParameter filename)) = list
  have hstart : skipOws (32 :: (formDataToken ++ list)) = formDataToken ++ list := by
    rw [skipOws, List.dropWhile_cons_of_pos (by decide)]
    refine skipOws_eq ?_
    cases hform : formDataToken with
    | nil => exact absurd hform htoken
    | cons b token => simpa [hform] using hows
  have htaken : consumeToken (formDataToken ++ list) = .ok (formDataToken, list) := by
    rw [← hlist]
    exact consumeToken_append htoken hall (by decide)
  have hskip : skipOws list = list := by
    rw [← hlist]
    exact List.dropWhile_cons_of_neg (by decide)
  obtain ⟨turns, hturns⟩ : ∃ turns, list.length = turns + 1 + 1 := by
    rw [← hlist]
    exact ⟨_, rfl⟩
  have hrest : ∀ b ∈ (filenameParameter filename).head?, isOws b = false := by
    cases filename with
    | none => simp [filenameParameter]
    | some filename => simp [filenameParameter, isOws]
  have hloop : parameters limits (turns + 1 + 1) list ⟨[], none⟩ false =
      .ok (⟨name, filename⟩, true) := by
    rw [← hlist, parameters_name hne hname (fun b hb => hbytes b (.inl hb)) hrest]
    cases filename with
    | none => rfl
    | some filename =>
      rw [filenameParameter, parameters_filename (hfilename filename rfl)
        (fun b hb => hbytes b (.inr hb)) (by simp) rfl]
      cases turns <;> rfl
  have hform : eqIgnoreAsciiCase formDataToken formDataToken = true := by simp [eqIgnoreAsciiCase]
  simp only [parseContentDisposition, hstart, htaken, bind, Except.bind, hskip, hform, hturns,
    hloop]
  rfl

end Lily.Http.ContentDisposition
