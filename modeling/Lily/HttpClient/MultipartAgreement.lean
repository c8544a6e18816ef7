import Lily.Http.ContentDisposition
import Lily.HttpClient.MultipartBody
import Lily.Text.Delimiter

/-!
# What a receiver reads of a multipart body

The splitting of RFC 2046: a delimiter is a line end, two dashes and the boundary, wherever it
stands; after it come two more dashes, or blanks, a line end and a part. A part is header lines, an
empty line and the content. Its `Content-Disposition` is read by the scanner of the server.
-/

namespace Lily.HttpClient.MultipartAgreement

open Delimiter MultipartBody Http.ContentDisposition
open Utf8 (bytes)

/-! ## Reading -/

def delimiter (boundary : List UInt8) : List UInt8 := 13 :: 10 :: 45 :: 45 :: boundary

/-- The parts that follow a delimiter, for no more turns than there are bytes. -/
def parts (boundary : List UInt8) : Nat → List UInt8 → Option (List (List UInt8))
  | 0, _ => none
  | turns + 1, rest =>
    if dashes <+: rest then some []
    else match skipOws rest with
      | 13 :: 10 :: rest => do
        let (part, rest) ← cut (delimiter boundary) rest
        return part :: (← parts boundary turns rest)
      | _ => none

variable (limits : MultipartLimits) (boundary body : List UInt8)

/-- What stands before the first delimiter is dropped, and what stands after the last. -/
def splitBody : Option (List (List UInt8)) := do
  let (_, rest) ← cut (delimiter boundary) (crlf ++ body)
  parts boundary (body.length + 1) rest

def headerLines : Nat → List UInt8 → Option (List (List UInt8) × List UInt8)
  | 0, _ => none
  | turns + 1, part => do
    let (line, rest) ← cut crlf part
    if line.isEmpty then return ([], rest)
    let (lines, content) ← headerLines turns rest
    return (line :: lines, content)

/-- What a line says after the name of the header and its colon. -/
def fieldBody (name line : List UInt8) : Option (List UInt8) :=
  if eqIgnoreAsciiCase (line.takeWhile (· != 58)) name then (line.dropWhile (· != 58)).tail?
  else none

structure Part where
  name : List Char
  filename : Option (List Char)
  contentType : Option (List Char)
  content : List UInt8

def dispositionName : List UInt8 := bytes "Content-Disposition".toList
def contentTypeName : List UInt8 := bytes "Content-Type".toList

def readPart (part : List UInt8) : Option Part := do
  let (lines, content) ← headerLines (part.length + 1) part
  let disposition ← lines.findSome? (fieldBody dispositionName)
  let contentType := lines.findSome? (fieldBody contentTypeName)
  match parseContentDisposition disposition limits with
  | .ok metadata => return {
      name := metadata.name
      filename := metadata.filename
      contentType := contentType.bind fun value => Utf8.decode (skipOws value)
      content }
  | .error _ => none

def readBody : Option (List Part) := do
  (← splitBody boundary body).mapM (readPart limits)

variable (field : MultipartField)

/-- The part that a field is meant to be. -/
def part : Part :=
  ⟨field.name, field.filename, field.contentType, field.value.bytes⟩

/-- No line of the value starts with two dashes and the boundary. -/
def Free (boundary value : List UInt8) : Prop := ¬ delimiter boundary <:+: crlf ++ value

instance (boundary value : List UInt8) : Decidable (Free boundary value) :=
  inferInstanceAs (Decidable (¬ _))

/-! ## Lines -/

/-- A field without its boundary line and without the line end after it. -/
def content : List UInt8 := headers field ++ crlf ++ field.value.bytes

def dispositionLine : List UInt8 :=
  dispositionPrefix ++ quoted field.name ++ filenamePart field.filename ++ [34]

section Field

variable {isMime : List Char → Bool} {field : MultipartField}

theorem content_eq : content field = dispositionLine field ++ (crlf ++
    (contentTypeLine field.contentType ++ (crlf ++ field.value.bytes))) := by
  simp [content, headers, dispositionLine, crlf]

theorem isQuotedValueByte_of_printable (text : List Char)
    (h : ∀ c ∈ text, isControl c = false) {b : UInt8} (hb : b ∈ bytes text) :
    isQuotedValueByte b = true ∧ b ≠ 13 := by
  obtain ⟨c, hc, hb⟩ := List.mem_flatMap.mp hb
  have hcontrol := h c hc
  simp only [isControl, Bool.or_eq_false_iff, Bool.and_eq_false_iff, decide_eq_false_iff_not]
    at hcontrol
  simp only [isQuotedValueByte, Bool.or_eq_true, Bool.and_eq_true, beq_iff_eq, decide_eq_true_eq,
    UInt8.le_iff_toNat_le, ne_eq, ← UInt8.toNat_inj]
  rcases Utf8.mem_utf8EncodeChar hb with ⟨heq, hascii⟩ | hhigh
  · simp
    omega
  · simp
    omega

theorem notMem_quoted (text : List Char) (h : ∀ c ∈ text, isControl c = false) :
    (13 : UInt8) ∉ quoted text := by
  simp only [quoted, List.mem_flatMap, not_exists, not_and]
  intro b hb
  have := (isQuotedValueByte_of_printable text h hb).2
  split <;> simp [this.symm]

theorem notMem_dispositionLine (h : field.Valid isMime) : (13 : UInt8) ∉ dispositionLine field := by
  have hstart : (13 : UInt8) ∉ dispositionPrefix := by decide
  have hseparator : (13 : UInt8) ∉ filenameSeparator := by decide
  have hname := notMem_quoted field.name fun c hc => h.printable c (by simp [hc])
  simp only [dispositionLine, List.mem_append, List.mem_singleton, not_or]
  refine ⟨⟨⟨hstart, hname⟩, ?_⟩, by decide⟩
  cases hf : field.filename with
  | none => simp [filenamePart]
  | some filename =>
    have hfilename := notMem_quoted filename fun c hc => h.printable c (by simp [hf, hc])
    simp [filenamePart, hseparator, hfilename]

theorem notMem_contentType (h : field.Valid isMime) {contentType : List Char}
    (hc : field.contentType = some contentType) :
    (13 : UInt8) ∉ contentTypePrefix ++ bytes contentType := by
  have hstart : (13 : UInt8) ∉ contentTypePrefix := by decide
  rw [List.mem_append, not_or]
  refine ⟨hstart, fun hmem => ?_⟩
  exact (isQuotedValueByte_of_printable contentType
    (fun c hmem => h.printable c (by simp [hc, hmem])) hmem).2 rfl

/-- A line end that no dash follows is not the start of a delimiter. -/
theorem infix_of_infix_line {boundary line rest : List UInt8} (hline : (13 : UInt8) ∉ line)
    (hrest : rest.head? ≠ some 45) (h : delimiter boundary <:+: line ++ (crlf ++ rest)) :
    delimiter boundary <:+: rest := by
  have hbreak : delimiter boundary <:+: 13 :: 10 :: rest := infix_of_infix_append hline h
  rcases List.infix_cons_iff.mp hbreak with hstart | hlater
  · obtain ⟨-, htail⟩ := List.cons_prefix_cons.mp hstart
    obtain ⟨-, hdash⟩ := List.cons_prefix_cons.mp htail
    obtain ⟨more, rfl⟩ := hdash
    exact absurd rfl hrest
  · exact infix_of_infix_append (a := [10]) (by decide) hlater

theorem not_infix_content (h : field.Valid isMime) {boundary : List UInt8}
    (hfree : Free boundary field.value.bytes) : ¬ delimiter boundary <:+: content field := by
  rw [content_eq]
  intro hfound
  have hfirst := infix_of_infix_line (notMem_dispositionLine h) ?_ hfound
  · cases hc : field.contentType with
    | none =>
      rw [hc] at hfirst
      exact hfree hfirst
    | some contentType =>
      rw [hc, contentTypeLine, List.append_assoc] at hfirst
      exact hfree (infix_of_infix_line (notMem_contentType h hc) (by simp [crlf]) hfirst)
  · have hstart : contentTypePrefix.head? = some 67 := by decide
    cases hc : field.contentType with
    | none => simp [contentTypeLine, crlf]
    | some contentType => simp [contentTypeLine, List.head?_append, hstart]

variable {turns : Nat} {line rest : List UInt8}

theorem cut_crlf (hline : (13 : UInt8) ∉ line) :
    cut crlf (line ++ (crlf ++ rest)) = some (line, rest) :=
  cut_append (by decide) (not_infix_of_notMem hline)

theorem headerLines_line (hline : (13 : UInt8) ∉ line)
    (hne : line ≠ []) : headerLines (turns + 1) (line ++ (crlf ++ rest)) =
      (headerLines turns rest).map fun r => (line :: r.1, r.2) := by
  have hempty : line.isEmpty = false := by simpa using hne
  simp only [headerLines, cut_crlf hline, Option.bind_eq_bind, Option.bind_some, hempty]
  cases headerLines turns rest <;> rfl

theorem headerLines_end {rest : List UInt8} :
    headerLines (turns + 1) (crlf ++ rest) = some ([], rest) := by
  have hcut : cut crlf (crlf ++ rest) = some ([], rest) :=
    cut_append (a := []) (by decide) (not_infix_of_notMem List.not_mem_nil)
  simp [headerLines, hcut]

def lines (field : MultipartField) : List (List UInt8) :=
  dispositionLine field ::
    (field.contentType.map fun contentType => contentTypePrefix ++ bytes contentType).toList

theorem headerLines_content (h : field.Valid isMime) (turns : Nat) :
    headerLines (turns + 3) (content field) = some (lines field, field.value.bytes) := by
  have hne : dispositionLine field ≠ [] := by simp [dispositionLine]
  rw [content_eq, headerLines_line (notMem_dispositionLine h) hne, lines]
  cases hc : field.contentType with
  | none => rw [contentTypeLine, List.nil_append, headerLines_end]; rfl
  | some contentType =>
    have hne : contentTypePrefix ++ bytes contentType ≠ [] :=
      List.append_ne_nil_of_left_ne_nil (by decide) _
    rw [contentTypeLine, List.append_assoc, headerLines_line (notMem_contentType h hc) hne,
      headerLines_end]
    rfl

theorem fieldBody_of_eq {name key value : List UInt8} (hkey : (58 : UInt8) ∉ key) :
    fieldBody name (key ++ 58 :: value) =
      if eqIgnoreAsciiCase key name then some value else none := by
  have hall : ∀ b ∈ key, (b != 58) = true := fun b hb =>
    bne_iff_ne.mpr fun heq => hkey (heq ▸ hb)
  have htake : (key ++ 58 :: value).takeWhile (· != 58) = key := by
    rw [List.takeWhile_append_of_pos hall, List.takeWhile_cons_of_neg (by decide), List.append_nil]
  have hdrop : (key ++ 58 :: value).dropWhile (· != 58) = 58 :: value := by
    rw [List.dropWhile_append_of_pos hall, List.dropWhile_cons_of_neg (by decide)]
  rw [fieldBody, htake, hdrop]
  rfl

theorem dispositionLine_eq : dispositionLine field = dispositionName ++ 58 ::
    (32 :: (formDataToken ++ 59 :: 32 :: (nameToken ++ 61 :: 34 ::
      (escape (bytes field.name) ++ 34 :: filenameParameter field.filename)))) := by
  have hstart : dispositionPrefix = dispositionName ++ 58 :: (32 :: (formDataToken ++ 59 :: 32 ::
      (nameToken ++ [61, 34]))) := by decide
  have hseparator : filenameSeparator = 34 :: 59 :: 32 :: (filenameToken ++ [61, 34]) := by
    decide
  have hquoted : ∀ text, quoted text = escape (bytes text) := fun _ => rfl
  rw [dispositionLine, hstart, hquoted]
  cases field.filename with
  | none => simp [filenamePart, filenameParameter]
  | some filename => simp [filenamePart, filenameParameter, hseparator, hquoted]

theorem contentTypePrefix_eq : contentTypePrefix = contentTypeName ++ [58, 32] := by
  decide

theorem readPart_content (h : field.Valid isMime)
    (hmime : ∀ contentType, isMime contentType = true →
      ∀ b ∈ (bytes contentType).head?, isOws b = false) :
    readPart {} (content field) = some (part field) := by
  have hcolon : (58 : UInt8) ∉ dispositionName ∧ (58 : UInt8) ∉ contentTypeName := by
    decide
  have hnames : eqIgnoreAsciiCase dispositionName dispositionName = true ∧
      eqIgnoreAsciiCase dispositionName contentTypeName = false ∧
      eqIgnoreAsciiCase contentTypeName contentTypeName = true := by
    decide
  obtain ⟨turns, hturns⟩ : ∃ turns, (content field).length + 1 = turns + 3 := by
    refine ⟨(content field).length - 2, ?_⟩
    rw [content_eq]
    simp only [List.length_append, crlf, List.length_cons]
    omega
  have hlines := headerLines_content h turns
  have hdisposition : (lines field).findSome? (fieldBody dispositionName) =
      some (32 :: (formDataToken ++ 59 :: 32 :: (nameToken ++ 61 :: 34 ::
        (escape (bytes field.name) ++ 34 :: filenameParameter field.filename)))) := by
    rw [lines, List.findSome?_cons, dispositionLine_eq, fieldBody_of_eq hcolon.1, if_pos hnames.1]
  have hcontentType : (lines field).findSome? (fieldBody contentTypeName) =
      field.contentType.map fun contentType => 32 :: bytes contentType := by
    rw [lines, List.findSome?_cons, dispositionLine_eq, fieldBody_of_eq hcolon.1,
      if_neg (by simp [hnames.2.1])]
    cases field.contentType with
    | none => rfl
    | some contentType =>
      have hline : contentTypePrefix ++ bytes contentType =
          contentTypeName ++ 58 :: (32 :: bytes contentType) := by
        rw [contentTypePrefix_eq]
        simp
      simp only [Option.map_some, Option.toList_some, List.findSome?_cons]
      rw [hline, fieldBody_of_eq hcolon.2, if_pos hnames.2.2]
  have hdecoded : ((field.contentType.map fun contentType => 32 :: bytes contentType).bind
      fun value => Utf8.decode (skipOws value)) = field.contentType := by
    cases hc : field.contentType with
    | none => rfl
    | some contentType =>
      have hskip : skipOws (32 :: bytes contentType) = bytes contentType := by
        rw [skipOws, List.dropWhile_cons_of_pos (by decide)]
        exact skipOws_eq (hmime contentType (h.contentType contentType hc))
      simp [hskip, Utf8.decode_bytes]
  have hparsed := @parseContentDisposition_quoted {} field.name field.filename h.name.1 h.name.2
    (fun text htext => h.filename text htext) fun b hb =>
      (isQuotedValueByte_of_printable (field.name ++ field.filename.getD [])
        (fun c hc => h.printable c (List.mem_append_left _ hc)) hb).1
  simp only [readPart, hturns, hlines, Option.bind_eq_bind, Option.bind_some, hdisposition,
    hcontentType, hparsed, hdecoded]
  rfl

end Field

/-! ## The body -/

section Body

variable {isMime : List Char → Bool} {boundary : List UInt8} {fields : List MultipartField}

/-- What follows the first delimiter. -/
def tail (boundary : List UInt8) : List MultipartField → List UInt8
  | [] => dashes ++ crlf
  | field :: fields => crlf ++ (content field ++ (delimiter boundary ++ tail boundary fields))

theorem crlf_encoded (boundary : List Char) (fields : List MultipartField) :
    crlf ++ (fields.flatMap (encodeField boundary) ++ dashes ++ bytes boundary ++ dashes ++ crlf) =
      delimiter (bytes boundary) ++ tail (bytes boundary) fields := by
  induction fields with
  | nil => simp [crlf, dashes, delimiter, tail]
  | cons field fields ih =>
    have hfield : encodeField boundary field = dashes ++ (bytes boundary ++
        (crlf ++ (content field ++ crlf))) := by
      simp [encodeField, content]
    rw [tail, ← ih, List.flatMap_cons, hfield]
    simp [crlf, dashes, delimiter]

theorem length_le_encoded (boundary : List Char) (fields : List MultipartField) :
    fields.length ≤ (fields.flatMap (encodeField boundary)).length := by
  induction fields with
  | nil => exact le_rfl
  | cons field fields ih =>
    rw [List.flatMap_cons, List.length_append, List.length_cons]
    have hpos : 0 < (encodeField boundary field).length := by simp [encodeField, dashes]
    omega

theorem parts_tail (hfree : ∀ field ∈ fields, ¬ delimiter boundary <:+: content field)
    (hboundary : (13 : UInt8) ∉ boundary) {turns : Nat} (hturns : fields.length < turns) :
    parts boundary turns (tail boundary fields) = some (fields.map content) := by
  induction fields generalizing turns with
  | nil =>
    obtain ⟨turns, rfl⟩ : ∃ n, turns = n + 1 := ⟨turns - 1, by simp at hturns; omega⟩
    rw [parts, tail, if_pos (List.prefix_append _ _)]
    rfl
  | cons field fields ih =>
    rw [List.length_cons] at hturns
    obtain ⟨turns, rfl⟩ : ∃ n, turns = n + 1 := ⟨turns - 1, by omega⟩
    have hcut : cut (delimiter boundary)
        (content field ++ (delimiter boundary ++ tail boundary fields)) =
          some (content field, tail boundary fields) :=
      cut_append (by simp [hboundary]) (hfree field List.mem_cons_self)
    have hrest : parts boundary turns (tail boundary fields) = some (fields.map content) :=
      ih (fun field hfield => hfree field (List.mem_cons_of_mem _ hfield)) (by omega)
    have hskip : ∀ rest, skipOws (13 :: rest) = 13 :: rest :=
      fun rest => List.dropWhile_cons_of_neg (by decide)
    rw [parts, tail, if_neg (by simp [dashes, crlf])]
    simp only [crlf, List.cons_append, List.nil_append, hskip, hcut, hrest, Option.bind_eq_bind,
      Option.bind_some]
    rfl

theorem mapM_readPart (hvalid : ∀ field ∈ fields, field.Valid isMime)
    (hmime : ∀ contentType, isMime contentType = true →
      ∀ b ∈ (bytes contentType).head?, isOws b = false) :
    (fields.map content).mapM (readPart {}) = some (fields.map part) := by
  induction fields with
  | nil => rfl
  | cons field fields ih =>
    have ih := ih fun field hfield => hvalid field (List.mem_cons_of_mem _ hfield)
    have hfirst := readPart_content (hvalid field List.mem_cons_self) hmime
    rw [List.map_cons, List.mapM_cons, hfirst, ih]
    rfl

end Body

/-- For all calls that are accepted, with a generated boundary or a given one: the reported length
is that of the bytes, and a receiver reads the fields of the calls, unless a line of a value starts
with two dashes and the boundary. The MIME parser is only asked not to accept a type that starts
with a blank. -/
theorem multipart_read_back (isMime : List Char → Bool) (start : Body) (calls : List Call)
    (body : Body) (hmime : ∀ contentType, isMime contentType = true →
      ∀ b ∈ (bytes contentType).head?, isOws b = false)
    (hstart : Fresh start) (haccepted : build isMime start calls = .ok body)
    (hfree : ∀ call ∈ calls, Free (bytes start.boundary) call.field.value.bytes) :
    body.toMultipartBytes.length = body.encodedLen ∧
      readBody {} (bytes start.boundary) body.toMultipartBytes =
        some (calls.map fun call => part call.field) := by
  obtain ⟨hnew, hboundary⟩ := hstart.accepted
  generalize start.boundary = boundary at *
  subst hnew
  refine ⟨length_toMultipartBytes haccepted, ?_⟩
  obtain ⟨hvalid, hsame, hfields, -⟩ := build_ok haccepted
  have hfields : body.fields = calls.map Call.field := hfields
  have hvalid : ∀ field ∈ body.fields, field.Valid isMime := by
    rw [hfields]
    simpa using hvalid
  have hcontent : ∀ field ∈ body.fields, ¬ delimiter (bytes boundary) <:+: content field := by
    intro field hfield
    refine not_infix_content (hvalid field hfield) ?_
    rw [hfields] at hfield
    obtain ⟨call, hcall, rfl⟩ := List.mem_map.mp hfield
    exact hfree call hcall
  have hplain : (13 : UInt8) ∉ bytes boundary := fun hmem => by
    have := validateBoundary_ok hboundary 13 hmem
    revert this
    decide
  have hcut : cut (delimiter (bytes boundary)) (delimiter (bytes boundary) ++
      tail (bytes boundary) body.fields) = some ([], tail (bytes boundary) body.fields) :=
    cut_append (a := []) (by simp [hplain]) (not_infix_of_notMem List.not_mem_nil)
  have hturns : body.fields.length < body.toMultipartBytes.length + 1 := by
    have := length_le_encoded body.boundary body.fields
    simp only [Body.toMultipartBytes, List.length_append]
    omega
  have hsplit : splitBody (bytes boundary) body.toMultipartBytes =
      some (body.fields.map content) := by
    have hencoded : crlf ++ body.toMultipartBytes =
        delimiter (bytes boundary) ++ tail (bytes boundary) body.fields := by
      rw [Body.toMultipartBytes, show body.boundary = boundary from hsame]
      exact crlf_encoded boundary body.fields
    rw [splitBody, hencoded, hcut]
    exact parts_tail hcontent hplain hturns
  rw [readBody, hsplit, Option.bind_eq_bind, Option.bind_some, mapM_readPart hvalid hmime, hfields,
    List.map_map]
  rfl

/-- A file whose name has a quote and whose content is a boundary line of another boundary. -/
def sampleCall : Call :=
  .fileField ['a'] ['f', '\"'] ['t', '/', 'p'] [13, 10, 45, 45, 99]

/-- The first body of a process whose clock is not set. -/
def sampleBody : Body :=
  { fields := [sampleCall.field], boundary := generatedBoundary 0 0, encodedLen := 138 }

set_option maxRecDepth 8000 in
theorem multipart_read_back_sample :
    readBody {} (bytes (generatedBoundary 0 0)) sampleBody.toMultipartBytes =
      some [part sampleCall.field] := by
  have haccepted : build (· == ['t', '/', 'p']) (new 0 0) [sampleCall] = .ok sampleBody := by
    rfl
  refine (multipart_read_back (· == ['t', '/', 'p']) (new 0 0) [sampleCall] sampleBody ?_
    (.new 0 0) haccepted ?_).2
  · intro contentType hmime
    obtain rfl := beq_iff_eq.mp hmime
    decide
  · have hfree : Free (bytes (generatedBoundary 0 0)) sampleCall.field.value.bytes := by decide
    exact List.forall_mem_singleton.mpr hfree

/-- A text with a boundary line in it. -/
def brokenCall : Call :=
  .textField ['a'] ['x', '\r', '\n', '-', '-', 'b', '\r', '\n', 'y']

/-- One field is split into two parts. -/
theorem multipart_value_adds_part : ∃ body,
    build (fun _ => true) (fromValidBoundary ['b']) [brokenCall] = .ok body ∧
      (splitBody [98] body.toMultipartBytes).map List.length = some 2 :=
  ⟨⟨[brokenCall.field], ['b'], 67⟩, rfl, by decide⟩

end Lily.HttpClient.MultipartAgreement
