import Lily.Csrf.SignedDoubleSubmit
import Lily.Text.Delimiter

/-!
# The range of a static file that a request asks for

`requestRange` reads the `Range` field. `ByteRange` is what the grammar of RFC 9110 admits for a
single range, and `ByteRange.select` is what such a range selects.
-/

namespace Lily.WebCore.StaticFile

open Csrf (parseU64 parseU64_eq_some_iff)
open Delimiter (cut)
open Http.Forwarding (isWhitespace trim toLower_of_not_upper)
open Utf8 (bytes)

def maxStaticFileConditionBytes : Nat := 8 * 1024

inductive ParsedRange where
  | satisfiable (start stop : UInt64)
  | unsatisfiable
  deriving DecidableEq

@[grind] def chooseRange (start stop : List Char) (length : UInt64) : ParsedRange :=
  if start = [] then
    match parseU64 stop with
    | none => .unsatisfiable
    | some suffix =>
      if suffix = 0 then .unsatisfiable
      else .satisfiable (if length ≤ suffix then 0 else length - suffix) (length - 1)
  else match parseU64 start with
    | none => .unsatisfiable
    | some start =>
      if length ≤ start then .unsatisfiable
      else if stop = [] then .satisfiable start (length - 1)
      else match parseU64 stop with
        | none => .unsatisfiable
        | some stop =>
          if stop < start then .unsatisfiable
          else .satisfiable start (if stop ≤ length - 1 then stop else length - 1)

def parseRange (value : List Char) (length : UInt64) : ParsedRange :=
  match cut ['='] value with
  | none => .unsatisfiable
  | some (unit, value) =>
    if (trim unit).map Char.toLower ≠ "bytes".toList ∨ ',' ∈ value then .unsatisfiable
    else match cut ['-'] (trim value) with
      | none => .unsatisfiable
      | some (start, stop) => chooseRange (trim start) (trim stop) length

/-- The header lines of a request are names with values. -/
def requestRange (headers : List (List Char × List Char)) (length : UInt64) : Option ParsedRange :=
  match headers.filter (·.1.map Char.toLower = "range".toList) with
  | [] => none
  | [(_, value)] => some <|
    if maxStaticFileConditionBytes < (bytes value).length ∨ length = 0 then .unsatisfiable
    else parseRange value length
  | _ => some .unsatisfiable

/-! ## The grammar -/

/-- A single range: from a first position on, to a last one if there is one, or a number of bytes
at the end. -/
inductive ByteRange where
  | int (first last : List Char)
  | suffix (digits : List Char)

namespace ByteRange

def position (digits : List Char) : Nat := Nat.ofDigitChars 10 digits 0

/-- What stands before the dash and after it. -/
@[grind] def parts : ByteRange → List Char × List Char
  | int first last => (first, last)
  | suffix digits => ([], digits)

def text (r : ByteRange) : List Char := r.parts.1 ++ '-' :: r.parts.2

def WellFormed : ByteRange → Prop
  | int first last => (first ≠ [] ∧ first.all Char.isDigit) ∧ last.all Char.isDigit ∧
    (last ≠ [] → position first ≤ position last)
  | suffix digits => digits ≠ [] ∧ digits.all Char.isDigit

/-- The positions are 64-bit numbers. -/
def Fits : ByteRange → Prop
  | int first last => position first < 2 ^ 64 ∧ position last < 2 ^ 64
  | suffix digits => position digits < 2 ^ 64

/-- The value of the field is this range, with the unit in any case. -/
def IsValue (r : ByteRange) (value : List Char) : Prop :=
  r.WellFormed ∧ ∃ unit, value = unit ++ '=' :: r.text ∧ unit.map Char.toLower = "bytes".toList

@[grind] def select (length : Nat) : ByteRange → Option (Nat × Nat)
  | int first last =>
    if position first < length then
      some (position first, if last = [] then length - 1 else min (position last) (length - 1))
    else none
  | suffix digits =>
    if position digits = 0 ∨ length = 0 then none else some (length - position digits, length - 1)

end ByteRange

open ByteRange (position)

@[grind] def ParsedRange.selected : ParsedRange → Option (Nat × Nat)
  | satisfiable start stop => some (start.toNat, stop.toNat)
  | unsatisfiable => none

/-! ## What is read -/

variable {start stop : List Char} {length a b : UInt64}

theorem bounds_of_satisfiable (hlength : length ≠ 0)
    (h : chooseRange start stop length = .satisfiable a b) : a ≤ b ∧ b < length := by
  revert h
  fun_cases chooseRange start stop length
  all_goals grind

theorem head_of_digits {text : List Char} (hdigits : text.all Char.isDigit = true) :
    text.head? ≠ some '+' := fun h =>
  absurd (List.all_eq_true.mp hdigits _ (List.mem_of_mem_head? h)) (by decide)

theorem parseU64_digits {text : List Char} (hne : text ≠ [])
    (hdigits : text.all Char.isDigit = true) (hfits : position text < 2 ^ 64) :
    ∃ n, parseU64 text = some n ∧ n.toNat = position text := by
  have hvalue : (UInt64.ofNat (position text)).toNat = position text := by
    rw [UInt64.toNat_ofNat', Nat.mod_eq_of_lt hfits]
  exact ⟨_, (parseU64_eq_some_iff (head_of_digits hdigits)).mpr ⟨hne, hdigits, hvalue.symm⟩, hvalue⟩

theorem parseU64_beyond {text : List Char} (hdigits : text.all Char.isDigit = true)
    (hbeyond : ¬position text < 2 ^ 64) : parseU64 text = none := by
  cases hparsed : parseU64 text with
  | none => rfl
  | some n =>
    obtain ⟨-, -, hvalue⟩ := (parseU64_eq_some_iff (head_of_digits hdigits)).mp hparsed
    exact absurd (hvalue.trans_lt n.toNat_lt) hbeyond

theorem bounds_of_parseRange {value : List Char} (hlength : length ≠ 0)
    (h : parseRange value length = .satisfiable a b) : a ≤ b ∧ b < length := by
  revert h
  fun_cases parseRange value length with
  | case4 => exact bounds_of_satisfiable hlength
  | _ => nofun

theorem selected_chooseRange {r : ByteRange} (hlength : length ≠ 0) (hwell : r.WellFormed)
    (hfits : r.Fits) :
    (chooseRange r.parts.1 r.parts.2 length).selected = r.select length.toNat := by
  have hpos : length.toNat ≠ 0 := fun h => hlength (UInt64.toNat_inj.mp h)
  cases r with
  | suffix digits =>
    obtain ⟨n, hn, hvalue⟩ := parseU64_digits hwell.1 hwell.2 hfits
    have hlt := length.toNat_lt
    simp only [ByteRange.parts, chooseRange, hn, ByteRange.select, ← hvalue, ← UInt64.toNat_inj,
      UInt64.le_iff_toNat_le]
    split_ifs <;> simp_all [ParsedRange.selected, UInt64.toNat_sub]
    all_goals omega
  | int first last =>
    obtain ⟨⟨hne, hdigits⟩, hdigits', horder⟩ := hwell
    obtain ⟨n, hn, hvalue⟩ := parseU64_digits hne hdigits hfits.1
    by_cases hlast : last = []
    · grind [UInt64.toNat_sub_of_le, UInt64.le_iff_toNat_le]
    · obtain ⟨m, hm, hvalue'⟩ := parseU64_digits hlast hdigits' hfits.2
      grind [UInt64.toNat_sub_of_le, UInt64.le_iff_toNat_le, UInt64.lt_iff_toNat_lt]

/-- A position that is not a 64-bit number is refused, also where it only marks the end. -/
theorem chooseRange_beyond {r : ByteRange} (hwell : r.WellFormed) (hfits : ¬r.Fits) :
    chooseRange r.parts.1 r.parts.2 length = .unsatisfiable := by
  cases r with
  | suffix digits => simp [ByteRange.parts, chooseRange, parseU64_beyond hwell.2 hfits]
  | int first last =>
    obtain ⟨⟨hne, hdigits⟩, hdigits', -⟩ := hwell
    simp only [ByteRange.parts, chooseRange, hne, if_false]
    cases hfirst : parseU64 first with
    | none => rfl
    | some n =>
      have hlast : ¬position last < 2 ^ 64 := fun hlast => hfits ⟨by_contra fun hbeyond => by
        simp [parseU64_beyond hdigits hbeyond] at hfirst, hlast⟩
      have hsome : last ≠ [] := by
        rintro rfl
        exact hlast (by decide)
      simp [hsome, parseU64_beyond hdigits' hlast]

/-- The code selects what a range selects exactly if its positions fit, or there is nothing to be
selected. -/
theorem selected_chooseRange_iff {r : ByteRange} (hlength : length ≠ 0) (hwell : r.WellFormed) :
    (chooseRange r.parts.1 r.parts.2 length).selected = r.select length.toNat ↔
      (r.select length.toNat ≠ none → r.Fits) := by
  by_cases hfits : r.Fits
  · exact iff_of_true (selected_chooseRange hlength hwell hfits) fun _ => hfits
  · rw [chooseRange_beyond hwell hfits, ParsedRange.selected, eq_comm]
    simp [hfits]

theorem ByteRange.WellFormed.digits {r : ByteRange} (h : r.WellFormed) {c : Char}
    (hc : c ∈ r.parts.1 ++ r.parts.2) : c.isDigit = true := by
  cases r with
  | suffix digits => exact List.all_eq_true.mp h.2 c hc
  | int first last =>
    rcases List.mem_append.mp hc with hc | hc
    · exact List.all_eq_true.mp h.1.2 c hc
    · exact List.all_eq_true.mp h.2.1 c hc

theorem trim_plain {text : List Char} (h : ∀ c ∈ text, isWhitespace c = false) :
    trim text = text := by
  have hdrop (l : List Char) (hl : ∀ c ∈ l, isWhitespace c = false) :
      l.dropWhile isWhitespace = l := by
    cases l with
    | nil => rfl
    | cons c l => simp [hl c]
  rw [trim, hdrop text h, hdrop _ (by simpa using h), List.reverse_reverse]

theorem isWhitespace_of_visible {c : Char} (h : 33 ≤ c.toNat) (h' : c.toNat ≤ 126) :
    isWhitespace c = false := by
  simp [isWhitespace]
  omega

theorem isWhitespace_of_unit {unit : List Char} (hunit : unit.map Char.toLower = "bytes".toList)
    {c : Char} (hc : c ∈ unit) : isWhitespace c = false := by
  by_cases hupper : 65 ≤ c.val ∧ c.val ≤ 90
  · have hlow : 65 ≤ c.toNat := hupper.1
    have hhigh : c.toNat ≤ 90 := hupper.2
    exact isWhitespace_of_visible (by omega) (by omega)
  · have hmem : c.toLower ∈ "bytes".toList := hunit ▸ List.mem_map_of_mem hc
    rw [toLower_of_not_upper hupper] at hmem
    have hplain : "bytes".toList.all (!isWhitespace ·) = true := by decide
    simpa using List.all_eq_true.mp hplain c hmem

namespace ByteRange

variable {r r' : ByteRange} {value : List Char}

theorem WellFormed.text_plain (h : r.WellFormed) {c : Char} (hc : c ∈ r.text) :
    isWhitespace c = false ∧ c ≠ ',' := by
  have hcases : c = '-' ∨ c.isDigit = true := by
    rcases List.mem_append.mp hc with hc | hc
    · exact .inr (h.digits (List.mem_append_left _ hc))
    · exact (List.mem_cons.mp hc).imp_right fun hc => h.digits (List.mem_append_right _ hc)
  rcases hcases with rfl | hdigit
  · decide
  · have hrange : 48 ≤ c.toNat ∧ c.toNat ≤ 57 := by
      simpa [Char.isDigit, UInt32.le_iff_toNat_le] using hdigit
    refine ⟨isWhitespace_of_visible (by omega) (by omega), ?_⟩
    rintro rfl
    revert hdigit
    decide

/-- How a range is cut out of the value of its field. -/
theorem IsValue.cut (h : r.IsValue value) : ∃ unit, unit.map Char.toLower = "bytes".toList ∧
    cut ['='] value = some (unit, r.text) ∧ Delimiter.cut ['-'] r.text = some r.parts := by
  obtain ⟨hwell, unit, rfl, hunit⟩ := h
  have hequals : '=' ∉ unit := fun h =>
    absurd (hunit ▸ List.mem_map_of_mem h : Char.toLower '=' ∈ "bytes".toList) (by decide)
  have hdash : '-' ∉ r.parts.1 := fun h =>
    absurd (hwell.digits (List.mem_append_left _ h)) (by decide)
  exact ⟨unit, hunit, Delimiter.cut_append (by simp) (Delimiter.not_infix_of_notMem hequals),
    Delimiter.cut_append (by simp) (Delimiter.not_infix_of_notMem hdash)⟩

/-- A value has one reading. -/
theorem IsValue.unique (h : r.IsValue value) (h' : r'.IsValue value) : r = r' := by
  obtain ⟨unit, -, hcut, hparts⟩ := h.cut
  obtain ⟨unit', -, hcut', hparts'⟩ := h'.cut
  obtain ⟨-, htext⟩ := Prod.mk.inj (Option.some.inj (hcut.symm.trans hcut'))
  rw [htext] at hparts
  have hsame := Option.some.inj (hparts.symm.trans hparts')
  cases r with
  | int first last =>
    cases r' with
    | int first' last' => simpa [parts] using hsame
    | suffix digits => exact absurd (congrArg Prod.fst hsame) h.1.1.1
  | suffix digits =>
    cases r' with
    | int first last => exact absurd (congrArg Prod.fst hsame).symm h'.1.1.1
    | suffix digits' => simpa [parts] using hsame

theorem IsValue.parseRange_eq (h : r.IsValue value) :
    parseRange value length = chooseRange r.parts.1 r.parts.2 length := by
  obtain ⟨unit, hunit, hcut, hparts⟩ := h.cut
  have htrim (text : List Char) (hsub : text ⊆ r.text) : trim text = text :=
    trim_plain fun c hc => (h.1.text_plain (hsub hc)).1
  have hcomma : ',' ∉ r.text := fun hmem => (h.1.text_plain hmem).2 rfl
  simp only [parseRange, hcut, trim_plain fun c => isWhitespace_of_unit hunit, hunit, hcomma,
    htrim r.text (List.Subset.refl _), hparts, ne_eq, not_true, or_self, if_false]
  rw [htrim r.parts.1 (by grind [text]), htrim r.parts.2 (by grind [text])]

end ByteRange

/-! ## What is answered -/

/-- The answer of RFC 9110 to the value of the field: a range of the grammar is satisfiable if it
selects bytes, and unsatisfiable if it selects none; an empty file has no satisfiable range. -/
structure Specified (value : List Char) (length : UInt64) (answer : Option ParsedRange) : Prop where
  satisfiable : ∀ a b, answer = some (.satisfiable a b) ↔
    ∃ r : ByteRange, r.IsValue value ∧ r.select length.toNat = some (a.toNat, b.toNat)
  unsatisfiable : answer = some .unsatisfiable ↔
    length = 0 ∨ ∃ r : ByteRange, r.IsValue value ∧ r.select length.toNat = none

/-- The value is a range of the grammar. If it selects bytes of the file, the value has at most
8 KiB and its positions are 64-bit numbers. -/
def Readable (value : List Char) (length : UInt64) : Prop :=
  length = 0 ∨ ∃ r : ByteRange, r.IsValue value ∧ (r.select length.toNat ≠ none →
    (bytes value).length ≤ maxStaticFileConditionBytes ∧ r.Fits)

variable {r : ByteRange} {value : List Char} {answer : ParsedRange}

theorem select_empty (r : ByteRange) : r.select 0 = none := by
  cases r <;> simp [ByteRange.select]

theorem exists_isValue_iff (h : r.IsValue value) {P : ByteRange → Prop} :
    (∃ r : ByteRange, r.IsValue value ∧ P r) ↔ P r :=
  ⟨fun ⟨_, h', hP⟩ => h.unique h' ▸ hP, fun hP => ⟨r, h, hP⟩⟩

theorem specified_iff (h : r.IsValue value) :
    Specified value length (some answer) ↔ answer.selected = r.select length.toNat := by
  have hempty : length = 0 → r.select length.toNat = none := fun hzero => hzero ▸ select_empty r
  constructor
  · intro hspecified
    cases answer with
    | satisfiable a b =>
      exact ((exists_isValue_iff h).mp ((hspecified.satisfiable a b).mp rfl)).symm
    | unsatisfiable =>
      exact ((hspecified.unsatisfiable.mp rfl).elim hempty (exists_isValue_iff h).mp).symm
  · intro hselected
    refine ⟨fun a b => ?_, ?_⟩
    · rw [exists_isValue_iff h, ← hselected]
      cases answer <;> simp [ParsedRange.selected, UInt64.toNat_inj]
    · rw [exists_isValue_iff h, or_iff_right_of_imp hempty, ← hselected]
      cases answer <;> simp [ParsedRange.selected]

/-- The bounds hold of every request. With one `Range` field the answer is the one of the RFC if
and only if the value is readable. -/
theorem request_range_specified_iff (length : UInt64) :
    (∀ headers a b, requestRange headers length = some (.satisfiable a b) → a ≤ b ∧ b < length) ∧
    ∀ headers name value, headers.filter (·.1.map Char.toLower = "range".toList) = [(name, value)] →
      (Specified value length (requestRange headers length) ↔ Readable value length) := by
  refine ⟨fun headers a b h => ?_, fun headers name value hone => ?_⟩
  · unfold requestRange at h
    split at h
    next => cases h
    next =>
      split at h
      next => cases h
      next hlength =>
        exact bounds_of_parseRange (not_or.mp hlength).2 (Option.some.inj h)
    next => cases h
  · simp only [requestRange, hone]
    by_cases hlength : length = 0
    · subst hlength
      simp only [or_true, if_true]
      exact iff_of_true ⟨by simp [select_empty], by simp⟩ (.inl rfl)
    by_cases hvalue : ∃ r : ByteRange, r.IsValue value
    · obtain ⟨r, hr⟩ := hvalue
      rw [specified_iff hr, Readable, exists_isValue_iff hr, or_iff_right hlength]
      by_cases hsize : maxStaticFileConditionBytes < (bytes value).length
      · simp [hsize, not_le.mpr hsize, ParsedRange.selected, eq_comm]
      · simp only [hsize, hlength, or_self, if_false, not_lt.mp hsize, true_and, hr.parseRange_eq]
        exact selected_chooseRange_iff hlength hr.1
    · -- whatever is answered, the RFC has nothing for a value outside the grammar
      have hnone {P : ByteRange → Prop} : ¬∃ r : ByteRange, r.IsValue value ∧ P r :=
        fun ⟨r, hr, _⟩ => hvalue ⟨r, hr⟩
      refine iff_of_false (fun hspecified => ?_) (not_or.mpr ⟨hlength, hnone⟩)
      cases hanswer : (if maxStaticFileConditionBytes < (bytes value).length ∨ length = 0
          then .unsatisfiable else parseRange value length : ParsedRange) with
      | satisfiable a b => exact hnone ((hspecified.satisfiable a b).mp (congrArg some hanswer))
      | unsatisfiable =>
        exact (hspecified.unsatisfiable.mp (congrArg some hanswer)).elim hlength hnone

/-- A last position of 65 bits stands for the end of the file, and is refused. -/
theorem request_range_beyond_u64 :
    let r : ByteRange := .int "0".toList "18446744073709551616".toList
    r.IsValue "bytes=0-18446744073709551616".toList ∧ r.select 10 = some (0, 9) ∧
      requestRange [("range".toList, "bytes=0-18446744073709551616".toList)] 10 =
        some .unsatisfiable := by
  refine ⟨⟨⟨?_, ?_⟩, "bytes".toList, rfl, rfl⟩, ?_, ?_⟩
  all_goals decide

/-! ## The bytes of the range -/

def staticFileChunkBytes : Nat := 64 * 1024

inductive StreamEnd where
  /-- Another read is awaited. -/
  | running
  | complete
  | failed

/-- A read fails or returns, of the bytes that are left, one and some `more` at most. -/
def fileByteStream (content : List UInt8) :
    Nat → Nat → List (Option Nat) → List (List UInt8) × StreamEnd
  | _, 0, _ => ([], .complete)
  | _, _ + 1, [] => ([], .running)
  | _, _ + 1, none :: _ => ([], .failed)
  | offset, remaining + 1, some more :: reads =>
    let chunk := (content.drop offset).take
      (min (min (remaining + 1) staticFileChunkBytes) (more + 1))
    if chunk = [] then ([], .failed)
    else
      let later := fileByteStream content (offset + chunk.length)
        (remaining + 1 - chunk.length) reads
      (chunk :: later.1, later.2)

/-- Whatever the reads return, the chunks are bounded and are a first part of the range. The stream
ends only with the last byte of the range, which the reads come to if the file has it; if not, the
stream fails. -/
theorem file_byte_stream_exact (content : List UInt8) (offset length : Nat)
    (reads : List (Option Nat)) :
    let stream := fileByteStream content offset length reads
    (∀ chunk ∈ stream.1, chunk.length ≤ staticFileChunkBytes) ∧
      stream.1.flatten <+: (content.drop offset).take length ∧
      (stream.2 = .complete →
        stream.1.flatten = (content.drop offset).take length ∧
          stream.1.flatten.length = length) ∧
      (none ∉ reads → length ≤ reads.length → stream.2 =
        if offset + length ≤ content.length ∨ length = 0 then .complete else .failed) := by
  fun_induction fileByteStream content offset length reads with
  | case1 | case2 | case3 => simp
  | case4 offset remaining more reads chunk hempty =>
    have hended : content.length ≤ offset := by
      simpa [chunk, List.take_eq_nil_iff, staticFileChunkBytes] using hempty
    simp
    omega
  | case5 offset remaining more reads chunk hempty later ih =>
    obtain ⟨hbound, hpre, hcomplete, hends⟩ := ih
    have hsome : 0 < chunk.length := List.length_pos_iff.2 hempty
    obtain ⟨hbytes, hremaining, hleft⟩ : chunk.length ≤ staticFileChunkBytes ∧
        chunk.length ≤ remaining + 1 ∧ chunk.length ≤ content.length - offset := by
      simp [chunk]
    -- The range is the chunk and the range that the next read starts from.
    have hrange : (content.drop offset).take (remaining + 1) = chunk ++
        (content.drop (offset + chunk.length)).take (remaining + 1 - chunk.length) := by
      rw [← List.drop_drop, ← List.drop_take]
      have hchunk : chunk = ((content.drop offset).take (remaining + 1)).take chunk.length := by
        simp [chunk, List.take_take, List.take_eq_take_iff]
      conv_rhs => lhs; rw [hchunk]
      exact (List.take_append_drop ..).symm
    rw [hrange]
    refine ⟨List.forall_mem_cons.2 ⟨hbytes, hbound⟩, by simpa using hpre, fun h => ?_, ?_⟩
    · obtain ⟨hall, hlen⟩ := hcomplete h
      exact ⟨by simp [hall, later], by simp [hlen, later]; omega⟩
    · intro hnone henough
      rw [hends (by simp_all) (by simp at henough; omega)]
      exact if_congr (by omega) rfl rfl

end Lily.WebCore.StaticFile
