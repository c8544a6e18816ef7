import Lily.Text.Hex
import Mathlib.Algebra.Group.Action.Defs
import Mathlib.Algebra.Order.BigOperators.Group.List

/-!
# JSON trees and their compact text

A tree is written without blanks, its strings with the short escapes and the six-byte ones for the
other control characters. What counts for limits is the number of bytes, so every part has a bound
on its size: a string grows at most sixfold.

A record is read from an object that has each of its fields at most once and no others, or from an
array with the fields in their order, which may end early.
-/

inductive Json where
  | null
  | bool (value : Bool)
  | int (value : Int)
  /-- A floating point number, as it is written. -/
  | float (literal : String)
  | string (value : String)
  | array (items : List Json)
  | object (fields : List (String × Json))
  deriving Inhabited

namespace Json

/-! ## Text -/

def escapeChar (c : Char) : List Char :=
  if c = '"' then ['\\', '"']
  else if c = '\\' then ['\\', '\\']
  else if c = '\x08' then ['\\', 'b']
  else if c = '\x0c' then ['\\', 'f']
  else if c = '\n' then ['\\', 'n']
  else if c = '\r' then ['\\', 'r']
  else if c = '\t' then ['\\', 't']
  else if c.toNat < 0x20 then
    ['\\', 'u', '0', '0', Hex.digitChar (c.toNat / 16), Hex.digitChar (c.toNat % 16)]
  else [c]

def quote (s : String) : String :=
  "\"" ++ String.ofList (s.toList.flatMap escapeChar) ++ "\""

def joined : List String → String
  | [] => ""
  | [text] => text
  | text :: rest => text ++ "," ++ joined rest

mutual

def print : Json → String
  | .null => "null"
  | .bool value => if value then "true" else "false"
  | .int value => toString value
  | .float literal => literal
  | .string value => quote value
  | .array items => "[" ++ joined (texts items) ++ "]"
  | .object fields => "\x7b" ++ joined (fieldTexts fields) ++ "\x7d"

def texts : List Json → List String
  | [] => []
  | item :: rest => print item :: texts rest

def fieldTexts : List (String × Json) → List String
  | [] => []
  | field :: rest => fieldText field :: fieldTexts rest

def fieldText : String × Json → String
  | (name, value) => quote name ++ ":" ++ print value

end

/-! ## Sizes -/

/-- The number of bytes of the text. -/
def size (value : Json) : Nat := value.print.utf8ByteSize

theorem utf8Len_escapeChar_le (c : Char) : String.utf8Len (escapeChar c) ≤ 6 * c.utf8Size := by
  have hpos := c.utf8Size_pos
  have hshort : 2 ≤ 6 * c.utf8Size := by omega
  unfold escapeChar
  split_ifs with _ _ _ _ _ _ _ hcontrol
  iterate 7 exact hshort
  · have hhigh := Hex.utf8Size_digitChar (c.toNat / 16) (by omega)
    have hlow := Hex.utf8Size_digitChar (c.toNat % 16) (by omega)
    have hsix : String.utf8Len
        ['\\', 'u', '0', '0', Hex.digitChar (c.toNat / 16), Hex.digitChar (c.toNat % 16)] = 6 := by
      simp only [String.utf8Len_cons, String.utf8Len_nil, hhigh, hlow]
      rfl
    omega
  · rw [String.utf8Len_cons, String.utf8Len_nil]
    omega

theorem utf8Len_escape_le (cs : List Char) :
    String.utf8Len (cs.flatMap escapeChar) ≤ 6 * String.utf8Len cs := by
  induction cs with
  | nil => exact Nat.le_refl 0
  | cons c cs ih =>
    rw [List.flatMap_cons, String.utf8Len_append, String.utf8Len_cons]
    have hc := utf8Len_escapeChar_le c
    omega

/-- A string grows at most sixfold, and gets its quotes. -/
theorem size_quote_le (s : String) : (quote s).utf8ByteSize ≤ 6 * s.utf8ByteSize + 2 := by
  have hescape := utf8Len_escape_le s.toList
  have hsize : String.utf8Len s.toList = s.utf8ByteSize := by
    rw [← String.utf8ByteSize_ofList, String.ofList_toList]
  have hquote : "\"".utf8ByteSize = 1 := rfl
  rw [quote, String.utf8ByteSize_append, String.utf8ByteSize_append, hquote,
    String.utf8ByteSize_ofList]
  omega

theorem size_string_le (s : String) : (string s).size ≤ 6 * s.utf8ByteSize + 2 := by
  rw [size, print]
  exact size_quote_le s

/-- There is a comma between two texts. -/
theorem size_joined (parts : List String) :
    (joined parts).utf8ByteSize = (parts.map String.utf8ByteSize).sum + (parts.length - 1) := by
  induction parts with
  | nil => rfl
  | cons text rest ih =>
    have hcomma : ",".utf8ByteSize = 1 := rfl
    rw [List.map_cons, List.sum_cons, List.length_cons]
    cases rest with
    | nil =>
      rw [joined, List.map_nil, List.sum_nil, List.length_nil]
      omega
    | cons next rest =>
      rw [joined, String.utf8ByteSize_append, String.utf8ByteSize_append, hcomma, ih,
        List.length_cons]
      · omega
      · simp

theorem size_joined_le (parts : List String) :
    (joined parts).utf8ByteSize ≤ (parts.map fun text => text.utf8ByteSize + 1).sum := by
  rw [size_joined, List.sum_map_add, List.map_const', List.sum_replicate, smul_eq_mul]
  omega

theorem texts_eq (items : List Json) : texts items = items.map print := by
  induction items with
  | nil => rw [texts, List.map_nil]
  | cons item rest ih => rw [texts, ih, List.map_cons]

variable (fields : List (String × Json))

theorem fieldTexts_eq : fieldTexts fields = fields.map fieldText := by
  induction fields with
  | nil => rw [fieldTexts, List.map_nil]
  | cons field rest ih => rw [fieldTexts, ih, List.map_cons]

theorem size_array_le (items : List Json) :
    (array items).size ≤ (items.map fun item => item.size + 1).sum + 2 := by
  have hjoined := size_joined_le (items.map print)
  have hopen : "[".utf8ByteSize = 1 := rfl
  have hclose : "]".utf8ByteSize = 1 := rfl
  rw [List.map_map] at hjoined
  rw [size, print, texts_eq, String.utf8ByteSize_append, String.utf8ByteSize_append, hopen, hclose]
  simp only [Function.comp_def] at hjoined
  simp only [size]
  omega

/-- A field takes its name, a colon and a comma besides its value. -/
def fieldSize (field : String × Json) : Nat := (quote field.1).utf8ByteSize + field.2.size + 2

theorem size_object_le : (object fields).size ≤ (fields.map fieldSize).sum + 2 := by
  have hjoined := size_joined_le (fields.map fieldText)
  have hopen : "\x7b".utf8ByteSize = 1 := rfl
  have hclose : "\x7d".utf8ByteSize = 1 := rfl
  have hfield (field : String × Json) : (fieldText field).utf8ByteSize + 1 = fieldSize field := by
    have hcolon : ":".utf8ByteSize = 1 := rfl
    rw [fieldText, String.utf8ByteSize_append, String.utf8ByteSize_append, hcolon, fieldSize, size]
    omega
  rw [List.map_map] at hjoined
  have hsum : (fields.map ((fun text => text.utf8ByteSize + 1) ∘ fieldText)).sum =
      (fields.map fieldSize).sum := by
    congr 1
    exact List.map_congr_left fun field _ => hfield field
  rw [size, print, fieldTexts_eq, String.utf8ByteSize_append, String.utf8ByteSize_append, hopen,
    hclose]
  omega

theorem size_object_pos : 0 < (object fields).size := by
  have hopen : "\x7b".utf8ByteSize = 1 := rfl
  rw [size, print, String.utf8ByteSize_append, String.utf8ByteSize_append, hopen]
  omega

/-- The order of the fields does not count. -/
theorem size_object_perm {fields fields' : List (String × Json)} (h : fields.Perm fields') :
    (object fields).size = (object fields').size := by
  have hsum := ((h.map fieldText).map String.utf8ByteSize).sum_eq
  have hlength := (h.map fieldText).length_eq
  simp only [size, print, fieldTexts_eq, String.utf8ByteSize_append, size_joined, hsum, hlength]

theorem size_object_congr (front : List (String × Json)) (name : String) {value value' : Json}
    (h : value.size = value'.size) :
    (object (front ++ [(name, value)])).size = (object (front ++ [(name, value')])).size := by
  rw [size, size] at h
  simp only [size, print, fieldTexts_eq, String.utf8ByteSize_append, size_joined, List.map_append,
    List.map_cons, List.map_nil, fieldText, h, List.sum_append, List.length_append, List.sum_cons,
    List.length_cons]

theorem size_array_map_le {α : Type} {f : α → Json} {l : List α} {bound count : Nat}
    (hlength : l.length ≤ count) (h : ∀ a ∈ l, (f a).size ≤ bound) :
    (array (l.map f)).size ≤ count * (bound + 1) + 2 := by
  have hsum := List.sum_le_card_nsmul ((l.map f).map fun item => item.size + 1) (bound + 1) ?_
  · rw [List.length_map, List.length_map, smul_eq_mul] at hsum
    exact (size_array_le (l.map f)).trans
      (Nat.add_le_add_right (hsum.trans (Nat.mul_le_mul_right _ hlength)) 2)
  · simpa using h

/-! ## Records -/

/-- The fields of a record with these names, if the value can be read as one. -/
def members (names : List String) : Json → Option (String → Option Json)
  | .object fields =>
    if (fields.map Prod.fst).Nodup ∧ ∀ name ∈ fields.map Prod.fst, name ∈ names then
      some fun name => fields.lookup name
    else none
  | .array items =>
    if items.length ≤ names.length then some fun name => (names.zip items).lookup name else none
  | _ => none

variable (fields : List (String × Option Json))

/-- The fields of a record that are written. -/
def present : List (String × Json) :=
  fields.filterMap fun field => field.2.map (Prod.mk field.1)

/-- A record, of which some fields may be left out. -/
def record : Json := .object (present fields)

theorem names_present : ((present fields).map Prod.fst).Sublist (fields.map Prod.fst) := by
  induction fields with
  | nil => exact List.Sublist.slnil
  | cons field rest ih =>
    obtain ⟨name, value⟩ := field
    cases value with
    | none => exact ih.cons name
    | some value => exact ih.cons_cons name

variable {fields : List (String × Option Json)}

theorem lookup_present (hnodup : (fields.map Prod.fst).Nodup)
    (name : String) : (present fields).lookup name = (fields.lookup name).join := by
  induction fields with
  | nil => rfl
  | cons field rest ih =>
    obtain ⟨first, value⟩ := field
    rw [List.map_cons, List.nodup_cons] at hnodup
    obtain rfl | hname := eq_or_ne name first
    · cases value with
      | some value => simp [present]
      | none =>
        -- The name is not among the other fields.
        have hrest : rest.lookup name = none := by
          rw [List.lookup_eq_none_iff]
          intro other hother
          rw [bne_iff_ne]
          rintro rfl
          exact hnodup.1 (List.mem_map.mpr ⟨other, hother, rfl⟩)
        have hskip : (present rest).lookup name = none := by rw [ih hnodup.2, hrest]; rfl
        simpa [present] using hskip
    · have hskip : (present ((first, value) :: rest)).lookup name = (present rest).lookup name := by
        cases value with
        | none => rfl
        | some value => simp [present, List.lookup_cons, beq_eq_false_iff_ne.mpr hname]
      rw [hskip, ih hnodup.2, List.lookup_cons, beq_eq_false_iff_ne.mpr hname]

/-- The field at a position of a record. -/
theorem lookup_of_getElem (hnodup : (fields.map Prod.fst).Nodup) {k : Nat} {name : String}
    {value : Option Json}
    (h : fields[k]? = some (name, value)) : fields.lookup name = some value := by
  induction fields generalizing k with
  | nil => cases h
  | cons field rest ih =>
    rw [List.map_cons, List.nodup_cons] at hnodup
    cases k with
    | zero =>
      cases h
      exact List.lookup_cons_self
    | succ k =>
      rw [List.getElem?_cons_succ] at h
      have hmem : name ∈ rest.map Prod.fst :=
        List.mem_map.mpr ⟨_, List.mem_of_getElem? h, rfl⟩
      have hne : (name == field.1) = false := by
        rw [beq_eq_false_iff_ne]
        rintro rfl
        exact hnodup.1 hmem
      rw [List.lookup_cons, hne]
      exact ih hnodup.2 h

/-- A record is read back. -/
theorem members_record (hnodup : (fields.map Prod.fst).Nodup) :
    (record fields).members (fields.map Prod.fst) = some fun name => (fields.lookup name).join := by
  have hsub := names_present fields
  rw [record, members, if_pos ⟨hnodup.sublist hsub, fun name hname => hsub.subset hname⟩]
  congr 1
  funext name
  exact lookup_present hnodup name

def optionalSize (field : String × Option Json) : Nat :=
  field.2.elim 0 fun value => fieldSize (field.1, value)

theorem size_record_le (fields : List (String × Option Json)) :
    (record fields).size ≤ (fields.map optionalSize).sum + 2 := by
  have hsum : ((present fields).map fieldSize).sum = (fields.map optionalSize).sum := by
    induction fields with
    | nil => rfl
    | cons field rest ih =>
      obtain ⟨name, value⟩ := field
      cases value with
      | none => simpa [present, optionalSize] using ih
      | some value => simpa [present, optionalSize] using ih
  rw [← hsum]
  exact size_object_le (present fields)

theorem optionalSize_le (name : String) {value : Option Json} {bound : Nat}
    (h : ∀ v ∈ value, v.size ≤ bound) :
    optionalSize (name, value) ≤ 6 * name.utf8ByteSize + bound + 4 := by
  have hname := size_quote_le name
  cases value with
  | none => exact Nat.zero_le _
  | some value =>
    have hvalue := h value rfl
    rw [optionalSize, Option.elim_some, fieldSize]
    dsimp only
    omega

theorem optionalSize_some_le (name : String) {value : Json} {bound : Nat} (h : value.size ≤ bound) :
    optionalSize (name, some value) ≤ 6 * name.utf8ByteSize + bound + 4 :=
  optionalSize_le name fun _ hvalue => Option.some.inj hvalue ▸ h

def asString : Json → Option String
  | .string value => some value
  | _ => none

def asInt : Json → Option Int
  | .int value => some value
  | _ => none

/-- The name of a variant without data. -/
def asVariant : Json → Option String
  | .string name => some name
  | .object [(name, .null)] => some name
  | _ => none

variable {α : Type} {read : Json → Option α} {write : α → Json}

def asList (read : Json → Option α) : Json → Option (List α)
  | .array items => items.mapM read
  | _ => none

/-- A field that may be missing or null. -/
def asOptional (read : Json → Option α) : Option Json → Option (Option α)
  | none | some .null => some none
  | some value => (read value).map some

theorem asOptional_map (hread : ∀ a, read (write a) = some a) (hnull : ∀ a, write a ≠ .null)
    (value : Option α) : asOptional read (value.map write) = some value := by
  cases value with
  | none => rfl
  | some a =>
    rw [Option.map_some, asOptional]
    · rw [hread, Option.map_some]
    · exact hnull a

theorem asList_array (hread : ∀ a, read (write a) = some a) (values : List α) :
    asList read (.array (values.map write)) = some values := by
  rw [asList]
  induction values with
  | nil => rfl
  | cons a rest ih => rw [List.map_cons, List.mapM_cons, hread, ih]; rfl

end Json
