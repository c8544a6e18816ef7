import Lily.WebCore.ByteRange

/-!
# The entity tags that a request names

`ifNoneMatch` reads the `If-None-Match` fields. An `EntityTag` is what RFC 9110 admits; tags are
weakly equal if their contents are.
-/

namespace Lily.WebCore.StaticFile

open Http.Forwarding (isWhitespace trim)
open Utf8 (bytes)

def isTagByte (b : UInt8) : Bool := b == 0x21 || (0x23 ≤ b && b ≤ 0x7E) || 0x80 ≤ b

def normalizeEntityTag (value : List Char) : Option (List Char) :=
  let value := match value with
    | 'W' :: '/' :: rest => rest
    | _ => value
  if (bytes value).length < 2 ∨ value.head? ≠ some '"' ∨ value.getLast? ≠ some '"' then none
  else if (bytes (value.drop 1).dropLast).all isTagByte then some value
  else none

def conditionValues (headers : List (List Char × List Char)) : List (List Char) :=
  (headers.filter (·.1.map Char.toLower = "if-none-match".toList)).map Prod.snd

/-- `none` is `InvalidConditionalRequest`, the only error: it does not matter which of the checks
fails first. -/
def matchTags (current : List Char) (elements : List (List Char)) : Option Bool := do
  let candidates ← (elements.filter (· ≠ ['*'])).mapM normalizeEntityTag
  let wildcard := elements.contains ['*']
  if wildcard ∧ candidates ≠ [] then none else some (wildcard || candidates.contains current)

/-- The server's own tag is expected to be valid. -/
def ifNoneMatch (current : List Char) (headers : List (List Char × List Char)) :
    Option (Option Bool) := do
  let current ← normalizeEntityTag current
  let values := conditionValues headers
  if maxStaticFileConditionBytes < (values.map fun value => (bytes value).length).sum then none
  else
    let matched ← matchTags current ((values.flatMap (·.splitOn ',')).map trim)
    some (if values = [] then none else some matched)

/-! ## The grammar -/

structure EntityTag where
  weak : Bool
  content : List Char
  valid : (bytes content).all isTagByte = true

def EntityTag.quoted (tag : EntityTag) : List Char := '"' :: (tag.content ++ ['"'])

def EntityTag.text (tag : EntityTag) : List Char :=
  if tag.weak then 'W' :: '/' :: tag.quoted else tag.quoted

/-- A tag in a list, with white space around it. -/
structure Element where
  before : List Char
  tag : EntityTag
  later : List Char
  blank : ∀ c ∈ before ++ later, isWhitespace c = true

def Element.text (e : Element) : List Char := e.before ++ e.tag.text ++ e.later

def fieldValue (elements : List Element) : List Char :=
  [','].intercalate (elements.map Element.text)

theorem normalizeEntityTag_text (tag : EntityTag) :
    normalizeEntityTag tag.text = some tag.quoted := by
  have hlength : 2 ≤ (bytes ('"' :: (tag.content ++ ['"']))).length := by
    simp [bytes, String.utf8EncodeChar]
  cases hweak : tag.weak
  all_goals
    simp [EntityTag.text, hweak, normalizeEntityTag, tag.valid, EntityTag.quoted,
      List.getLast?_cons]
    omega

theorem trim_surrounded {before text later : List Char}
    (hblank : ∀ c ∈ before ++ later, isWhitespace c = true)
    (hfirst : ∀ c ∈ text.head?, isWhitespace c = false)
    (hlast : ∀ c ∈ text.getLast?, isWhitespace c = false) (htext : text ≠ []) :
    trim (before ++ text ++ later) = text := by
  have hdrop (blank text : List Char) (hblank : ∀ c ∈ blank, isWhitespace c = true)
      (hfirst : ∀ c ∈ text.head?, isWhitespace c = false) :
      (blank ++ text).dropWhile isWhitespace = text := by
    rw [List.dropWhile_append_of_pos hblank]
    cases text <;> simp_all
  rw [trim, List.append_assoc, hdrop before _ (by simp_all) (by cases text <;> simp_all),
    List.reverse_append, hdrop _ _ (by simp_all) (by simpa using hlast), List.reverse_reverse]

theorem Element.trim_text (e : Element) : trim e.text = e.tag.text := by
  refine trim_surrounded e.blank ?_ ?_ ?_ <;>
    cases hweak : e.tag.weak <;>
    simp [EntityTag.text, EntityTag.quoted, hweak, List.getLast?_cons] <;> decide

theorem splitOn_fieldValue {elements : List Element} (hsome : elements ≠ [])
    (hcomma : ∀ e ∈ elements, ',' ∉ e.tag.content) :
    (fieldValue elements).splitOn ',' = elements.map Element.text := by
  refine List.splitOn_intercalate ',' ?_ (by simpa using hsome)
  intro text htext hmem
  obtain ⟨e, he, rfl⟩ := List.mem_map.1 htext
  have hblank := e.blank ','
  cases hweak : e.tag.weak <;>
    simp_all [Element.text, EntityTag.text, EntityTag.quoted, isWhitespace]

theorem matchTags_text (current : EntityTag) (elements : List Element) :
    matchTags current.quoted (elements.map (·.tag.text)) =
      some (decide (∃ e ∈ elements, e.tag.content = current.content)) := by
  have hstar (e : Element) : e.tag.text ≠ ['*'] := by
    cases hweak : e.tag.weak <;> simp [EntityTag.text, EntityTag.quoted, hweak]
  have hcandidates : (elements.map (·.tag.text)).mapM normalizeEntityTag =
      some (elements.map (·.tag.quoted)) := by
    induction elements with
    | nil => rfl
    | cons e elements ih => simp [normalizeEntityTag_text, ih]
  have hfilter : (elements.map (·.tag.text)).filter (· ≠ ['*']) = elements.map (·.tag.text) := by
    simp [List.filter_eq_self, hstar]
  rw [matchTags, hfilter, hcandidates]
  simp [hstar, EntityTag.quoted]

/-! ## Tags with a comma -/

theorem mem_splitOn_intercalate {c : Char} {texts : List (List Char)} {text piece : List Char}
    (htext : text ∈ texts) (hpiece : piece ∈ text.splitOn c) :
    piece ∈ ([c].intercalate texts).splitOn c := by
  induction texts with
  | nil => cases htext
  | cons first rest ih =>
    cases rest with
    | nil => simpa [List.mem_singleton.mp htext] using hpiece
    | cons second rest =>
      rw [List.intercalate_cons_cons, List.append_assoc, List.singleton_append,
        List.splitOn_append_cons_self, List.mem_append]
      rcases List.mem_cons.mp htext with rfl | htext
      · exact .inl hpiece
      · exact .inr (ih htext)

/-- A tag that is accepted has its two quotes. -/
theorem two_quotes {value tag : List Char} (h : normalizeEntityTag value = some tag) :
    2 ≤ value.count '"' := by
  have hquotes (text : List Char) (hlength : ¬(bytes text).length < 2)
      (hfirst : text.head? = some '"') (hlast : text.getLast? = some '"') : 2 ≤ text.count '"' := by
    obtain ⟨rest, rfl⟩ := List.head?_eq_some_iff.mp hfirst
    cases rest with
    | nil => exact absurd (by decide) hlength
    | cons c rest =>
      have hmem : '"' ∈ c :: rest := by
        rw [List.getLast?_cons_cons] at hlast
        exact List.mem_of_getLast? hlast
      have := List.count_pos_iff.mpr hmem
      simp only [List.count_cons_self]
      omega
  have hstripped : 2 ≤ (match value with | 'W' :: '/' :: rest => rest | _ => value).count '"' := by
    unfold normalizeEntityTag at h
    generalize (match value with | 'W' :: '/' :: rest => rest | _ => value) = text at h ⊢
    dsimp only at h
    split at h
    next => cases h
    next hquoted =>
      simp only [not_or, not_not] at hquoted
      exact hquotes text hquoted.1 hquoted.2.1 hquoted.2.2
  split at hstripped
  next => simpa using hstripped
  next => exact hstripped

theorem count_trim {c : Char} (hc : isWhitespace c = false) (text : List Char) :
    (trim text).count c = text.count c := by
  have hdrop (l : List Char) : (l.dropWhile isWhitespace).count c = l.count c := by
    have hzero : (l.takeWhile isWhitespace).count c = 0 := List.count_eq_zero.mpr fun hmem => by
      simpa [hc] using List.all_eq_true.mp List.all_takeWhile c hmem
    conv_rhs => rw [← List.takeWhile_append_dropWhile (p := isWhitespace) (l := l)]
    rw [List.count_append, hzero, Nat.zero_add]
  rw [trim, List.count_reverse, hdrop, List.count_reverse, hdrop]

theorem quote_notMem (tag : EntityTag) : '"' ∉ tag.content := fun h => by
  have hbyte : 0x22 ∈ bytes tag.content := List.mem_flatMap.mpr ⟨_, h, by decide⟩
  exact absurd (List.all_eq_true.mp tag.valid _ hbyte) (by decide)

/-- A text with one quote is neither a star nor a tag. -/
theorem matchTags_of_count {current text : List Char} {elements : List (List Char)}
    (hmem : text ∈ elements) (hcount : text.count '"' = 1) : matchTags current elements = none := by
  have hstar : text ≠ ['*'] := by
    rintro rfl
    exact absurd hcount (by decide)
  have hnone : normalizeEntityTag text = none := by
    cases hnormalized : normalizeEntityTag text with
    | none => rfl
    | some tag =>
      have := two_quotes hnormalized
      omega
  have hmapM (l : List (List Char)) (hl : text ∈ l) : l.mapM normalizeEntityTag = none := by
    induction l with
    | nil => cases hl
    | cons first rest ih =>
      rcases List.mem_cons.mp hl with rfl | hl
      · simp [hnone]
      · simp [ih hl]
  rw [matchTags, hmapM _ (List.mem_filter.mpr ⟨hmem, by simpa using hstar⟩)]
  rfl

/-- What stands before the comma has one quote only. -/
theorem Element.exists_piece {e : Element} (h : ',' ∈ e.tag.content) :
    ∃ piece ∈ e.text.splitOn ',', piece.count '"' = 1 := by
  obtain ⟨first, rest, hcontent, hfirst⟩ := List.eq_append_cons_of_mem h
  have hblank (c : Char) (hc : isWhitespace c = false) : c ∉ e.before := fun hmem => by
    simpa [hc] using e.blank c (List.mem_append_left _ hmem)
  have hquote : '"' ∉ first := fun hmem => quote_notMem e.tag (by simp [hcontent, hmem])
  refine ⟨e.before ++ (if e.tag.weak then ['W', '/'] else []) ++ '"' :: first, ?_, ?_⟩
  · have htext : e.text = (e.before ++ (if e.tag.weak then ['W', '/'] else []) ++ '"' :: first) ++
        ',' :: (rest ++ '"' :: e.later) := by
      cases hweak : e.tag.weak <;>
        simp [Element.text, EntityTag.text, EntityTag.quoted, hweak, hcontent]
    rw [htext, List.splitOn_append_cons_self, List.splitOn_eq_singleton]
    · exact List.mem_cons_self
    · have := hblank ',' (by decide)
      cases e.tag.weak <;> simp [this, hfirst]
  · have := List.count_eq_zero.mpr (hblank '"' (by decide))
    cases e.tag.weak <;> simp [this, List.count_eq_zero.mpr hquote]

/-- A request that lists tags is accepted, and matches exactly if one of them is weakly the file's,
if and only if no tag has a comma and the fields have 8 KiB at most. A star alone always matches. -/
theorem if_none_match_weak_iff (current : EntityTag) (headers : List (List Char × List Char)) :
    (∀ lines : List (List Element), conditionValues headers = lines.map fieldValue →
      (∀ line ∈ lines, line ≠ []) →
      (ifNoneMatch current.text headers = some (if lines = [] then none else
          some (decide (∃ e ∈ lines.flatten, e.tag.content = current.content))) ↔
        ((conditionValues headers).map fun value => (bytes value).length).sum ≤
            maxStaticFileConditionBytes ∧
          ∀ line ∈ lines, ∀ e ∈ line, ',' ∉ e.tag.content)) ∧
    (conditionValues headers = [['*']] → ifNoneMatch current.text headers = some (some true)) := by
  refine ⟨fun lines hvalues hsome => ⟨fun h => ?_, fun ⟨hbytes, hcomma⟩ => ?_⟩, fun hvalues => ?_⟩
  · simp only [ifNoneMatch, normalizeEntityTag_text, Option.bind_eq_bind, Option.bind_some] at h
    split at h
    next => cases h
    next hbytes =>
      refine ⟨not_lt.mp hbytes, fun line hline e he hcomma => ?_⟩
      obtain ⟨piece, hpiece, hcount⟩ := Element.exists_piece hcomma
      have hmem : trim piece ∈ ((conditionValues headers).flatMap (·.splitOn ',')).map trim := by
        refine List.mem_map_of_mem (List.mem_flatMap.mpr ⟨fieldValue line, ?_, ?_⟩)
        · exact hvalues ▸ List.mem_map_of_mem hline
        · exact mem_splitOn_intercalate (List.mem_map_of_mem he) hpiece
      rw [matchTags_of_count hmem (by rw [count_trim (by decide), hcount])] at h
      cases h
  · have helements : ((lines.map fieldValue).flatMap (·.splitOn ',')).map trim =
        lines.flatten.map (·.tag.text) := by
      rw [List.flatMap_map, List.map_flatMap, List.map_flatten, ← List.flatMap_def]
      refine List.flatMap_congr fun line hline => ?_
      rw [splitOn_fieldValue (hsome line hline) (hcomma line hline), List.map_map]
      exact List.map_congr_left fun e _ => e.trim_text
    simp only [ifNoneMatch, normalizeEntityTag_text, Option.bind_eq_bind, Option.bind_some,
      if_neg (not_lt.2 hbytes)]
    rw [hvalues, helements, matchTags_text]
    simp
  · simp only [ifNoneMatch, normalizeEntityTag_text, hvalues]
    rfl

/-- The tag of a file of ten bytes, and a request that lists it after another one: that one has a
comma, is cut in two and is refused. -/
theorem if_none_match_comma :
    let tag : EntityTag := ⟨true, "a-65e1f3c0-0".toList, by decide⟩
    let other : EntityTag := ⟨false, "a,b".toList, by decide⟩
    ifNoneMatch tag.text [("If-None-Match".toList, other.text ++ ',' :: tag.text)] = none := by
  decide

end Lily.WebCore.StaticFile
