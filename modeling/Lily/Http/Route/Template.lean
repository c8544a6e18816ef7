import Mathlib.Data.List.Basic
import Mathlib.Algebra.Order.Ring.Int

/-!
# Route templates and request paths

A template and a request path are compared segment by segment, after both are
split at `/`. A template segment is a literal, a `:name` parameter, or a `*name`
catch-all that consumes the rest of the path. The functions below follow the
string scans of the route table; strings are split into lists of characters, so
a leading slash contributes one empty first segment exactly as in the source.
-/

namespace Lily.Http.Route

/-- One piece of a path between two slashes. -/
abbrev Segment : Type := List Char

variable (path : String)

/-- `path.split('/')`. -/
def segments : List Segment := path.toList.splitOn '/'

/-- `segment.starts_with(c)` for one character. -/
def startsWith (c : Char) (segment : Segment) : Bool := segment.head? == some c

/-- `segment.strip_prefix(c)` for one character. -/
def stripPrefix (c : Char) : Segment → Option Segment
  | [] => none
  | first :: rest => if first = c then some rest else none

def literalSegmentCount : Nat :=
  (((segments path).drop 1).filter
    (fun segment => !startsWith ':' segment && !startsWith '*' segment)).length

def fixedSegmentCount : Nat :=
  (((segments path).drop 1).takeWhile (fun segment => !startsWith '*' segment)).length

def hasCatchAll : Bool := (segments path).any (startsWith '*')

def isParameterized : Bool :=
  (segments path).any (fun segment => startsWith ':' segment || startsWith '*' segment)

/-- Parameter names do not distinguish two registrations: only the kind of each
segment and the literal texts remain. -/
def normalizedRegistrationPath : String :=
  String.ofList (['/'].intercalate ((segments path).map (fun segment =>
    if startsWith ':' segment then [':']
    else if startsWith '*' segment then ['*']
    else segment)))

/-- The loop of `path_matches` over the two segment iterators. -/
def matchSegments : List Segment → List Segment → Bool
  | pattern :: patterns, segment :: rest =>
    if startsWith '*' pattern then
      !segment.isEmpty && rest.all (fun segment => !segment.isEmpty)
    else if startsWith ':' pattern then
      if segment.isEmpty then false else matchSegments patterns rest
    else if pattern ≠ segment then false
    else matchSegments patterns rest
  | [], [] => true
  | _, _ => false

def pathMatches (pattern path : String) : Bool :=
  matchSegments (segments pattern) (segments path)

/-- The final comparison of `templates_overlap`, on the number of fixed segments
before a catch-all and the total number of segments of each side. -/
def fixedLengthsOverlap (leftFixed left rightFixed right : Nat) : Bool :=
  match decide (leftFixed < left), decide (rightFixed < right) with
  | false, false => leftFixed == rightFixed
  | true, false => decide (leftFixed < rightFixed)
  | false, true => decide (rightFixed < leftFixed)
  | true, true => true

variable (left right : List Segment)

/-- The body of `templates_overlap` after both templates were split and their
empty first segments were skipped. `findIdx` is the position of the catch-all,
or the length when there is none. -/
def fixedPartsOverlap : Bool :=
  let leftFixed := left.findIdx (startsWith '*')
  let rightFixed := right.findIdx (startsWith '*')
  ((left.zip right).take (min leftFixed rightFixed)).all
      (fun pair => startsWith ':' pair.1 || startsWith ':' pair.2 || pair.1 == pair.2) &&
    fixedLengthsOverlap leftFixed left.length rightFixed right.length

def templatesOverlap (left right : String) : Bool :=
  fixedPartsOverlap ((segments left).drop 1) ((segments right).drop 1)

/-- The overlap test as one recursion. A catch-all on either side absorbs
whatever is left on the other, provided at least one segment is left. -/
def overlapSegments : List Segment → List Segment → Bool
  | l :: left, r :: right =>
    startsWith '*' l || startsWith '*' r ||
      ((startsWith ':' l || startsWith ':' r || l == r) && overlapSegments left right)
  | [], [] => true
  | _, _ => false

/-- Past a fixed head, a match is a match of the two tails. -/
theorem matchSegments_tail {pattern segment : Segment} {patterns rest : List Segment}
    (h : matchSegments (pattern :: patterns) (segment :: rest) = true)
    (hfixed : ¬ startsWith '*' pattern = true) : matchSegments patterns rest = true := by
  simp only [matchSegments, hfixed] at h
  by_contra hno
  simp [hno] at h

theorem fixedLengthsOverlap_succ (a n b m : Nat) :
    fixedLengthsOverlap (a + 1) (n + 1) (b + 1) (m + 1) = fixedLengthsOverlap a n b m := by
  simp [fixedLengthsOverlap]

theorem fixedLengthsOverlap_comm (a n b m : Nat) :
    fixedLengthsOverlap a n b m = fixedLengthsOverlap b m a n := by
  unfold fixedLengthsOverlap
  by_cases hleft : a < n <;> by_cases hright : b < m <;>
    simp [hleft, hright, Bool.beq_comm (a := a)]

/-- A side that is exhausted cannot overlap a side that is not. -/
theorem fixedLengthsOverlap_exhausted {b m : Nat} (h : b ≤ m + 1) :
    fixedLengthsOverlap 0 0 b (m + 1) = false := by
  by_cases hb : b < m + 1
  · simp [fixedLengthsOverlap, hb]
  · have heq : b = m + 1 := by omega
    simp [fixedLengthsOverlap, heq]

/-- An immediate catch-all overlaps every side with a segment left. -/
theorem fixedLengthsOverlap_catchAll (n : Nat) {b m : Nat} (h : b ≤ m + 1) :
    fixedLengthsOverlap 0 (n + 1) b (m + 1) = true := by
  by_cases hb : b < m + 1
  · simp [fixedLengthsOverlap, hb]
  · have heq : b = m + 1 := by omega
    simp [fixedLengthsOverlap, heq]

theorem fixedPartsOverlap_eq : fixedPartsOverlap left right = overlapSegments left right := by
  induction left generalizing right with
  | nil =>
    cases right with
    | nil => rfl
    | cons r right =>
      have hle : (r :: right).findIdx (startsWith '*') ≤ right.length + 1 :=
        List.findIdx_le_length
      simp [fixedPartsOverlap, overlapSegments, fixedLengthsOverlap_exhausted hle]
  | cons l left ih =>
    have hl : (l :: left).findIdx (startsWith '*') ≤ left.length + 1 := List.findIdx_le_length
    cases right with
    | nil =>
      simp [fixedPartsOverlap, overlapSegments, fixedLengthsOverlap_comm _ _ 0 0,
        fixedLengthsOverlap_exhausted hl]
    | cons r right =>
      have hr : (r :: right).findIdx (startsWith '*') ≤ right.length + 1 :=
        List.findIdx_le_length
      by_cases hstarl : startsWith '*' l = true
      · have hzero : (l :: left).findIdx (startsWith '*') = 0 := by
          simp [List.findIdx_cons, hstarl]
        simp [fixedPartsOverlap, overlapSegments, hzero, hstarl,
          fixedLengthsOverlap_catchAll left.length hr]
      by_cases hstarr : startsWith '*' r = true
      · have hzero : (r :: right).findIdx (startsWith '*') = 0 := by
          simp [List.findIdx_cons, hstarr]
        simp [fixedPartsOverlap, overlapSegments, hzero, hstarr,
          fixedLengthsOverlap_comm _ _ 0, fixedLengthsOverlap_catchAll right.length hl]
      -- Two fixed heads are compared once and both scans move on.
      rw [overlapSegments, ← ih]
      simp [fixedPartsOverlap, List.findIdx_cons, hstarl, hstarr,
        fixedLengthsOverlap_succ, Nat.succ_min_succ, Bool.and_assoc]

theorem overlapSegments_comm : overlapSegments left right = overlapSegments right left := by
  induction left generalizing right with
  | nil => cases right <;> rfl
  | cons l left ih =>
    cases right with
    | nil => rfl
    | cons r right =>
      simp only [overlapSegments, ih right]
      rw [Bool.or_comm (startsWith '*' l), Bool.or_comm (startsWith ':' l),
        Bool.beq_comm (a := l)]

/-- The order in which two templates were registered does not matter. -/
theorem templatesOverlap_comm (left right : String) :
    templatesOverlap left right = templatesOverlap right left := by
  simp only [templatesOverlap, fixedPartsOverlap_eq]
  exact overlapSegments_comm _ _

/-- Two segment patterns with a common match pass the recursive overlap test.
The induction is on the shared path: each step either stops at a catch-all or
compares two fixed segments with the same path segment. -/
theorem overlapSegments_of_matchSegments {left right path : List Segment}
    (hl : matchSegments left path = true) (hr : matchSegments right path = true) :
    overlapSegments left right = true := by
  induction path generalizing left right with
  | nil =>
    cases left <;> cases right <;> simp_all [matchSegments, overlapSegments]
  | cons segment path ih =>
    cases left with
    | nil => simp [matchSegments] at hl
    | cons l left =>
      cases right with
      | nil => simp [matchSegments] at hr
      | cons r right =>
        by_cases hstarl : startsWith '*' l = true
        · simp [overlapSegments, hstarl]
        by_cases hstarr : startsWith '*' r = true
        · simp [overlapSegments, hstarr]
        have hfixed : (startsWith ':' l || startsWith ':' r || l == r) = true := by
          by_cases hpl : startsWith ':' l = true
          · simp [hpl]
          by_cases hpr : startsWith ':' r = true
          · simp [hpr]
          simp only [matchSegments, hstarl, hpl, hstarr, hpr] at hl hr
          have hleft : l = segment := by by_contra hne; simp [hne] at hl
          have hright : r = segment := by by_contra hne; simp [hne] at hr
          simp [hleft, hright]
        have htail : overlapSegments left right = true := by
          apply ih
          · exact matchSegments_tail hl hstarl
          · exact matchSegments_tail hr hstarr
        simp [overlapSegments, hfixed, htail]

/-- A template that begins with a slash has an empty first segment. -/
theorem segments_eq_cons {path : String} (h : startsWith '/' path.toList = true) :
    segments path = [] :: (segments path).drop 1 := by
  obtain ⟨rest, hpath⟩ : ∃ rest, path.toList = '/' :: rest := by
    cases hlist : path.toList with
    | nil => simp [startsWith, hlist] at h
    | cons c rest =>
      simp only [startsWith, hlist, List.head?_cons, beq_iff_eq, Option.some.injEq] at h
      exact ⟨rest, by rw [h]⟩
  simp [segments, hpath, List.splitOn, List.splitOnP_cons_eq_if_modifyHead]

/-- The static overlap test is complete for shared request paths: two rooted
templates that match one path are reported as overlapping. -/
theorem templatesOverlap_of_pathMatches {left right path : String}
    (hleft : startsWith '/' left.toList = true) (hright : startsWith '/' right.toList = true)
    (hl : pathMatches left path = true) (hr : pathMatches right path = true) :
    templatesOverlap left right = true := by
  rw [templatesOverlap, fixedPartsOverlap_eq]
  rw [pathMatches, segments_eq_cons hleft] at hl
  rw [pathMatches, segments_eq_cons hright] at hr
  cases hpath : segments path with
  | nil => simp [hpath, matchSegments] at hl
  | cons first rest =>
    rw [hpath] at hl hr
    exact overlapSegments_of_matchSegments
      (matchSegments_tail hl (by simp [startsWith])) (matchSegments_tail hr (by simp [startsWith]))

/-- Only parameter segments are rewritten by the registration key. -/
theorem normalizedRegistrationPath_of_exact {path : String} (h : isParameterized path = false) :
    normalizedRegistrationPath path = path := by
  have hmap : (segments path).map (fun segment =>
      if startsWith ':' segment then [':'] else if startsWith '*' segment then ['*']
      else segment) = segments path := by
    refine (List.map_congr_left fun segment hmem => ?_).trans (List.map_id _)
    have hliteral := List.any_eq_false.mp h segment hmem
    simp only [Bool.or_eq_true, not_or, Bool.not_eq_true] at hliteral
    simp [hliteral.1, hliteral.2]
  rw [normalizedRegistrationPath, hmap, segments, List.intercalate_splitOn, String.ofList_toList]

end Lily.Http.Route
