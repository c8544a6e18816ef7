import Lily.Http.Route.Resolve
import Lily.Text.Delimiter

/-!
# What a template matches

The matcher, the parameter extraction and the static overlap test are three separate
walks over segments. A path that a template matches is proved to be the template with
its extracted parameters substituted, and two templates that are said to overlap are
proved to share a path. The one exception is the root template: its only segment is
empty, which the overlap test lets a parameter stand for and the matcher does not.
-/

namespace Lily.Http.Route

def parameterName (segment : Segment) : Option Segment :=
  (stripPrefix ':' segment).or (stripPrefix '*' segment)

@[simp] theorem startsWith_nil (c : Char) : startsWith c [] = false := by simp [startsWith]

/-- The three kinds of segments. -/
theorem segment_cases (segment : Segment) :
    (∃ name, segment = ':' :: name) ∨ (∃ name, segment = '*' :: name) ∨
      (startsWith ':' segment = false ∧ startsWith '*' segment = false ∧
        stripPrefix ':' segment = none ∧ stripPrefix '*' segment = none) := by
  cases segment with
  | nil => simp [startsWith, stripPrefix]
  | cons c name =>
    by_cases hparam : c = ':'
    · exact .inl ⟨name, by rw [hparam]⟩
    by_cases hstar : c = '*'
    · exact .inr (.inl ⟨name, by rw [hstar]⟩)
    simp [startsWith, stripPrefix, hparam, hstar]

/-- What the segment loop of the validation has established about the first segment. -/
theorem checkSegments_cons {seen rest : List Segment} {segment : Segment}
    (h : checkSegments seen (segment :: rest) = .ok ()) :
    (startsWith '*' segment = true → rest = []) ∧
      (∀ name ∈ parameterName segment, name ∉ seen) ∧
      checkSegments ((parameterName segment).toList ++ seen) rest = .ok () := by
  rcases segment_cases segment with ⟨name, rfl⟩ | ⟨name, rfl⟩ | ⟨-, hstar, hparam, hcatch⟩
  · simp only [checkSegments, stripPrefix, if_true, checkParameterName] at h
    split_ifs at h with hname hfresh
    simpa [startsWith, parameterName, stripPrefix, hfresh] using h
  · simp only [checkSegments, stripPrefix, if_true, checkParameterName, Char.reduceEq,
      if_false] at h
    split_ifs at h with hrest hname hfresh
    simpa [startsWith, parameterName, stripPrefix, hfresh, not_not.mp hrest] using h
  · simp only [checkSegments, hparam, hcatch] at h
    simpa [hstar, parameterName, hparam, hcatch] using h

/-! ## Templates that overlap -/

/-- A path for two overlapping templates. The text of a template is itself a path that
the template matches, so each side supplies what the other leaves open. -/
def sharedSegments : List Segment → List Segment → List Segment
  | l :: left, r :: right =>
    if startsWith '*' l then r :: right
    else if startsWith '*' r then l :: left
    else (if startsWith ':' l then r else l) :: sharedSegments left right
  | _, _ => []

variable {pattern segment : Segment} {patterns rest : List Segment}

theorem matchSegments_star (hstar : startsWith '*' pattern = true) (h : [] ∉ segment :: rest) :
    matchSegments (pattern :: patterns) (segment :: rest) = true := by
  simp only [List.mem_cons, not_or] at h
  have hrest : rest.all (fun segment => !segment.isEmpty) = true := by
    rw [List.all_eq_true]
    intro s hs
    simpa using fun hnil : s = [] => h.2 (hnil ▸ hs)
  simp [matchSegments, hstar, hrest, Ne.symm h.1]

theorem matchSegments_fixed (hfixed : ¬ startsWith '*' pattern = true) (hsegment : segment ≠ [])
    (h : startsWith ':' pattern = true ∨ pattern = segment)
    (hrest : matchSegments patterns rest = true) :
    matchSegments (pattern :: patterns) (segment :: rest) = true := by
  rcases h with h | rfl
  · simp [matchSegments, hfixed, h, hsegment, hrest]
  · simp [matchSegments, hfixed, hsegment, hrest]

theorem matchSegments_self {pattern : List Segment} (h : [] ∉ pattern) :
    matchSegments pattern pattern = true := by
  induction pattern with
  | nil => rfl
  | cons segment rest ih =>
    by_cases hstar : startsWith '*' segment = true
    · exact matchSegments_star hstar h
    · simp only [List.mem_cons, not_or] at h
      exact matchSegments_fixed hstar (Ne.symm h.1) (.inr rfl) (ih h.2)

theorem sharedSegments_matches {left right : List Segment} (hl : [] ∉ left) (hr : [] ∉ right)
    (h : overlapSegments left right = true) :
    matchSegments left (sharedSegments left right) = true ∧
      matchSegments right (sharedSegments left right) = true := by
  induction left generalizing right with
  | nil => cases right <;> simp_all [overlapSegments, sharedSegments, matchSegments]
  | cons l left ih =>
    cases right with
    | nil => simp [overlapSegments] at h
    | cons r right =>
      by_cases hstarl : startsWith '*' l = true
      · simp only [sharedSegments, hstarl, if_true]
        exact ⟨matchSegments_star hstarl hr, matchSegments_self hr⟩
      by_cases hstarr : startsWith '*' r = true
      · simp only [sharedSegments, hstarl, hstarr, if_true, Bool.false_eq_true, if_false]
        exact ⟨matchSegments_self hl, matchSegments_star hstarr hl⟩
      simp only [List.mem_cons, not_or] at hl hr
      simp only [overlapSegments, hstarl, hstarr, Bool.false_or, Bool.and_eq_true,
        Bool.or_eq_true, beq_iff_eq] at h
      obtain ⟨htaill, htailr⟩ := ih hl.2 hr.2 h.2
      simp only [sharedSegments, hstarl, hstarr, Bool.false_eq_true, if_false]
      split_ifs with hparam
      · exact ⟨matchSegments_fixed hstarl (Ne.symm hr.1) (.inl hparam) htaill,
          matchSegments_fixed hstarr (Ne.symm hr.1) (.inr rfl) htailr⟩
      · have hfixed : startsWith ':' r = true ∨ r = l :=
          h.1.imp (fun h => h.resolve_left hparam) Eq.symm
        exact ⟨matchSegments_fixed hstarl (Ne.symm hl.1) (.inr rfl) htaill,
          matchSegments_fixed hstarr (Ne.symm hl.1) hfixed htailr⟩

theorem mem_sharedSegments {left right : List Segment} {segment : Segment}
    (h : segment ∈ sharedSegments left right) : segment ∈ left ∨ segment ∈ right := by
  induction left, right using sharedSegments.induct <;> grind [sharedSegments]

/-- A path with given segments after its leading slash. -/
theorem exists_segments (path : List Segment) (h : ∀ segment ∈ path, '/' ∉ segment) :
    ∃ p : String, segments p = [] :: path := by
  refine ⟨String.ofList (['/'].intercalate ([] :: path)), ?_⟩
  rw [segments, String.toList_ofList]
  exact List.splitOn_intercalate '/' (by simpa using h) (by simp)

/-- The root template together with a template of one parameter or catch-all segment. -/
def RootAgainstParameter (left right : String) : Prop :=
  left = "/" ∧ ((segments right).drop 1).length = 1 ∧ isParameterized right = true

theorem segments_root : segments "/" = [[], []] := by decide

/-- The overlap test with the root template, whose one segment is empty. -/
theorem overlapSegments_root {tail : List Segment} (hfilled : [] ∉ tail)
    (hcheck : checkSegments [] tail = .ok ()) :
    overlapSegments [[]] tail = true ↔ tail.length = 1 ∧
      tail.any (fun segment => startsWith ':' segment || startsWith '*' segment) = true := by
  cases tail with
  | nil => simp [overlapSegments]
  | cons r rest =>
    cases rest with
    | nil =>
      have hne : r ≠ [] := by simpa [eq_comm] using hfilled
      simp [overlapSegments, hne, or_comm]
    | cons next rest =>
      have hstar : startsWith '*' r = false := by
        by_contra hstar
        simpa using (checkSegments_cons hcheck).1 (by simpa using hstar)
      simp [overlapSegments, hstar]

variable {validMethod : String → Bool} {left : String} {right : RouteInfo H}

theorem rootAgainstParameter_iff (h : right.Valid validMethod) :
    RootAgainstParameter left right.path ↔
      left = "/" ∧ right.path ≠ "/" ∧ templatesOverlap left right.path = true := by
  obtain ⟨-, hroot, hfilled, hcheck⟩ := h.checks
  refine and_congr_right fun hleft => ?_
  have hparam : isParameterized right.path = ((segments right.path).drop 1).any
      (fun segment => startsWith ':' segment || startsWith '*' segment) := by
    rw [isParameterized, segments_eq_cons hroot]
    simp
  rw [hleft, templatesOverlap, fixedPartsOverlap_eq, segments_root, hparam]
  by_cases hright : right.path = "/"
  · rw [hright, segments_root]
    simp
  · rw [← overlapSegments_root (hfilled.resolve_left hright) hcheck]
    exact (and_iff_right hright).symm

theorem exists_pathMatches_of_overlap {left right : String}
    (hrootl : startsWith '/' left.toList = true) (hrootr : startsWith '/' right.toList = true)
    (hl : [] ∉ (segments left).drop 1) (hr : [] ∉ (segments right).drop 1)
    (h : templatesOverlap left right = true) :
    ∃ path, pathMatches left path = true ∧ pathMatches right path = true := by
  rw [templatesOverlap, fixedPartsOverlap_eq] at h
  obtain ⟨hmatchl, hmatchr⟩ := sharedSegments_matches hl hr h
  obtain ⟨path, hpath⟩ := exists_segments
    (sharedSegments ((segments left).drop 1) ((segments right).drop 1)) (by
      intro segment hsegment
      rcases mem_sharedSegments hsegment with hmem | hmem <;>
        exact Delimiter.notMem_of_mem_splitOn (List.mem_of_mem_drop hmem))
  refine ⟨path, ?_, ?_⟩
  · rw [pathMatches, segments_eq_cons hrootl, hpath]
    simpa [matchSegments] using hmatchl
  · rw [pathMatches, segments_eq_cons hrootr, hpath]
    simpa [matchSegments] using hmatchr

/-- The overlap test on valid templates holds exactly of the templates that share a path,
the root template and a single parameter apart. -/
theorem templatesOverlap_iff {left right : RouteInfo H}
    (hleft : left.Valid validMethod) (hright : right.Valid validMethod) :
    templatesOverlap left.path right.path = true ↔
      (∃ path, pathMatches left.path path = true ∧ pathMatches right.path path = true) ∨
        RootAgainstParameter left.path right.path ∨ RootAgainstParameter right.path left.path := by
  obtain ⟨-, hrootl, hfilledl, -⟩ := hleft.checks
  obtain ⟨-, hrootr, hfilledr, -⟩ := hright.checks
  rw [rootAgainstParameter_iff hright, rootAgainstParameter_iff hleft,
    templatesOverlap_comm right.path]
  constructor
  · intro h
    by_cases hl : left.path = "/"
    · by_cases hr : right.path = "/"
      · exact .inl ⟨"/", by rw [hl]; decide, by rw [hr]; decide⟩
      · exact .inr (.inl ⟨hl, hr, h⟩)
    · by_cases hr : right.path = "/"
      · exact .inr (.inr ⟨hr, hl, h⟩)
      · exact .inl (exists_pathMatches_of_overlap hrootl hrootr (hfilledl.resolve_left hl)
          (hfilledr.resolve_left hr) h)
  · rintro (⟨path, hl, hr⟩ | ⟨-, -, h⟩ | ⟨-, -, h⟩)
    · exact templatesOverlap_of_pathMatches hrootl hrootr hl hr
    · exact h
    · exact h

def listAction : RouteInfo Unit := ⟨"GET", "/", "list", (), 0⟩

def itemAction : RouteInfo Unit := ⟨"GET", "/:id", "item", (), 0⟩

def restAction : RouteInfo Unit := ⟨"GET", "/*rest", "any", (), 0⟩

theorem templatesOverlap_iff_item :
    templatesOverlap itemAction.path restAction.path = true ∧
      ((∃ path, pathMatches itemAction.path path = true ∧ pathMatches restAction.path path = true) ∨
        RootAgainstParameter itemAction.path restAction.path ∨
        RootAgainstParameter restAction.path itemAction.path) :=
  have hitem : itemAction.Valid (fun _ => true) := ⟨by decide, by decide⟩
  have hrest : restAction.Valid (fun _ => true) := ⟨by decide, by decide⟩
  ⟨by decide, (templatesOverlap_iff hitem hrest).mp (by decide)⟩

/-- The overlap test reports the root and a single parameter, which share no path. -/
theorem templatesOverlap_list_item :
    listAction.Valid (fun _ => true) ∧ itemAction.Valid (fun _ => true) ∧
      templatesOverlap listAction.path itemAction.path = true ∧
      ¬ ∃ path, pathMatches listAction.path path = true ∧
        pathMatches itemAction.path path = true := by
  refine ⟨⟨by decide, by decide⟩, ⟨by decide, by decide⟩, by decide, ?_⟩
  rintro ⟨path, hlist, hitem⟩
  have hroot : segments listAction.path = [[], []] := by decide
  have hparam : segments itemAction.path = [[], [':', 'i', 'd']] := by decide
  rw [pathMatches, hroot] at hlist
  rw [pathMatches, hparam] at hitem
  -- The second segment would have to be empty for the one and not for the other.
  generalize segments path = pieces at hlist hitem
  rcases pieces with _ | ⟨first, _ | ⟨_ | ⟨c, second⟩, rest⟩⟩ <;>
    simp_all [matchSegments, startsWith]

/-! ## Parameters -/

/-- The loop of `extract_params`. A catch-all takes the segment and whatever follows it. -/
def extractSegments : List Segment → List Segment → List (Segment × Segment)
  | pattern :: patterns, segment :: rest =>
    match stripPrefix ':' pattern with
    | some name => (name, segment) :: extractSegments patterns rest
    | none =>
      match stripPrefix '*' pattern with
      | some name => [(name, segment ++ rest.flatMap ('/' :: ·))]
      | none => extractSegments patterns rest
  | _, _ => []

/-- The names and values in the characters they are made of. -/
def extractParams (pattern path : String) : List (Segment × Segment) :=
  extractSegments (segments pattern) (segments path)

variable (template : String) (params : List (Segment × Segment))

/-- The text of a segment once the parameters have their values. -/
def fillSegment (segment : Segment) : Segment :=
  match parameterName segment with
  | some name => (params.lookup name).getD []
  | none => segment

/-- The path that a template stands for, given the values of its parameters. -/
def substitute : String :=
  String.ofList (['/'].intercalate ((segments template).map (fillSegment params)))

/-- Extraction agrees with matching. The induction is on both lists; `params` are all the
parameters of the template, of which the rest of the walk finds the rest. -/
theorem extractSegments_spec {seen pattern path : List Segment}
    (hcheck : checkSegments seen pattern = .ok ()) (hmatch : matchSegments pattern path = true) :
    (extractSegments pattern path).map Prod.fst = pattern.filterMap parameterName ∧
      (∀ param ∈ extractSegments pattern path, param.2 ≠ []) ∧
      ∀ params : List (Segment × Segment),
        (∀ param ∈ extractSegments pattern path, params.lookup param.1 = some param.2) →
        (pattern.map (fillSegment params)).flatMap ('/' :: ·) = path.flatMap ('/' :: ·) := by
  induction pattern generalizing seen path with
  | nil => cases path <;> simp_all [matchSegments, extractSegments]
  | cons p pattern ih =>
    cases path with
    | nil => simp [matchSegments] at hmatch
    | cons s path =>
      obtain ⟨hfinal, -, hrest⟩ := checkSegments_cons hcheck
      rcases segment_cases p with ⟨name, rfl⟩ | ⟨name, rfl⟩ | ⟨hparam, hstar, hname, hcatch⟩
      · have hs : s ≠ [] := by
          rintro rfl
          simp [matchSegments, startsWith] at hmatch
        obtain ⟨hnames, hvalues, hfill⟩ :=
          ih hrest (matchSegments_tail hmatch (by simp [startsWith]))
        simp only [extractSegments, stripPrefix, if_true, List.forall_mem_cons]
        refine ⟨by simp [hnames, parameterName, stripPrefix], ⟨hs, hvalues⟩, ?_⟩
        rintro params ⟨hparam, hparams⟩
        simp [fillSegment, parameterName, stripPrefix, hparam, hfill params hparams]
      · have hs : s ≠ [] := by
          rintro rfl
          simp [matchSegments, startsWith] at hmatch
        obtain rfl : pattern = [] := hfinal rfl
        have hextract : extractSegments ['*' :: name] (s :: path) =
            [(name, s ++ path.flatMap ('/' :: ·))] := rfl
        rw [hextract]
        refine ⟨rfl, by simp [hs], ?_⟩
        intro params hparams
        simp [fillSegment, parameterName, stripPrefix, hparams (name, _) List.mem_cons_self]
      · obtain rfl : p = s := by
          by_contra hne
          simp [matchSegments, hparam, hstar, hne] at hmatch
        obtain ⟨hnames, hvalues, hfill⟩ :=
          ih hrest (matchSegments_tail hmatch (by simp [hstar]))
        have hliteral : parameterName p = none := by simp [parameterName, hname, hcatch]
        simp only [extractSegments, hname, hcatch]
        refine ⟨by simp [hnames, hliteral], hvalues, ?_⟩
        intro params hparams
        simp [fillSegment, hliteral, hfill params hparams]

theorem nodup_parameterNames {seen pattern : List Segment}
    (h : checkSegments seen pattern = .ok ()) :
    (pattern.filterMap parameterName).Nodup ∧
      ∀ name ∈ pattern.filterMap parameterName, name ∉ seen := by
  induction pattern generalizing seen with
  | nil => simp
  | cons p pattern ih =>
    obtain ⟨-, hfresh, hrest⟩ := checkSegments_cons h
    obtain ⟨hnodup, hseen⟩ := ih hrest
    cases hname : parameterName p with
    | none => simpa [hname] using ⟨hnodup, by simpa [hname] using hseen⟩
    | some name =>
      rw [List.filterMap_cons_some hname, List.nodup_cons, List.forall_mem_cons]
      simp only [hname, Option.toList_some, List.cons_append, List.nil_append,
        List.mem_cons, not_or] at hseen
      exact ⟨⟨fun hmem => (hseen name hmem).1 rfl, hnodup⟩,
        hfresh name hname, fun other hother => (hseen other hother).2⟩

theorem lookup_of_mem {params : List (Segment × Segment)} (h : (params.map Prod.fst).Nodup)
    {param : Segment × Segment} (hmem : param ∈ params) : params.lookup param.1 = some param.2 := by
  obtain ⟨before, after, rfl⟩ := List.append_of_mem hmem
  rw [List.lookup_eq_some_iff]
  refine ⟨before, after, rfl, ?_⟩
  intro other hother
  simp only [List.map_append, List.map_cons, List.nodup_append] at h
  rw [bne_iff_ne]
  exact (h.2.2 other.1 (List.mem_map_of_mem hother) param.1 List.mem_cons_self).symm

theorem intercalate_slash (l : List Segment) :
    ['/'].intercalate l = (l.flatMap ('/' :: ·)).tail := by
  induction l with
  | nil => rfl
  | cons s l ih =>
    cases l with
    | nil => simp
    | cons s' l => simp_all

/-- A matched path is its template with the extracted values in the parameters' places. -/
theorem extractParams_spec {route : RouteInfo H}
    (h : route.Valid validMethod) {path : String} (hmatch : pathMatches route.path path = true) :
    (extractParams route.path path).map Prod.fst =
        (segments route.path).filterMap parameterName ∧
      (∀ param ∈ extractParams route.path path, param.2 ≠ []) ∧
      substitute route.path (extractParams route.path path) = path := by
  obtain ⟨-, hroot, -, hcheck⟩ := h.checks
  have hcheck : checkSegments [] (segments route.path) = .ok () := by
    rw [segments_eq_cons hroot]
    exact hcheck
  obtain ⟨hnames, hvalues, hfill⟩ := extractSegments_spec hcheck hmatch
  refine ⟨hnames, hvalues, ?_⟩
  have hnodup : ((extractParams route.path path).map Prod.fst).Nodup := by
    rw [extractParams, hnames]
    exact (nodup_parameterNames hcheck).1
  have hpath : ['/'].intercalate (segments path) = path.toList := List.intercalate_splitOn '/'
  rw [substitute, intercalate_slash, hfill _ fun param hparam => lookup_of_mem hnodup hparam,
    ← intercalate_slash, hpath, String.ofList_toList]

theorem extractParams_spec_item :
    (extractParams itemAction.path "/7").map Prod.fst = [['i', 'd']] ∧
      substitute itemAction.path (extractParams itemAction.path "/7") = "/7" := by
  have hvalid : itemAction.Valid (fun _ => true) := ⟨by decide, by decide⟩
  have hmatch : pathMatches itemAction.path "/7" = true := by decide
  obtain ⟨hnames, -, hfill⟩ := extractParams_spec hvalid hmatch
  exact ⟨hnames, hfill⟩

end Lily.Http.Route
