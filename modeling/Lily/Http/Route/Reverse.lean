import Mathlib.Data.List.TakeWhile
import Lily.Http.Route.Matching

/-!
# From a route back to its paths

A template with values for its parameters is a path that the template matches, and from which the
values are extracted again. A request for the text of a template itself comes to its route.
-/

namespace Lily.Http.Route

variable {params : List (Segment × Segment)} {seen pattern path : List Segment}

/-- Every parameter of the template has a value without empty segments, and one that does not end
the path has a value of one segment. -/
def Filled (params : List (Segment × Segment)) (pattern : List Segment) : Prop :=
  ∀ segment ∈ pattern, ∀ name ∈ parameterName segment, ∃ value ∈ params.lookup name,
    [] ∉ value.splitOn '/' ∧ (startsWith ':' segment = true → '/' ∉ value)

/-- The segments of the filled template. -/
def filledSegments (params : List (Segment × Segment)) (pattern : List Segment) : List Segment :=
  pattern.flatMap fun segment => (fillSegment params segment).splitOn '/'

theorem flatMap_splitOn (l : Segment) : (l.splitOn '/').flatMap ('/' :: ·) = '/' :: l := by
  have hsplit : ['/'].intercalate (l.splitOn '/') = l := List.intercalate_splitOn '/'
  rw [intercalate_slash] at hsplit
  obtain ⟨first, rest, hcons⟩ := List.exists_cons_of_ne_nil (List.splitOn_ne_nil '/' l)
  rw [hcons] at hsplit ⊢
  exact congrArg ('/' :: ·) hsplit

theorem segments_substitute (template : String) :
    segments (substitute template params) = filledSegments params (segments template) := by
  have hpath : ['/'].intercalate ((segments template).map (fillSegment params)) =
      ['/'].intercalate (filledSegments params (segments template)) := by
    simp [intercalate_slash, filledSegments, List.flatMap_assoc, flatMap_splitOn, List.flatMap_map]
  rw [substitute, hpath, segments, String.toList_ofList]
  refine List.splitOn_intercalate '/' (fun piece hpiece => ?_) ?_
  · obtain ⟨segment, -, hpiece⟩ := List.mem_flatMap.mp hpiece
    exact Delimiter.notMem_of_mem_splitOn hpiece
  · have hne : segments template ≠ [] := List.splitOn_ne_nil '/' template.toList
    simpa [filledSegments, List.splitOn_ne_nil] using List.exists_mem_of_ne_nil _ hne

theorem splitOn_of_notMem {l : Segment} (h : '/' ∉ l) : l.splitOn '/' = [l] := by
  simpa using @List.splitOn_intercalate _ [l] _ _ '/' (by simpa using h) (by simp)

/-- The walks of the matcher and of the extraction over a filled template. The induction is on the
template; where a catch-all is filled with several segments, the template ends. -/
theorem filledSegments_spec (hcheck : checkSegments seen pattern = .ok ())
    (hslash : ∀ segment ∈ pattern, '/' ∉ segment) (hfilled : Filled params pattern) :
    matchSegments pattern (filledSegments params pattern) = true ∧
      extractSegments pattern (filledSegments params pattern) =
        (pattern.filterMap parameterName).map fun name => (name, (params.lookup name).getD []) := by
  induction pattern generalizing seen with
  | nil => exact ⟨rfl, rfl⟩
  | cons p pattern ih =>
    obtain ⟨hfinal, -, hrest⟩ := checkSegments_cons hcheck
    obtain ⟨hmatch, hextract⟩ := ih hrest (fun s hs => hslash s (.tail _ hs))
      fun s hs => hfilled s (.tail _ hs)
    have hvalue := hfilled p List.mem_cons_self
    rw [show filledSegments params (p :: pattern) =
      (fillSegment params p).splitOn '/' ++ filledSegments params pattern from List.flatMap_cons ..]
    rcases segment_cases p with ⟨name, rfl⟩ | ⟨name, rfl⟩ | ⟨hparam, hstar, hname, hcatch⟩
    · obtain ⟨value, hlookup, hpieces, hsingle⟩ := hvalue name rfl
      have hne : value ≠ [] := fun hnil => hpieces (by simp [hnil])
      have hfill : fillSegment params (':' :: name) = value := by
        simp [fillSegment, parameterName, stripPrefix, Option.mem_def.mp hlookup]
      rw [hfill, splitOn_of_notMem (hsingle rfl)]
      refine ⟨matchSegments_fixed (by simp [startsWith]) hne (.inl rfl) hmatch, ?_⟩
      simp [extractSegments, parameterName, stripPrefix, Option.mem_def.mp hlookup, hextract]
    · obtain rfl : pattern = [] := hfinal rfl
      obtain ⟨value, hlookup, hpieces, -⟩ := hvalue name rfl
      have hfill : fillSegment params ('*' :: name) = value := by
        simp [fillSegment, parameterName, stripPrefix, Option.mem_def.mp hlookup]
      obtain ⟨first, rest, hcons⟩ := List.exists_cons_of_ne_nil (List.splitOn_ne_nil '/' value)
      have htext : first ++ rest.flatMap ('/' :: ·) = value := by
        simpa [hcons] using flatMap_splitOn value
      rw [hfill, hcons]
      refine ⟨matchSegments_star rfl (by simpa [filledSegments, ← hcons] using hpieces), ?_⟩
      simp [extractSegments, parameterName, stripPrefix, Option.mem_def.mp hlookup, filledSegments,
        htext]
    · have hliteral : parameterName p = none := by simp [parameterName, hname, hcatch]
      have hfill : fillSegment params p = p := by simp [fillSegment, hliteral]
      rw [hfill, splitOn_of_notMem (hslash p List.mem_cons_self)]
      simp [matchSegments, extractSegments, hparam, hstar, hname, hcatch, hliteral, hmatch,
        hextract]

/-- Values that are filled into a template are found again in the path. -/
theorem extractParams_substitute {H : Type} {validMethod : String → Bool} {route : RouteInfo H}
    (h : route.Valid validMethod) (hfilled : Filled params (segments route.path)) :
    pathMatches route.path (substitute route.path params) = true ∧
      extractParams route.path (substitute route.path params) =
        ((segments route.path).filterMap parameterName).map
          fun name => (name, (params.lookup name).getD []) := by
  obtain ⟨-, hroot, -, hcheck⟩ := h.checks
  have hcheck : checkSegments [] (segments route.path) = .ok () := by
    rw [segments_eq_cons hroot]
    exact hcheck
  rw [pathMatches, extractParams, segments_substitute]
  exact filledSegments_spec hcheck (fun _ => Delimiter.notMem_of_mem_splitOn) hfilled

theorem extractParams_substitute_item :
    let params := [(['i', 'd'], ['7'])]
    pathMatches itemAction.path (substitute itemAction.path params) = true ∧
      extractParams itemAction.path (substitute itemAction.path params) = params := by
  have hvalid : itemAction.Valid (fun _ => true) := ⟨by decide, by decide⟩
  exact extractParams_substitute hvalid (by unfold Filled; decide)

/-! ## Routes that no other route hides -/

/-- The rank of a template that matches the segments of another one, which has no catch-all. -/
theorem rank_le_of_matchSegments (hcheck : checkSegments seen pattern = .ok ())
    (hmatch : matchSegments pattern path = true) :
    (pattern.filter fun s => !startsWith ':' s && !startsWith '*' s).length ≤
        (path.filter fun s => !startsWith ':' s && !startsWith '*' s).length ∧
      (pattern.takeWhile (!startsWith '*' ·)).length ≤ path.length := by
  induction pattern generalizing seen path with
  | nil => cases path <;> simp_all [matchSegments]
  | cons p pattern ih =>
    cases path with
    | nil => simp [matchSegments] at hmatch
    | cons s path =>
      obtain ⟨hfinal, -, hrest⟩ := checkSegments_cons hcheck
      rcases segment_cases p with ⟨name, rfl⟩ | ⟨name, rfl⟩ | ⟨hparam, hstar, -, -⟩
      · obtain ⟨hliteral, hfixed⟩ := ih hrest (matchSegments_tail hmatch (by simp [startsWith]))
        have hskip := ((List.sublist_cons_self s path).filter
          fun s => !startsWith ':' s && !startsWith '*' s).length_le
        simpa [startsWith] using ⟨hliteral.trans hskip, hfixed⟩
      · obtain rfl : pattern = [] := hfinal rfl
        simp [startsWith]
      · obtain rfl : p = s := by
          by_contra hne
          simp [matchSegments, hparam, hstar, hne] at hmatch
        simpa [hparam, hstar] using ih hrest (matchSegments_tail hmatch (by simp [hstar]))

theorem precedence_le_of_pathMatches {H : Type} {validMethod : String → Bool}
    {route other : RouteInfo H} (hroute : startsWith '/' route.path.toList = true)
    (hother : other.Valid validMethod) (hfixed : hasCatchAll route.path = false)
    (hmatch : pathMatches other.path route.path = true) :
    precedence other.path ≤ precedence route.path := by
  obtain ⟨-, hroot, -, hcheck⟩ := hother.checks
  rw [pathMatches, segments_eq_cons hroot, segments_eq_cons hroute] at hmatch
  have htail := matchSegments_tail hmatch (by simp)
  obtain ⟨hliteral, hle⟩ := rank_le_of_matchSegments hcheck htail
  have hlength : fixedSegmentCount route.path = ((segments route.path).drop 1).length := by
    rw [fixedSegmentCount, List.takeWhile_eq_self_iff.mpr]
    intro segment hsegment
    simpa using List.any_eq_false.mp hfixed segment (List.mem_of_mem_drop hsegment)
  rw [← hlength] at hle
  rw [precedence, precedence, Prod.Lex.toLex_le_toLex]
  refine hliteral.lt_or_eq.imp_right fun heq => ⟨heq, ?_⟩
  rw [Prod.Lex.toLex_le_toLex]
  refine hle.lt_or_eq.imp_right fun heq => ⟨heq, ?_⟩
  simp [hfixed]

/-- A route without a catch-all is not hidden: a request for the text of its template, with the
names of the parameters in their places, comes to it. A catch-all may be hidden, as `/*rest` is by
`/:a` and `/:a/*r` together. -/
theorem resolve_own_path {H : Type} {validMethod : String → Bool}
    (hcolon : ∀ method, validMethod method = true → ':' ∉ method.toList)
    {routes : List (RouteInfo H)} {table : RouteTable H}
    (h : fromRoutes validMethod routes = .ok table) {route : RouteInfo H}
    (hroute : route ∈ registeredRoutes routes) (hfixed : hasCatchAll route.path = false) :
    (table.resolve route.method route.path).erase = .found route := by
  have hdescribes := fromRoutes_describes h
  have hvalid : ∀ other ∈ registeredRoutes routes, ∃ original : RouteInfo H,
      original.Valid validMethod ∧ other = original.normalized := by
    intro other hother
    obtain ⟨original, horiginal, rfl⟩ := List.mem_map.mp hother
    exact ⟨original, (fromRoutes_ok h).1 original horiginal, rfl⟩
  have hmethods : ∀ other ∈ registeredRoutes routes, ':' ∉ other.method.toList := by
    intro other hother
    obtain ⟨original, horiginal, rfl⟩ := hvalid other hother
    exact hcolon _ horiginal.checks.1
  rw [hdescribes.resolve_found_iff hmethods (hmethods route hroute)]
  refine .inl ⟨hroute, ?_⟩
  cases hparam : isParameterized route.path with
  | false => exact .inl ⟨hparam, rfl, rfl⟩
  | true =>
    have hself : IsCandidate route.method route.path route := by
      obtain ⟨original, horiginal, rfl⟩ := hvalid route hroute
      obtain ⟨-, hroot, hslash | hfilled, -⟩ := horiginal.checks
      · rw [show original.normalized.path = "/" from hslash] at hparam
        exact absurd hparam (by decide)
      · refine ⟨hparam, rfl, ?_⟩
        change pathMatches original.path original.path = true
        rw [pathMatches, segments_eq_cons hroot]
        simpa [matchSegments] using matchSegments_self hfilled
    -- An exact route for this path would be without parameters, and a candidate is below.
    refine .inr ⟨fun other _ hexact => ?_, hself, fun other hother hcandidate hne => ?_⟩
    · have hother := hexact.1
      rw [hexact.2.2, hparam] at hother
      cases hother
    · refine lt_of_le_of_ne ?_ (hdescribes.precedence_ne hother hroute hcandidate hself hne)
      obtain ⟨original, horiginal, rfl⟩ := hvalid other hother
      exact (precedence_le_of_pathMatches (hdescribes.rooted route hroute) horiginal hfixed
        hcandidate.2.2 :)

/-- The catch-all matches the text of the other template too. -/
theorem resolve_own_path_item :
    pathMatches restAction.path itemAction.path = true ∧ ∃ table,
      fromRoutes (fun method => !method.toList.contains ':') [restAction, itemAction] = .ok table ∧
      (table.resolve "GET" "/:id").erase = .found itemAction := by
  have htable : fromRoutes (fun method => !method.toList.contains ':')
    [restAction, itemAction] = .ok _ := rfl
  have hitem : itemAction ∈ registeredRoutes [restAction, itemAction] :=
    List.mem_cons_of_mem _ List.mem_cons_self
  exact ⟨by decide, _, htable, resolve_own_path notMem_of_not_contains htable hitem (by decide)⟩

end Lily.Http.Route
