import Lily.Http.Route.Registration
import Mathlib.Data.Prod.Lex

/-!
# Route selection does not depend on registration order

`Selects` says which route a request is for, in terms of the registered routes
alone: the exact route for the method and path if there is one, and otherwise the
matching template that strictly dominates every other matching template in the
lexicographic rank of literal segments, fixed segments and absence of a catch-all.
The table's lookup is proved to compute this relation, so that any two orders of
one registration list resolve every request to the same route.
-/

namespace Lily.Http.Route

open RouteTable RouteInfo

/-- The rank of a template; a larger rank is preferred. -/
def precedence (path : String) : ℕ ×ₗ ℕ ×ₗ Bool :=
  toLex (literalSegmentCount path, toLex (fixedSegmentCount path, !hasCatchAll path))

theorem precedence_eq_iff {left right : String} :
    precedence left = precedence right ↔ equalPrecedence left right = true := by
  simp [precedence, equalPrecedence, and_assoc]

variable (exact : RouteInfo H → Prop) (registered : List (RouteInfo H)) (method path : String)
  (route : RouteInfo H)

/-- The complete sort key of `param_routes.sort_by`. -/
def RouteInfo.sortKey : ℕᵒᵈ ×ₗ ℕᵒᵈ ×ₗ Bool ×ₗ String ×ₗ String ×ₗ String :=
  toLex (OrderDual.toDual (literalSegmentCount route.path),
    toLex (OrderDual.toDual (fixedSegmentCount route.path),
      toLex (hasCatchAll route.path,
        toLex (route.method, toLex (route.path, route.handlerName)))))

theorem compareRoutes_isLE_iff {left right : RouteInfo H} :
    (compareRoutes left right).isLE = true ↔ left.sortKey ≤ right.sortKey := by
  have hcompare : compareRoutes left right = compare left.sortKey right.sortKey := by
    simp only [Prod.Lex.compare_def, compareLex, compareOn, sortKey, compareRoutes]
    rfl
  rw [hcompare, ← Ordering.ne_gt_iff_isLE]
  exact compare_le_iff_le

instance : Std.Total (fun left right : RouteInfo H => (compareRoutes left right).isLE = true) :=
  ⟨fun left right => by simpa only [compareRoutes_isLE_iff] using le_total _ _⟩

instance : IsTrans (RouteInfo H) (fun left right => (compareRoutes left right).isLE = true) :=
  ⟨fun left middle right => by simpa only [compareRoutes_isLE_iff] using le_trans⟩

/-- An earlier template of the sorted list has at least the rank of a later one. -/
theorem precedence_le_of_sortKey_le {left right : RouteInfo H}
    (h : left.sortKey ≤ right.sortKey) : precedence right.path ≤ precedence left.path := by
  simp only [sortKey, Prod.Lex.toLex_le_toLex, OrderDual.toDual_lt_toDual,
    EmbeddingLike.apply_eq_iff_eq] at h
  simp only [precedence, Prod.Lex.toLex_le_toLex]
  rcases h with hliteral | ⟨hliteral, hfixed | ⟨hfixed, hcatchAll⟩⟩
  · exact .inl hliteral
  · exact .inr ⟨hliteral.symm, .inl hfixed⟩
  · refine .inr ⟨hliteral.symm, .inr ⟨hfixed.symm, ?_⟩⟩
    have hle : hasCatchAll left.path ≤ hasCatchAll right.path :=
      hcatchAll.elim le_of_lt (fun hrest => le_of_eq hrest.1)
    revert hle
    cases hasCatchAll left.path <;> cases hasCatchAll right.path <;> decide

/-! ## Which route a request is for -/

/-- The parameterless route registered for this method and path. -/
def IsExact : Prop :=
  isParameterized route.path = false ∧ route.method = method ∧ route.path = path

/-- The entry that the table's exact map holds under the key of this request. -/
def IsKeyed : Prop :=
  isParameterized route.path = false ∧ routeKey route.method route.path = routeKey method path

def IsCandidate : Prop :=
  isParameterized route.path = true ∧ route.method = method ∧ pathMatches route.path path = true

/-- The preferred route among the registered ones, for a given notion of exact
match. Dominance is strict, so that at most one candidate can have it. -/
def Prefers : Prop :=
  route ∈ registered ∧
    (exact route ∨
      (∀ other ∈ registered, ¬ exact other) ∧ IsCandidate method path route ∧
        ∀ other ∈ registered, IsCandidate method path other → other ≠ route →
          precedence other.path < precedence route.path)

/-- The route a request is for, by the exact-then-most-specific rule. -/
def Selects : Prop :=
  Prefers (IsExact method path) registered method path route

variable {route : RouteInfo H} {exact : RouteInfo H → Prop}

theorem Prefers.congr {exact' : RouteInfo H → Prop} {registered : List (RouteInfo H)}
    {method path : String} (h : ∀ other ∈ registered, exact other ↔ exact' other) :
    Prefers exact registered method path route ↔ Prefers exact' registered method path route := by
  refine and_congr_right fun hmem => or_congr (h route hmem) (and_congr_left fun _ => ?_)
  exact forall₂_congr fun other hother => not_congr (h other hother)

theorem Prefers.perm {registered registered' : List (RouteInfo H)} {method path : String}
    (hperm : registered.Perm registered') :
    Prefers exact registered method path route ↔ Prefers exact registered' method path route := by
  simp only [Prefers, hperm.mem_iff]

/-- Two routes cannot both be preferred when no two routes share an exact match. -/
theorem Prefers.unique {registered : List (RouteInfo H)} {method path : String}
    {route' : RouteInfo H} (hexact : ∀ a ∈ registered, ∀ b ∈ registered, exact a → exact b → a = b)
    (h : Prefers exact registered method path route)
    (h' : Prefers exact registered method path route') : route = route' := by
  obtain ⟨hmem, hroute | ⟨hnone, hcandidate, hdominates⟩⟩ := h
  · obtain ⟨hmem', hroute' | ⟨hnone', -, -⟩⟩ := h'
    · exact hexact route hmem route' hmem' hroute hroute'
    · exact absurd hroute (hnone' route hmem)
  · obtain ⟨hmem', hroute' | ⟨-, hcandidate', hdominates'⟩⟩ := h'
    · exact absurd hroute' (hnone route' hmem')
    · by_contra hne
      have hlt := hdominates route' hmem' hcandidate' (Ne.symm hne)
      exact lt_asymm hlt (hdominates' route hmem hcandidate hne)

/-! ## The table as a description of its registered routes -/

/-- The facts about a table that its lookups depend on. -/
structure Describes (table : RouteTable H) (registered : List (RouteInfo H)) : Prop where
  exact : ∀ key route, (table.exactRoutes.lookup key).map erase = some route ↔
    route ∈ registered ∧ isParameterized route.path = false ∧
      key = routeKey route.method route.path
  param : ∀ route, route ∈ table.paramRoutes.map erase ↔
    route ∈ registered ∧ isParameterized route.path = true
  sorted : table.paramRoutes.Pairwise (fun left right => left.sortKey ≤ right.sortKey)
  compatible : registered.Pairwise Compatible
  rooted : ∀ route ∈ registered, startsWith '/' route.path.toList = true

variable {validMethod : String → Bool} {routes : List (RouteInfo H)} {table : RouteTable H}

theorem RouteInfo.Valid.checks (h : route.Valid validMethod) :
    validMethod (asciiUppercase route.method) = true ∧
      startsWith '/' route.path.toList = true ∧
      (route.path = "/" ∨ [] ∉ (segments route.path).drop 1) ∧
      checkSegments [] ((segments route.path).drop 1) = .ok () := by
  have hreason := h.2
  unfold invalidReason at hreason
  split_ifs at hreason with hmethod hlength hroot hquery hempty
  simp_all [or_iff_not_imp_left]

theorem fromRoutes_describes (h : fromRoutes validMethod routes = .ok table) :
    Describes table (registeredRoutes routes) := by
  obtain ⟨hvalid, done, final, hdone, hpair, hfinal, rfl⟩ := fromRoutes_ok h
  refine ⟨?_, ?_, ?_, ?_, ?_⟩
  · intro key route
    rw [← hdone]
    simp only [Option.map_eq_some_iff, hfinal.exact, List.mem_map]
    constructor
    · rintro ⟨r, ⟨hr, hrest⟩, rfl⟩
      exact ⟨⟨r, hr, rfl⟩, hrest⟩
    · rintro ⟨⟨r, hr, rfl⟩, hrest⟩
      exact ⟨r, ⟨hr, hrest⟩, rfl⟩
  · intro route
    rw [← hdone]
    simp only [List.mem_map, sortRoutes, List.mem_insertionSort, hfinal.param, List.mem_filter]
    constructor
    · rintro ⟨r, ⟨hr, hparam⟩, rfl⟩
      exact ⟨⟨r, hr, rfl⟩, hparam⟩
    · rintro ⟨⟨r, hr, rfl⟩, hparam⟩
      exact ⟨r, ⟨hr, hparam⟩, rfl⟩
  · exact (List.pairwise_insertionSort _ _).imp compareRoutes_isLE_iff.mp
  · rw [← hdone, List.pairwise_map]
    exact hpair
  · intro route hroute
    obtain ⟨r, hr, rfl⟩ := List.mem_map.mp hroute
    exact (hvalid r hr).checks.2.1

namespace Describes

variable {table : RouteTable H} {registered : List (RouteInfo H)} {method path : String}
  (h : Describes table registered)

include h

theorem keyed_unique :
    ∀ a ∈ registered, ∀ b ∈ registered, IsKeyed method path a → IsKeyed method path b →
      a = b := by
  intro a ha b hb hkeyed hkeyed'
  by_contra hne
  apply (h.compatible.forall ha hb hne).1
  rw [registrationKey_of_exact hkeyed.1, registrationKey_of_exact hkeyed'.1, hkeyed.2, hkeyed'.2]

/-- Candidates of equal rank would overlap, and an accepted list has no such pair. -/
theorem precedence_ne {a b : RouteInfo H} (ha : a ∈ registered) (hb : b ∈ registered)
    (hca : IsCandidate method path a) (hcb : IsCandidate method path b)
    (hne : a ≠ b) : precedence a.path ≠ precedence b.path := by
  intro hrank
  apply (h.compatible.forall ha hb hne).2
  exact ⟨hca.1, hcb.1, hca.2.1.trans hcb.2.1.symm, precedence_eq_iff.mp hrank,
    templatesOverlap_of_pathMatches (h.rooted a ha) (h.rooted b hb) hca.2.2 hcb.2.2⟩

/-- What the lookup returns is preferred. -/
theorem find_prefers (hfind : table.findRouteForMethod method path = some route) :
    Prefers (IsKeyed method path) registered method path route.erase := by
  unfold findRouteForMethod at hfind
  cases hlookup : table.exactRoutes.lookup (routeKey method path) with
  | some found =>
    simp only [hlookup, Option.some.injEq] at hfind
    subst hfind
    obtain ⟨hmem, hexact, hkey⟩ := (h.exact (routeKey method path) found.erase).mp (by
      rw [hlookup]; rfl)
    exact ⟨hmem, .inl ⟨hexact, hkey.symm⟩⟩
  | none =>
    simp only [hlookup] at hfind
    obtain ⟨hmatch, before, after, hsplit, hbefore⟩ := List.find?_eq_some_iff_append.mp hfind
    simp only [Bool.and_eq_true, beq_iff_eq] at hmatch
    have hmember : route ∈ table.paramRoutes := by simp [hsplit]
    obtain ⟨hmem, hparam⟩ := (h.param route.erase).mp (List.mem_map_of_mem hmember)
    have hcandidate : IsCandidate method path route.erase := ⟨hparam, hmatch⟩
    refine ⟨hmem, .inr ⟨?_, hcandidate, ?_⟩⟩
    · intro other hother hkeyed
      have hsome := (h.exact (routeKey method path) other).mpr
        ⟨hother, hkeyed.1, hkeyed.2.symm⟩
      simp [hlookup] at hsome
    · intro other hother hcandidate' hne
      obtain ⟨stored, hstored, rfl⟩ := List.mem_map.mp
        ((h.param other).mpr ⟨hother, hcandidate'.1⟩)
      -- A competing match cannot stand before the first match of the sorted list.
      have hafter : stored ∈ after := by
        rw [hsplit, List.mem_append, List.mem_cons] at hstored
        rcases hstored with hstored | rfl | hstored
        · have hmiss := hbefore stored hstored
          have hmatches : stored.method = method ∧ pathMatches stored.path path = true :=
            hcandidate'.2
          simp [hmatches] at hmiss
        · exact absurd rfl hne
        · exact hstored
      have hsorted := h.sorted
      rw [hsplit, List.pairwise_append] at hsorted
      have hle := precedence_le_of_sortKey_le
        (List.rel_of_pairwise_cons hsorted.2.1 hafter)
      exact lt_of_le_of_ne hle (h.precedence_ne hother hmem hcandidate' hcandidate hne)

/-- When the lookup fails, no registered route was eligible. -/
theorem find_none (hfind : table.findRouteForMethod method path = none) :
    ∀ route ∈ registered, ¬ IsKeyed method path route ∧ ¬ IsCandidate method path route := by
  unfold findRouteForMethod at hfind
  cases hlookup : table.exactRoutes.lookup (routeKey method path) with
  | some found => simp [hlookup] at hfind
  | none =>
    simp only [hlookup, List.find?_eq_none] at hfind
    intro route hroute
    constructor
    · intro hkeyed
      have hsome := (h.exact (routeKey method path) route).mpr
        ⟨hroute, hkeyed.1, hkeyed.2.symm⟩
      simp [hlookup] at hsome
    · intro hcandidate
      obtain ⟨stored, hstored, rfl⟩ := List.mem_map.mp
        ((h.param route).mpr ⟨hroute, hcandidate.1⟩)
      have hmatches : stored.method = method ∧ pathMatches stored.path path = true :=
        hcandidate.2
      exact hfind stored hstored (by simp [hmatches])

theorem find_eq_some_iff :
    (table.findRouteForMethod method path).map erase = some route ↔
      Prefers (IsKeyed method path) registered method path route := by
  cases hfind : table.findRouteForMethod method path with
  | some found =>
    have hfound := h.find_prefers hfind
    simp only [Option.map_some, Option.some.injEq]
    exact ⟨fun heq => heq ▸ hfound, fun hroute => hfound.unique h.keyed_unique hroute⟩
  | none =>
    have hnone := h.find_none hfind
    simp only [Option.map_none, reduceCtorEq, false_iff]
    rintro ⟨hmem, hkeyed | ⟨-, hcandidate, -⟩⟩
    · exact (hnone route hmem).1 hkeyed
    · exact (hnone route hmem).2 hcandidate

theorem mem_routes : route ∈ table.routes.map erase ↔ route ∈ registered := by
  have hexact : route ∈ (table.exactRoutes.entries.map Sigma.snd).map erase ↔
      route ∈ registered ∧ isParameterized route.path = false := by
    constructor
    · intro hmem
      obtain ⟨stored, hstored, rfl⟩ := List.mem_map.mp hmem
      obtain ⟨⟨key, value⟩, hentry, rfl⟩ := List.mem_map.mp hstored
      have hlookup := AList.mem_lookup_iff.mpr hentry
      have hstored := (h.exact key value.erase).mp (by rw [Option.mem_def.mp hlookup]; rfl)
      exact ⟨hstored.1, hstored.2.1⟩
    · rintro ⟨hmem, hparam⟩
      have hsome := (h.exact _ route).mpr ⟨hmem, hparam, rfl⟩
      obtain ⟨stored, hlookup, rfl⟩ := Option.map_eq_some_iff.mp hsome
      exact List.mem_map_of_mem
        (List.mem_map.mpr ⟨_, AList.mem_lookup_iff.mp hlookup, rfl⟩)
  rw [routes, List.map_append, List.mem_append, hexact, h.param route,
    ← and_or_left]
  cases isParameterized route.path <;> simp

theorem mem_allowedMethods {allowed : String} :
    allowed ∈ table.allowedMethods path ↔
      ∃ route ∈ registered, servesPath path route = true ∧
        allowed ∈ routeMethods route := by
  simp only [allowedMethods, Collection.mem_orderedSet, List.mem_flatMap,
    List.mem_filter]
  constructor
  · rintro ⟨stored, ⟨hstored, hserves⟩, hallowed⟩
    exact ⟨stored.erase, h.mem_routes.mp (List.mem_map_of_mem hstored), hserves, hallowed⟩
  · rintro ⟨route, hroute, hserves, hallowed⟩
    obtain ⟨stored, hstored, rfl⟩ := List.mem_map.mp (h.mem_routes.mpr hroute)
    exact ⟨stored, ⟨hstored, hserves⟩, hallowed⟩

end Describes

/-! ## Resolution does not depend on the registration order -/

/-- The answer to a request, up to the plan number of the route. -/
def RouteResolution.erase : RouteResolution H → RouteResolution H
  | .found route => .found route.erase
  | .methodNotAllowed allow => .methodNotAllowed allow
  | .notFound => .notFound

section Permutation

variable {table table' : RouteTable H} {registered registered' : List (RouteInfo H)}

theorem find_erase_perm (h : Describes table registered) (h' : Describes table' registered')
    (hperm : registered.Perm registered') (method path : String) :
    (table.findRouteForMethod method path).map erase =
      (table'.findRouteForMethod method path).map erase := by
  ext route
  rw [h.find_eq_some_iff, h'.find_eq_some_iff, Prefers.perm hperm]

theorem allowedMethods_perm (h : Describes table registered) (h' : Describes table' registered')
    (hperm : registered.Perm registered') (path : String) :
    table.allowedMethods path = table'.allowedMethods path := by
  apply Collection.orderedSet_congr
  intro allowed
  have hleft : allowed ∈ table.allowedMethods path ↔ _ := h.mem_allowedMethods
  have hright : allowed ∈ table'.allowedMethods path ↔ _ := h'.mem_allowedMethods
  simp only [allowedMethods, Collection.mem_orderedSet] at hleft hright
  rw [hleft, hright]
  simp only [hperm.mem_iff]

/-- Resolution reads the table only through lookups and the `Allow` list. -/
theorem RouteTable.resolve_eq (table : RouteTable H) (method path : String) :
    table.resolve method path =
      match (table.findRouteForMethod method path).or
        (if method = "HEAD" then table.findRouteForMethod "GET" path else none) with
      | some route => .found route
      | none => if (table.allowedMethods path).isEmpty then .notFound
          else .methodNotAllowed (table.allowedMethods path) := by
  unfold resolve
  cases table.findRouteForMethod method path <;> rfl

theorem RouteTable.resolve_erase (table : RouteTable H) (method path : String) :
    (table.resolve method path).erase =
      match ((table.findRouteForMethod method path).map erase).or
        (if method = "HEAD" then (table.findRouteForMethod "GET" path).map erase else none) with
      | some route => .found route
      | none => if (table.allowedMethods path).isEmpty then .notFound
          else .methodNotAllowed (table.allowedMethods path) := by
  rw [← Option.map_none erase, ← apply_ite (Option.map erase), ← Option.map_or, resolve_eq]
  generalize Option.or _ _ = found
  cases found with
  | some route => rfl
  | none => dsimp only [Option.map_none]; split_ifs <;> rfl

theorem resolve_erase_perm (h : Describes table registered) (h' : Describes table' registered')
    (hperm : registered.Perm registered') (method path : String) :
    (table.resolve method path).erase = (table'.resolve method path).erase := by
  rw [resolve_erase, resolve_erase, find_erase_perm h h' hperm,
    find_erase_perm h h' hperm, allowedMethods_perm h h' hperm]

end Permutation

/-! ## The selection rule for real methods

The exact map is keyed by one string, `method:path`. A method token contains no
colon, and then the key determines both parts. -/

theorem routeKey_inj {method method' path path' : String} (hmethod : ':' ∉ method.toList)
    (hmethod' : ':' ∉ method'.toList) :
    routeKey method path = routeKey method' path' ↔ method = method' ∧ path = path' := by
  refine ⟨fun h => ?_, fun h => by rw [h.1, h.2]⟩
  have hchars : method.toList ++ ':' :: path.toList = method'.toList ++ ':' :: path'.toList := by
    have := congrArg String.toList h
    simpa [routeKey] using this
  rw [List.append_eq_append_iff] at hchars
  -- A key that split earlier would put a colon inside the longer method.
  rcases hchars with ⟨gap, hgap, hrest⟩ | ⟨gap, hgap, hrest⟩ <;> cases gap with
  | nil => simp_all [String.toList_inj]
  | cons c gap => simp_all

/-- The route for a request, with the `GET` route standing in for a `HEAD` request
that has none of its own. -/
def Serves (registered : List (RouteInfo H)) (method path : String) (route : RouteInfo H) : Prop :=
  Selects registered method path route ∨
    method = "HEAD" ∧ (∀ other, ¬ Selects registered method path other) ∧
      Selects registered "GET" path route

namespace Describes

variable {table : RouteTable H} {registered : List (RouteInfo H)} {method path : String}

theorem prefers_iff_selects (hmethods : ∀ route ∈ registered, ':' ∉ route.method.toList)
    (hmethod : ':' ∉ method.toList) :
    Prefers (IsKeyed method path) registered method path route ↔
      Selects registered method path route :=
  Prefers.congr fun other hother =>
    and_congr_right fun _ => routeKey_inj (hmethods other hother) hmethod

/-- Eligible routes always have a unique preferred one among them. -/
theorem existsUnique_selects (h : Describes table registered)
    (hmethods : ∀ route ∈ registered, ':' ∉ route.method.toList) (hmethod : ':' ∉ method.toList)
    (heligible : ∃ route ∈ registered, IsExact method path route ∨ IsCandidate method path route) :
    ∃! route, Selects registered method path route := by
  obtain ⟨eligible, hmem, heligible⟩ := heligible
  cases hfind : table.findRouteForMethod method path with
  | some found =>
    refine ⟨found.erase, (prefers_iff_selects hmethods hmethod).mp (h.find_prefers hfind), ?_⟩
    intro other hother
    have hother := (prefers_iff_selects hmethods hmethod).mpr hother
    exact hother.unique h.keyed_unique (h.find_prefers hfind)
  | none =>
    obtain ⟨hkeyed, hcandidate⟩ := h.find_none hfind eligible hmem
    rcases heligible with ⟨hexact, rfl, rfl⟩ | heligible
    · exact absurd ⟨hexact, rfl⟩ hkeyed
    · exact absurd heligible hcandidate

theorem resolve_found_iff (h : Describes table registered)
    (hmethods : ∀ route ∈ registered, ':' ∉ route.method.toList) (hmethod : ':' ∉ method.toList)
    (route : RouteInfo H) :
    (table.resolve method path).erase = .found route ↔ Serves registered method path route := by
  have hselects {verb : String} (hverb : ':' ∉ verb.toList) (other : RouteInfo H) :
      (table.findRouteForMethod verb path).map erase = some other ↔
        Selects registered verb path other :=
    h.find_eq_some_iff.trans (prefers_iff_selects hmethods hverb)
  rw [resolve_erase]
  simp only [Serves, ← hselects hmethod, ← hselects (by decide : ':' ∉ "GET".toList)]
  cases (table.findRouteForMethod method path).map erase with
  | some own => simp
  | none =>
    by_cases hhead : method = "HEAD"
    · simp only [hhead, if_true, Option.none_or]
      cases (table.findRouteForMethod "GET" path).map erase with
      | some fallback => simp
      | none => split_ifs <;> simp
    · simp only [hhead, if_false, Option.none_or]
      split_ifs <;> simp

end Describes

/-- Registration order has no observable effect, and the answer to every request is
the one the exact-then-most-specific rule gives. The method parser is assumed to
reject a method that contains a colon, as every token parser does. -/
theorem fromRoutes_resolve_perm (validMethod : String → Bool)
    (hcolon : ∀ method, validMethod method = true → ':' ∉ method.toList)
    {routes routes' : List (RouteInfo H)} (hperm : routes.Perm routes') :
    ((∃ table, fromRoutes validMethod routes = .ok table) ↔
      ∃ table', fromRoutes validMethod routes' = .ok table') ∧
    ∀ table table', fromRoutes validMethod routes = .ok table →
      fromRoutes validMethod routes' = .ok table' → ∀ method path,
        (table.resolve method path).erase = (table'.resolve method path).erase ∧
        (validMethod method = true →
          (∀ route, (table.resolve method path).erase = .found route ↔
            Serves (registeredRoutes routes) method path route) ∧
          ∀ verb ∈ [method, "GET"],
            (∃ route ∈ registeredRoutes routes,
              IsExact verb path route ∨ IsCandidate verb path route) →
            ∃! route, Selects (registeredRoutes routes) verb path route) := by
  refine ⟨fromRoutes_accepts_perm hperm, ?_⟩
  intro table table' htable htable' method path
  have hdescribes := fromRoutes_describes htable
  refine ⟨resolve_erase_perm hdescribes (fromRoutes_describes htable')
    (hperm.map normalized) method path, ?_⟩
  intro hvalid
  have hmethods : ∀ route ∈ registeredRoutes routes, ':' ∉ route.method.toList := by
    intro route hroute
    obtain ⟨original, horiginal, rfl⟩ := List.mem_map.mp hroute
    exact hcolon _ ((fromRoutes_ok htable).1 original horiginal).checks.1
  refine ⟨hdescribes.resolve_found_iff hmethods (hcolon method hvalid), ?_⟩
  intro verb hverb
  have hverb : ':' ∉ verb.toList := by
    simp only [List.mem_cons, List.not_mem_nil, or_false] at hverb
    rcases hverb with rfl | rfl
    · exact hcolon verb hvalid
    · decide
  exact hdescribes.existsUnique_selects hmethods hverb

theorem notMem_of_not_contains (method : String) (h : (!method.toList.contains ':') = true) :
    ':' ∉ method.toList := by
  simpa using h

def showUser : RouteInfo Unit := ⟨"GET", "/users/:id", "show", (), 0⟩

def ownUser : RouteInfo Unit := ⟨"get", "/users/me", "me", (), 0⟩

/-- Two routes registered in either order, with a method parser that only excludes colons. -/
theorem fromRoutes_resolve_perm_users :
    ∃ table table',
      fromRoutes (fun method => !method.toList.contains ':') [showUser, ownUser] = .ok table ∧
      fromRoutes (fun method => !method.toList.contains ':') [ownUser, showUser] = .ok table' ∧
      (table.resolve "HEAD" "/users/me").erase = (table'.resolve "HEAD" "/users/me").erase ∧
      (table.resolve "GET" "/users/7").erase = .found showUser := by
  obtain ⟨haccepted, hresolve⟩ := fromRoutes_resolve_perm _ notMem_of_not_contains
    (List.Perm.swap ownUser showUser [])
  obtain ⟨table', htable'⟩ := haccepted.mp ⟨_, rfl⟩
  obtain ⟨table, htable⟩ := haccepted.mpr ⟨table', htable'⟩
  refine ⟨table, table', htable, htable', (hresolve table table' htable htable' _ _).1, ?_⟩
  cases htable
  rfl

/-! ## Methods that a path allows -/

def RouteResolution.isFound : RouteResolution H → Bool
  | .found _ => true
  | _ => false

theorem RouteInfo.method_mem_methods (route : RouteInfo H) : route.method ∈ routeMethods route := by
  unfold routeMethods
  split <;> simp

theorem RouteTable.isFound_resolve_iff (table : RouteTable H) (method path : String) :
    (table.resolve method path).isFound = true ↔
      (table.findRouteForMethod method path).isSome = true ∨
        method = "HEAD" ∧ (table.findRouteForMethod "GET" path).isSome = true := by
  have hsome : (table.resolve method path).isFound = ((table.findRouteForMethod method path).or
      (if method = "HEAD" then table.findRouteForMethod "GET" path else none)).isSome := by
    rw [resolve_eq]
    split
    next hroute => rw [hroute]; rfl
    next hnone => rw [hnone]; split <;> rfl
  rw [hsome]
  by_cases hhead : method = "HEAD" <;> simp [hhead]

theorem RouteTable.resolve_of_not_found {table : RouteTable H} {method path : String}
    (h : (table.resolve method path).isFound = false) :
    table.resolve method path = if (table.allowedMethods path).isEmpty then .notFound
      else .methodNotAllowed (table.allowedMethods path) := by
  rw [resolve_eq] at h ⊢
  split at h
  · cases h
  · rfl

namespace Describes

variable {table : RouteTable H} {registered : List (RouteInfo H)} {method path : String}

theorem find_isSome_iff (h : Describes table registered)
    (hmethods : ∀ route ∈ registered, ':' ∉ route.method.toList) (hmethod : ':' ∉ method.toList) :
    (table.findRouteForMethod method path).isSome = true ↔
      ∃ route ∈ registered, servesPath path route = true ∧ route.method = method := by
  constructor
  · intro hsome
    obtain ⟨found, hfind⟩ := Option.isSome_iff_exists.mp hsome
    obtain ⟨hmem, hroute⟩ := (prefers_iff_selects hmethods hmethod).mp (h.find_prefers hfind)
    generalize found.erase = route at hmem hroute
    rcases hroute with ⟨hexact, heq, hpath⟩ | ⟨-, ⟨hparam, heq, hpath⟩, -⟩
    · exact ⟨route, hmem, by simp [servesPath, hexact, ← hpath], heq⟩
    · exact ⟨route, hmem, by simp [servesPath, hparam, hpath], heq⟩
  · rintro ⟨route, hmem, hserves, rfl⟩
    by_contra hnone
    obtain ⟨hkeyed, hcandidate⟩ := h.find_none (by simpa using hnone) route hmem
    unfold servesPath at hserves
    split at hserves
    next hparam => exact hcandidate ⟨hparam, rfl, hserves⟩
    next hparam => exact hkeyed ⟨by simpa using hparam, by rw [beq_iff_eq.mp hserves]⟩

/-- The scan behind the `Allow` list and the lookup behind a resolution agree. -/
theorem mem_allowedMethods_iff (h : Describes table registered)
    (hmethods : ∀ route ∈ registered, ':' ∉ route.method.toList) (hmethod : ':' ∉ method.toList) :
    method ∈ table.allowedMethods path ↔ (table.resolve method path).isFound = true := by
  have hget : (table.findRouteForMethod "GET" path).isSome = true ↔ _ :=
    h.find_isSome_iff hmethods (by decide)
  rw [table.isFound_resolve_iff, h.find_isSome_iff hmethods hmethod, hget, h.mem_allowedMethods]
  constructor
  · rintro ⟨route, hmem, hserves, hlisted⟩
    unfold routeMethods at hlisted
    split at hlisted
    next hmethod => grind
    next => grind
  · rintro (⟨route, hmem, hserves, rfl⟩ | ⟨rfl, route, hmem, hserves, hroute⟩)
    · exact ⟨route, hmem, hserves, route.method_mem_methods⟩
    · exact ⟨route, hmem, hserves, by simp [routeMethods, hroute]⟩

end Describes

/-- The three answers to a request in terms of the methods that resolve. -/
theorem resolve_methods (validMethod : String → Bool)
    (hcolon : ∀ method, validMethod method = true → ':' ∉ method.toList)
    {routes : List (RouteInfo H)} {table : RouteTable H}
    (h : fromRoutes validMethod routes = .ok table) (method path : String)
    (hmethod : validMethod method = true) :
    ((∃ allow, table.resolve method path = .methodNotAllowed allow) ↔
      (table.resolve method path).isFound = false ∧ ∃ other, validMethod other = true ∧
        other ≠ method ∧ (table.resolve other path).isFound = true) ∧
    (∀ allow, table.resolve method path = .methodNotAllowed allow →
      allow.Pairwise (· < ·) ∧ ("GET" ∈ allow → "HEAD" ∈ allow) ∧
        ∀ other, validMethod other = true →
          (other ∈ allow ↔ (table.resolve other path).isFound = true)) ∧
    (table.resolve method path = .notFound ↔
      ∀ other, validMethod other = true → (table.resolve other path).isFound = false) := by
  have hdescribes := fromRoutes_describes h
  have hvalid : ∀ route ∈ registeredRoutes routes, validMethod route.method = true := by
    intro route hroute
    obtain ⟨original, horiginal, rfl⟩ := List.mem_map.mp hroute
    exact ((fromRoutes_ok h).1 original horiginal).checks.1
  have hmethods : ∀ route ∈ registeredRoutes routes, ':' ∉ route.method.toList :=
    fun route hroute => hcolon _ (hvalid route hroute)
  have hlisted : ∀ other, validMethod other = true →
      (other ∈ table.allowedMethods path ↔ (table.resolve other path).isFound = true) :=
    fun other hother => hdescribes.mem_allowedMethods_iff hmethods (hcolon other hother)
  cases hfound : (table.resolve method path).isFound with
  | true =>
    have hanswer : ∀ answer : RouteResolution H, answer.isFound = false →
        table.resolve method path ≠ answer := by
      rintro answer hanswer heq
      simp [heq, hanswer] at hfound
    refine ⟨?_, fun allow hallow => absurd hallow (hanswer _ rfl), ?_⟩
    · simp [hanswer (.methodNotAllowed _) rfl]
    · refine iff_of_false (hanswer _ rfl) fun hnone => ?_
      simp [hnone method hmethod] at hfound
  | false =>
    rw [resolve_of_not_found hfound]
    by_cases hempty : table.allowedMethods path = []
    · -- Nothing is listed, so nothing resolves.
      have hnone : ∀ other, validMethod other = true →
          (table.resolve other path).isFound = false := by
        intro other hother
        simpa [hempty] using hlisted other hother
      simp only [hempty, List.isEmpty_nil, if_true, reduceCtorEq, exists_false, true_and,
        false_iff, false_imp_iff, implies_true, true_iff]
      exact ⟨fun ⟨other, hother, _, hresolved⟩ => by simp [hnone other hother] at hresolved,
        hnone⟩
    · obtain ⟨first, hfirst⟩ := List.exists_mem_of_ne_nil _ hempty
      obtain ⟨route, hroute, hserves, -⟩ := hdescribes.mem_allowedMethods.mp hfirst
      have hother : route.method ∈ table.allowedMethods path :=
        hdescribes.mem_allowedMethods.mpr ⟨route, hroute, hserves, route.method_mem_methods⟩
      have hresolved := (hlisted _ (hvalid route hroute)).mp hother
      have hne : route.method ≠ method := by
        intro heq
        simp [heq, hfound] at hresolved
      simp only [List.isEmpty_iff, hempty, if_false, RouteResolution.methodNotAllowed.injEq,
        exists_eq', true_and, true_iff, forall_eq', reduceCtorEq, false_iff, not_forall]
      refine ⟨⟨route.method, hvalid route hroute, hne, hresolved⟩,
        ⟨Collection.orderedSet_pairwise_lt _, ?_, hlisted⟩,
        ⟨route.method, hvalid route hroute, by simp [hresolved]⟩⟩
      intro hget
      rw [hdescribes.mem_allowedMethods_iff hmethods (by decide),
        isFound_resolve_iff] at hget ⊢
      exact .inr ⟨rfl, hget.resolve_right (by simp)⟩

theorem resolve_methods_list :
    ∃ table, fromRoutes (fun method => !method.toList.contains ':')
        [⟨"GET", "/", "list", (), 0⟩] = .ok table ∧
      table.resolve "POST" "/" = .methodNotAllowed ["GET", "HEAD"] ∧
      (table.resolve "POST" "/").isFound = false := by
  have htable : fromRoutes (fun method => !method.toList.contains ':')
      [⟨"GET", "/", "list", (), 0⟩] = .ok _ := rfl
  have hresolve := resolve_methods _ notMem_of_not_contains htable "POST" "/" (by decide)
  exact ⟨_, htable, by decide, (hresolve.1.mp ⟨["GET", "HEAD"], by decide⟩).1⟩

end Lily.Http.Route
