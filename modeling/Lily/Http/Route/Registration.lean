import Lily.Control.Validation
import Lily.Http.Route.Table

/-!
# What an accepted route list looks like

A list of routes is accepted exactly when every route is valid on its own and no
two of them are in conflict. Both conditions ignore the order of the list, which
is how order independence of the build is obtained. The registration loop is
described by `Represents`: the maps and the template list it has built so far are
determined by the routes it has consumed.

Registered routes are compared after `RouteInfo.erase`, which forgets the plan
number assigned by the position in the input.
-/

namespace Lily.Http.Route

open Validation

variable (validMethod : String → Bool) (route : RouteInfo H)

/-- The same route, whatever its position in the registration list was. -/
def RouteInfo.erase : RouteInfo H := { route with routePlanId := 0 }

/-- The form in which a valid route is registered, up to its plan number. -/
def RouteInfo.normalized : RouteInfo H :=
  { route with method := asciiUppercase route.method, routePlanId := 0 }

/-- A route that passes `validate_and_normalize_route`. -/
def RouteInfo.Valid : Prop :=
  route.method ≠ "" ∧ invalidReason validMethod route.method route.path = .ok ()

/-- The key under which duplicates are detected. -/
def RouteInfo.registrationKey : String :=
  routeKey route.method (normalizedRegistrationPath route.path)

/-- Two templates of one method that a request path could match with equal rank. -/
def Ambiguous (left right : RouteInfo H) : Prop :=
  isParameterized left.path = true ∧ isParameterized right.path = true ∧
    left.method = right.method ∧ equalPrecedence left.path right.path = true ∧
    templatesOverlap left.path right.path = true

/-- Two routes that may stand in one table, in either order. -/
def Compatible (left right : RouteInfo H) : Prop :=
  left.registrationKey ≠ right.registrationKey ∧ ¬ Ambiguous left right

theorem equalPrecedence_comm (left right : String) :
    equalPrecedence left right = equalPrecedence right left := by
  simp only [equalPrecedence]
  rw [Bool.beq_comm (a := literalSegmentCount left), Bool.beq_comm (a := fixedSegmentCount left),
    Bool.beq_comm (a := hasCatchAll left)]

theorem Compatible.symm {left right : RouteInfo H} (h : Compatible left right) :
    Compatible right left := by
  refine ⟨h.1.symm, fun hambiguous => h.2 ?_⟩
  obtain ⟨hright, hleft, hmethod, hrank, hoverlap⟩ := hambiguous
  exact ⟨hleft, hright, hmethod.symm, by rw [equalPrecedence_comm]; exact hrank,
    by rw [templatesOverlap_comm]; exact hoverlap⟩

instance : Std.Symm (Compatible (H := H)) := ⟨fun _ _ => Compatible.symm⟩

/-! ## The validation loop -/

section Normalize

variable {validMethod : String → Bool}

theorem validateAndNormalizeRoute_ok_iff {route out : RouteInfo H} :
    validateAndNormalizeRoute validMethod route = .ok out ↔
      route.Valid validMethod ∧ out = { route with method := asciiUppercase route.method } := by
  unfold validateAndNormalizeRoute RouteInfo.Valid
  by_cases hempty : route.method = ""
  · simp [hempty]
  · cases hreason : invalidReason validMethod route.method route.path with
    | ok u => simp [hempty, eq_comm]
    | error reason => simp [hempty]

/-- The first loop succeeds exactly on lists of valid routes, and then returns
their normal forms in order. -/
theorem normalizeRoutes_outcome (routes : List (RouteInfo H)) (n : Nat) :
    Outcome (fun out => (∀ route ∈ routes, route.Valid validMethod) ∧
        out.map RouteInfo.erase = routes.map RouteInfo.normalized)
      (fun _ => ¬ ∀ route ∈ routes, route.Valid validMethod)
      (normalizeRoutes validMethod n routes) := by
  induction routes generalizing n with
  | nil => exact ⟨by simp, rfl⟩
  | cons route rest ih =>
    rw [normalizeRoutes, List.forall_mem_cons]
    cases hroute : validateAndNormalizeRoute validMethod route with
    | error error =>
      rintro ⟨hvalid, -⟩
      cases hroute.symm.trans (validateAndNormalizeRoute_ok_iff.mpr ⟨hvalid, rfl⟩)
    | ok first =>
      obtain ⟨hvalid, rfl⟩ := validateAndNormalizeRoute_ok_iff.mp hroute
      have hrest := ih (n + 1)
      cases h : normalizeRoutes validMethod (n + 1) rest with
      | error error => exact fun hall => hrest.of_error h hall.2
      | ok tail =>
        obtain ⟨hall, htail⟩ := hrest.of_ok h
        exact ⟨⟨hvalid, hall⟩, congrArg (List.cons _) htail⟩

end Normalize

/-! ## The registration loop -/

theorem rejectEqualPrecedenceOverlap_ok_iff {candidate : RouteInfo H}
    {existing : List (RouteInfo H)} :
    rejectEqualPrecedenceOverlap candidate existing = .ok () ↔
      ∀ route ∈ existing, ¬ (route.method = candidate.method ∧
        equalPrecedence route.path candidate.path = true ∧
        templatesOverlap route.path candidate.path = true) := by
  induction existing with
  | nil => simp [rejectEqualPrecedenceOverlap]
  | cons route rest ih =>
    rw [rejectEqualPrecedenceOverlap]
    by_cases hclash : (route.method == candidate.method &&
        equalPrecedence route.path candidate.path &&
        templatesOverlap route.path candidate.path) = true
    · simp only [hclash, if_true, reduceCtorEq, false_iff]
      intro hall
      simp only [Bool.and_eq_true, beq_iff_eq] at hclash
      exact hall route List.mem_cons_self ⟨hclash.1.1, hclash.1.2, hclash.2⟩
    · rw [if_neg hclash, ih]
      simp only [Bool.and_eq_true, beq_iff_eq, and_assoc] at hclash
      constructor
      · intro hrest other hmem
        rcases List.mem_cons.mp hmem with rfl | hmem
        · exact hclash
        · exact hrest other hmem
      · intro hall other hmem
        exact hall other (List.mem_cons_of_mem _ hmem)

/-- What the loop variables hold after the routes `done` were consumed. -/
structure Represents (state : Registration H) (done : List (RouteInfo H)) : Prop where
  exact : ∀ key route, state.exactRoutes.lookup key = some route ↔
    route ∈ done ∧ isParameterized route.path = false ∧ key = routeKey route.method route.path
  param : state.paramRoutes = done.filter (fun route => isParameterized route.path)
  registered : ∀ key, (state.registered.lookup key).isSome = true ↔
    ∃ route ∈ done, key = route.registrationKey

theorem represents_empty : Represents (H := H) Registration.empty [] := by
  refine ⟨?_, rfl, ?_⟩ <;> simp [Registration.empty]

variable {route : RouteInfo H}

theorem registrationKey_of_exact (h : isParameterized route.path = false) :
    route.registrationKey = routeKey route.method route.path := by
  rw [RouteInfo.registrationKey, normalizedRegistrationPath_of_exact h]

variable {state : Registration H} {done : List (RouteInfo H)}

/-- One iteration is accepted exactly when the new route is compatible with all
routes registered before it. -/
theorem registerRoute_outcome (h : Represents state done) :
    Outcome (fun next => Represents next (done ++ [route]) ∧
        ∀ earlier ∈ done, Compatible earlier route)
      (fun _ => ¬ ∀ earlier ∈ done, Compatible earlier route) (registerRoute state route) := by
  have hregistered (key : String) : ((state.registered.insert route.registrationKey
      route.handlerName).lookup key).isSome = true ↔
        ∃ r ∈ done ++ [route], key = r.registrationKey := by
    rw [AList.lookup_isSome, AList.mem_insert, ← AList.lookup_isSome, h.registered]
    simp [or_and_right, exists_or, or_comm]
  unfold registerRoute
  dsimp only
  rw [← RouteInfo.registrationKey]
  cases hkey : state.registered.lookup route.registrationKey with
  | some first =>
    obtain ⟨earlier, hmem, hsame⟩ := (h.registered route.registrationKey).mp (by rw [hkey]; rfl)
    exact fun hall => (hall earlier hmem).1 hsame.symm
  | none =>
    have hfresh : ∀ earlier ∈ done, earlier.registrationKey ≠ route.registrationKey := by
      intro earlier hmem hsame
      have hsome := (h.registered route.registrationKey).mpr ⟨earlier, hmem, hsame.symm⟩
      simp [hkey] at hsome
    cases hparam : isParameterized route.path with
    | false =>
      refine ⟨⟨fun key r => ?_, by simp [h.param, hparam], hregistered⟩,
        fun earlier hmem => ⟨hfresh earlier hmem, fun hambiguous => ?_⟩⟩
      · by_cases hnew : key = routeKey route.method route.path
        · -- The new key is not yet in the map, since it is also a registration key.
          have hkeys : ∀ r ∈ done, isParameterized r.path = false →
              routeKey route.method route.path ≠ routeKey r.method r.path := by
            intro r hr hexact hsame
            refine hfresh r hr ?_
            rw [registrationKey_of_exact hexact, registrationKey_of_exact hparam, hsame]
          grind [AList.lookup_insert]
        · grind [AList.lookup_insert_ne, h.exact key r]
      · exact absurd hambiguous.2.1 (by simp [hparam])
    | true =>
      have hreject : rejectEqualPrecedenceOverlap route state.paramRoutes = .ok () ↔
          ∀ earlier ∈ done, ¬ Ambiguous earlier route := by
        rw [rejectEqualPrecedenceOverlap_ok_iff, h.param]
        simp [Ambiguous, hparam]
      simp only [if_true]
      cases hok : rejectEqualPrecedenceOverlap route state.paramRoutes with
      | error error =>
        intro hall
        cases hok.symm.trans (hreject.mpr fun earlier hmem => (hall earlier hmem).2)
      | ok u =>
        refine ⟨⟨fun key r => ?_, by simp [h.param, hparam], hregistered⟩,
          fun earlier hmem => ⟨hfresh earlier hmem, hreject.mp hok earlier hmem⟩⟩
        grind [h.exact key r]

variable {routes : List (RouteInfo H)}

/-- A run of the loop describes exactly the routes it has consumed, and those
routes are pairwise compatible. -/
theorem registerRoutes_outcome (h : Represents state done)
    (hcompatible : done.Pairwise Compatible) :
    Outcome (fun final => Represents final (done ++ routes) ∧ (done ++ routes).Pairwise Compatible)
      (fun _ => ¬ (done ++ routes).Pairwise Compatible) (registerRoutes state routes) := by
  induction routes generalizing state done with
  | nil => simpa [registerRoutes] using ⟨h, hcompatible⟩
  | cons route rest ih =>
    have hstep : Outcome _ _ (registerRoute state route) := registerRoute_outcome h
    rw [registerRoutes]
    cases hnext : registerRoute state route with
    | error error =>
      refine fun hall => hstep.of_error hnext fun earlier hmem => ?_
      exact (List.pairwise_append.mp hall).2.2 earlier hmem route List.mem_cons_self
    | ok next =>
      obtain ⟨hnext, hfits⟩ := hstep.of_ok hnext
      have hpair : (done ++ [route]).Pairwise Compatible :=
        List.pairwise_append.mpr ⟨hcompatible, List.pairwise_singleton _ _, by simpa using hfits⟩
      simpa using ih hnext hpair

/-! ## Acceptance -/

def registeredRoutes (routes : List (RouteInfo H)) : List (RouteInfo H) :=
  routes.map RouteInfo.normalized

theorem fromRoutes_ok {validMethod : String → Bool} {table : RouteTable H}
    (h : fromRoutes validMethod routes = .ok table) :
    (∀ route ∈ routes, route.Valid validMethod) ∧
      ∃ done final, done.map RouteInfo.erase = registeredRoutes routes ∧
        done.Pairwise Compatible ∧ Represents final done ∧
        table = ⟨final.exactRoutes, sortRoutes final.paramRoutes⟩ := by
  unfold fromRoutes at h
  cases hnorm : normalizeRoutes validMethod 0 routes with
  | error e => simp [hnorm] at h
  | ok out =>
    cases hreg : registerRoutes Registration.empty out with
    | error e => simp [hnorm, hreg] at h
    | ok final =>
      simp only [hnorm, hreg, Except.ok.injEq] at h
      obtain ⟨hvalid, hout⟩ := (normalizeRoutes_outcome routes 0).of_ok hnorm
      obtain ⟨hfinal, hpair⟩ := (registerRoutes_outcome represents_empty .nil).of_ok hreg
      exact ⟨hvalid, out, final, hout, hpair, hfinal, h.symm⟩

/-- Acceptance is a property of the routes and of their pairs, not of their order. -/
theorem fromRoutes_accepts_iff {validMethod : String → Bool} :
    (∃ table, fromRoutes validMethod routes = .ok table) ↔
      (∀ route ∈ routes, route.Valid validMethod) ∧
        (registeredRoutes routes).Pairwise Compatible := by
  constructor
  · rintro ⟨table, htable⟩
    obtain ⟨hvalid, done, final, hdone, hpair, -⟩ := fromRoutes_ok htable
    refine ⟨hvalid, ?_⟩
    rw [← hdone, List.pairwise_map]
    exact hpair
  · rintro ⟨hvalid, hpair⟩
    rw [fromRoutes]
    cases hnorm : normalizeRoutes validMethod 0 routes with
    | error error => exact absurd hvalid ((normalizeRoutes_outcome routes 0).of_error hnorm)
    | ok out =>
      rw [registeredRoutes, ← ((normalizeRoutes_outcome routes 0).of_ok hnorm).2,
        List.pairwise_map] at hpair
      cases hreg : registerRoutes Registration.empty out with
      | error error =>
        exact absurd hpair ((registerRoutes_outcome represents_empty .nil).of_error hreg)
      | ok final => exact ⟨_, by simp only [hreg]; rfl⟩

/-- Reordering the registrations does not change whether they are accepted. -/
theorem fromRoutes_accepts_perm {validMethod : String → Bool} {routes' : List (RouteInfo H)}
    (hperm : routes.Perm routes') :
    (∃ table, fromRoutes validMethod routes = .ok table) ↔
      ∃ table, fromRoutes validMethod routes' = .ok table := by
  have hpairs : (registeredRoutes routes).Pairwise Compatible ↔
      (registeredRoutes routes').Pairwise Compatible :=
    (hperm.map RouteInfo.normalized).pairwise_iff Compatible.symm
  rw [fromRoutes_accepts_iff, fromRoutes_accepts_iff, hpairs]
  simp only [hperm.mem_iff]

end Lily.Http.Route
