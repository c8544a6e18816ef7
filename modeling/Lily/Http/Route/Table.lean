import Lily.Collection.OrderedSet
import Lily.Http.Route.Template
import Mathlib.Data.List.AList
import Mathlib.Data.String.Basic

/-!
# The route table: validation, registration and lookup

`fromRoutes` freezes a list of controller actions into a table. It first
validates and normalises every route, then registers them in order: parameterless
routes go to a map keyed by `METHOD:path`, the others to a list that is sorted by
precedence at the end. `resolve` consults the map first and then takes the first
matching template of the sorted list.

`validMethod` stands for `http::Method::from_bytes(..).is_ok()` of the `http`
crate. The handler, its guards, middleware and CORS registration are carried by
the table without being read, so they are one opaque type `H` here.
-/

namespace Lily.Http.Route

def maxRouteTemplateBytes : Nat := 4 * 1024

/-- The fields of one controller action that the route table carries. -/
structure RouteInfo (H : Type) where
  method : String
  path : String
  handlerName : String
  handler : H
  routePlanId : Nat
  deriving DecidableEq

inductive InvalidRouteReason where
  | emptyMethod
  | invalidMethod
  | pathTooLong
  | pathMustStartWithSlash
  | queryOrFragmentNotAllowed
  | emptySegment
  | invalidParameterName
  | duplicateParameterName
  | catchAllMustBeFinal
  deriving DecidableEq

/-- `RouteTableBuildError` with the payloads of its three error structures. -/
inductive RouteTableBuildError where
  | duplicate (method path firstHandler duplicateHandler : String)
  | invalid (method path handler : String) (reason : InvalidRouteReason)
  | ambiguous (method firstPath firstHandler secondPath secondHandler : String)

/-- `make_ascii_uppercase`. -/
def asciiUppercase (s : String) : String := String.ofList (s.toList.map Char.toUpper)

def isParameterName : Segment → Bool
  | [] => false
  | first :: rest =>
    (first.isAlpha || first == '_') && rest.all (fun c => c.isAlphanum || c == '_')

/-- The two checks made on a parameter name once it has been extracted. -/
def checkParameterName (seen : List Segment) (name : Segment) :
    Except InvalidRouteReason (List Segment) :=
  if !isParameterName name then .error .invalidParameterName
  else if name ∈ seen then .error .duplicateParameterName
  else .ok (name :: seen)

/-- The segment loop of `validate_and_normalize_route`. `seen` is the set of
parameter names so far; a catch-all must leave no segment behind it. -/
def checkSegments (seen : List Segment) : List Segment → Except InvalidRouteReason Unit
  | [] => .ok ()
  | segment :: rest =>
    match stripPrefix ':' segment with
    | some name =>
      match checkParameterName seen name with
      | .ok seen => checkSegments seen rest
      | .error reason => .error reason
    | none =>
      match stripPrefix '*' segment with
      | some name =>
        if rest ≠ [] then .error .catchAllMustBeFinal
        else
          match checkParameterName seen name with
          | .ok seen => checkSegments seen rest
          | .error reason => .error reason
      | none => checkSegments seen rest

/-- The reason for which a route is refused, if any. The method has already been
converted to upper case when it is checked as a token. -/
def invalidReason (validMethod : String → Bool) (method path : String) :
    Except InvalidRouteReason Unit :=
  if !validMethod (asciiUppercase method) then .error .invalidMethod
  else if maxRouteTemplateBytes < path.utf8ByteSize then .error .pathTooLong
  else if !startsWith '/' path.toList then .error .pathMustStartWithSlash
  else if path.toList.any (fun c => c == '?' || c == '#') then .error .queryOrFragmentNotAllowed
  else if path ≠ "/" && ((segments path).drop 1).any List.isEmpty then .error .emptySegment
  else checkSegments [] ((segments path).drop 1)

/-- An empty method is reported before the method is normalised, so that error
alone carries the method as it was supplied. -/
def validateAndNormalizeRoute (validMethod : String → Bool) (route : RouteInfo H) :
    Except RouteTableBuildError (RouteInfo H) :=
  if route.method = "" then
    .error (.invalid route.method route.path route.handlerName .emptyMethod)
  else
    match invalidReason validMethod route.method route.path with
    | .ok () => .ok { route with method := asciiUppercase route.method }
    | .error reason =>
      .error (.invalid (asciiUppercase route.method) route.path route.handlerName reason)

def routeKey (method path : String) : String := method ++ ":" ++ path

/-- Equal precedence means equal counts and the same kind of last segment. -/
def equalPrecedence (left right : String) : Bool :=
  literalSegmentCount left == literalSegmentCount right &&
    fixedSegmentCount left == fixedSegmentCount right &&
    hasCatchAll left == hasCatchAll right

def rejectEqualPrecedenceOverlap (candidate : RouteInfo H) :
    List (RouteInfo H) → Except RouteTableBuildError Unit
  | [] => .ok ()
  | existing :: rest =>
    if existing.method == candidate.method && equalPrecedence existing.path candidate.path &&
        templatesOverlap existing.path candidate.path then
      .error (.ambiguous candidate.method existing.path existing.handlerName
        candidate.path candidate.handlerName)
    else rejectEqualPrecedenceOverlap candidate rest

/-- The local variables of the registration loop. -/
structure Registration (H : Type) where
  exactRoutes : AList (fun _ : String => RouteInfo H)
  paramRoutes : List (RouteInfo H)
  registered : AList (fun _ : String => String)

def Registration.empty : Registration H := ⟨∅, [], ∅⟩

/-- One iteration of the registration loop. -/
def registerRoute (state : Registration H) (route : RouteInfo H) :
    Except RouteTableBuildError (Registration H) :=
  let registrationKey := routeKey route.method (normalizedRegistrationPath route.path)
  match state.registered.lookup registrationKey with
  | some firstHandler =>
    .error (.duplicate route.method route.path firstHandler route.handlerName)
  | none =>
    let registered := state.registered.insert registrationKey route.handlerName
    if isParameterized route.path then
      match rejectEqualPrecedenceOverlap route state.paramRoutes with
      | .error error => .error error
      | .ok () => .ok { state with
          paramRoutes := state.paramRoutes ++ [route], registered := registered }
    else
      .ok { state with
        exactRoutes := state.exactRoutes.insert (routeKey route.method route.path) route
        registered := registered }

def registerRoutes (state : Registration H) :
    List (RouteInfo H) → Except RouteTableBuildError (Registration H)
  | [] => .ok state
  | route :: rest =>
    match registerRoute state route with
    | .error error => .error error
    | .ok state => registerRoutes state rest

/-- The first loop of `from_routes`: every route is validated and numbered. -/
def normalizeRoutes (validMethod : String → Bool) (routePlanId : Nat) :
    List (RouteInfo H) → Except RouteTableBuildError (List (RouteInfo H))
  | [] => .ok []
  | route :: rest =>
    match validateAndNormalizeRoute validMethod route with
    | .error error => .error error
    | .ok route =>
      match normalizeRoutes validMethod (routePlanId + 1) rest with
      | .error error => .error error
      | .ok routes => .ok ({ route with routePlanId := routePlanId } :: routes)

/-- The comparison of `param_routes.sort_by`: more literals first, then more
fixed segments, then templates without a catch-all, then by text. -/
def compareRoutes (left right : RouteInfo H) : Ordering :=
  (compare (literalSegmentCount right.path) (literalSegmentCount left.path)).then
    ((compare (fixedSegmentCount right.path) (fixedSegmentCount left.path)).then
      ((compare (hasCatchAll left.path) (hasCatchAll right.path)).then
        ((compare left.method right.method).then
          ((compare left.path right.path).then
            (compare left.handlerName right.handlerName)))))

/-- Insertion sort stands for the stable `sort_by`. -/
def sortRoutes (routes : List (RouteInfo H)) : List (RouteInfo H) :=
  routes.insertionSort (fun left right => (compareRoutes left right).isLE = true)

structure RouteTable (H : Type) where
  exactRoutes : AList (fun _ : String => RouteInfo H)
  paramRoutes : List (RouteInfo H)

/-- Both counters of the source are the sizes of the two stores. -/
def fromRoutes (validMethod : String → Bool) (routes : List (RouteInfo H)) :
    Except RouteTableBuildError (RouteTable H) :=
  match normalizeRoutes validMethod 0 routes with
  | .error error => .error error
  | .ok routes =>
    match registerRoutes Registration.empty routes with
    | .error error => .error error
    | .ok state => .ok ⟨state.exactRoutes, sortRoutes state.paramRoutes⟩

inductive RouteResolution (H : Type) where
  | found (route : RouteInfo H)
  | methodNotAllowed (allow : List String)
  | notFound
  deriving DecidableEq

namespace RouteTable

def routes (table : RouteTable H) : List (RouteInfo H) :=
  table.exactRoutes.entries.map Sigma.snd ++ table.paramRoutes

/-- The stack buffer used for keys of at most 256 bytes holds the same bytes as
the formatted key, so both branches of the source read one entry of the map. -/
def findRouteForMethod (table : RouteTable H) (method path : String) : Option (RouteInfo H) :=
  match table.exactRoutes.lookup (routeKey method path) with
  | some route => some route
  | none => table.paramRoutes.find? (fun route =>
    route.method == method && pathMatches route.path path)

/-- Whether a registered route contributes its method to an `Allow` list. -/
def servesPath (path : String) (route : RouteInfo H) : Bool :=
  if isParameterized route.path then pathMatches route.path path else route.path == path

/-- The methods inserted into the ordered set, one or two for each route. -/
def routeMethods (route : RouteInfo H) : List String :=
  if route.method = "GET" then [route.method, "HEAD"] else [route.method]

/-- A `BTreeSet` is listed in increasing order and without repetition. -/
def allowedMethods (table : RouteTable H) (path : String) : List String :=
  Collection.orderedSet ((table.routes.filter (servesPath path)).flatMap routeMethods)

def resolve (table : RouteTable H) (method path : String) : RouteResolution H :=
  match table.findRouteForMethod method path with
  | some route => .found route
  | none =>
    let fallback := if method = "HEAD" then table.findRouteForMethod "GET" path else none
    match fallback with
    | some route => .found route
    | none =>
      let allow := table.allowedMethods path
      if allow.isEmpty then .notFound else .methodNotAllowed allow

end RouteTable

end Lily.Http.Route
