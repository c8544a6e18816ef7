import Mathlib.Data.List.Dedup
import Mathlib.Data.List.FinRange
import Mathlib.Data.List.Sort
import Mathlib.Algebra.Order.Ring.Int

/-!
# Service metadata and the analysis of the service graph

`analyzeServiceGraph` is run over all declarations before a container starts anything. An index
into the list of declarations is a `Fin`, so that the vectors of the source are functions of the
index and no access is out of bounds. What is left of panics in the source is a panic here: the
subtraction from an in-degree of zero, and the assertion on the length of the order. The
recursion of the search and the loop over the queue are bounded by the number of services; a run
beyond the bound counts as a panic as well, so that a result is never due to the bound.
-/

namespace Lily.Injection

abbrev TypeId := Nat

inductive ServiceLifetime where
  | singleton
  | scoped
  | transient
  deriving DecidableEq

/-- The `Debug` form. -/
def ServiceLifetime.name : ServiceLifetime → String
  | .singleton => "Singleton"
  | .scoped => "Scoped"
  | .transient => "Transient"

structure ServiceMetadata where
  typeId : TypeId
  typeName : String
  traitTypeId : Option TypeId
  lifetime : ServiceLifetime
  dependencies : List TypeId
  deriving DecidableEq

inductive InjectionError where
  | missingDependency (service : String) (dependencyTypeId : TypeId)
  | circularDependency (cycle : List String)
  | lifetimeMismatch (service serviceLifetime dependency dependencyLifetime : String)
  | ambiguousRegistration (typeId : TypeId) (services : List String)
  | initError (message : String)
  | serviceNotFound (message : String)
  | dependencyResolutionFailed (service dependency : String) (source : InjectionError)
  | invalidRegistrationPlan (message : String)
  | scopeRequired (service : String)
  | serviceInitializationFailed (service : String) (source : InjectionError)
  deriving DecidableEq

inductive Failure where
  | rejected (error : InjectionError)
  | panic
  deriving DecidableEq

def validateLifetimeCompatibility (service dependency : ServiceLifetime) : Except String Unit :=
  match service, dependency with
  | .singleton, .scoped =>
    .error ("Singleton service cannot depend on Scoped service. " ++
      "Use factory pattern or make dependency Singleton.")
  | _, _ => .ok ()

/-! ## Cycles -/

/-- The codes 0, 1 and 2 of the search. -/
inductive Mark where
  | unvisited
  | onStack
  | done
  deriving DecidableEq

inductive Search (n : Nat) where
  | found (cycle : List (Fin n))
  | clear (states : Fin n → Mark) (stack : List (Fin n))
  | overflow

section Search

variable {n : Nat}

/-- Go on, unless there is a result already. -/
def Search.andThen (search : Search n) (next : (Fin n → Mark) → List (Fin n) → Search n) :
    Search n :=
  match search with
  | .clear states stack => next states stack
  | result => result

/-- The loop over the dependencies of a node, with the recursive call as an argument. -/
def visitDependencies (visit : Fin n → (Fin n → Mark) → List (Fin n) → Search n) :
    List (Fin n) → (Fin n → Mark) → List (Fin n) → Search n
  | [], states, stack => .clear states stack
  | dependency :: rest, states, stack =>
    match states dependency with
    | .unvisited => (visit dependency states stack).andThen (visitDependencies visit rest)
    | .onStack => .found (stack.drop ((stack.findIdx? (· == dependency)).getD 0))
    | .done => visitDependencies visit rest states stack

def visit (dependencies : Fin n → List (Fin n)) :
    Nat → Fin n → (Fin n → Mark) → List (Fin n) → Search n
  | 0, _, _, _ => .overflow
  | depth + 1, current, states, stack =>
    (visitDependencies (visit dependencies depth) (dependencies current)
      (Function.update states current .onStack) (stack ++ [current])).andThen
      fun states stack => .clear (Function.update states current .done) stack.dropLast

/-- The loop over all nodes. -/
def visitAll (dependencies : Fin n → List (Fin n)) :
    List (Fin n) → (Fin n → Mark) → List (Fin n) → Search n
  | [], states, stack => .clear states stack
  | index :: rest, states, stack =>
    if states index = .unvisited then
      (visit dependencies n index states stack).andThen (visitAll dependencies rest)
    else visitAll dependencies rest states stack

def findDependencyCycle (dependencies : Fin n → List (Fin n)) : Search n :=
  visitAll dependencies (List.finRange n) (fun _ => .unvisited) []

end Search

/-! ## Order -/

/-- The state of Kahn's algorithm. -/
structure Kahn (n : Nat) where
  queue : List (Fin n)
  inDegree : Fin n → Nat
  topologicalOrder : List (Fin n)

section Order

variable {n : Nat} (dependencies : Fin n → List (Fin n))

def reverseGraph : Fin n → List (Fin n) :=
  (List.finRange n).foldl
    (fun graph service => (dependencies service).foldl
      (fun graph dependency => Function.update graph dependency (graph dependency ++ [service]))
      graph)
    (fun _ => [])

/-- The loop over the dependents of a node that has been put into the order. -/
def release : List (Fin n) → Kahn n → Option (Kahn n)
  | [], state => some state
  | dependent :: rest, state =>
    match state.inDegree dependent with
    | 0 => none
    | degree + 1 =>
      release rest { state with
        inDegree := Function.update state.inDegree dependent degree
        queue := if degree = 0 then state.queue ++ [dependent] else state.queue }

/-- The loop over the queue. -/
def drain (reverse : Fin n → List (Fin n)) : Nat → Kahn n → Option (List (Fin n))
  | _, ⟨[], _, order⟩ => some order
  | 0, ⟨_ :: _, _, _⟩ => none
  | turns + 1, ⟨current :: queue, inDegree, order⟩ =>
    (release (reverse current) ⟨queue, inDegree, order ++ [current]⟩).bind (drain reverse turns)

def topologicalOrder : Option (List (Fin n)) :=
  let inDegree := fun service => (dependencies service).length
  let queue := (List.finRange n).filter fun index => inDegree index = 0
  drain (reverseGraph dependencies) n ⟨queue, inDegree, []⟩

end Order

/-! ## The analysis -/

section Analysis

variable (metadata : List ServiceMetadata)

/-- A map from type ids to services. -/
abbrev Registrations := TypeId → Option (Fin metadata.length)

def bothNames (existing service : Fin metadata.length) : List String :=
  ([(metadata.get existing).typeName, (metadata.get service).typeName].insertionSort (· ≤ ·)).dedup

variable (registrations : Registrations metadata)
  (graph : Fin metadata.length → List (Fin metadata.length)) (service : Fin metadata.length)

def registerResolvableType (typeId : TypeId)
    (service : Fin metadata.length) : Except Failure (Registrations metadata) :=
  match registrations typeId with
  | some existing =>
    .error (.rejected (.ambiguousRegistration typeId (bothNames metadata existing service)))
  | none => .ok (Function.update registrations typeId (some service))

def registerConcrete : Except Failure (Registrations metadata) :=
  registerResolvableType metadata registrations (metadata.get service).typeId service

def registerTrait : Except Failure (Registrations metadata) :=
  match (metadata.get service).traitTypeId with
  | some traitTypeId => registerResolvableType metadata registrations traitTypeId service
  | none => .ok registrations

def register : Except Failure (Registrations metadata) := do
  let concrete ← (List.finRange metadata.length).foldlM (registerConcrete metadata) fun _ => none
  (List.finRange metadata.length).foldlM (registerTrait metadata) concrete

/-- One declared dependency. Several fields of one type are one edge. -/
def addDependency (edges : List (Fin metadata.length)) (dependencyTypeId : TypeId) :
    Except Failure (List (Fin metadata.length)) :=
  match registrations dependencyTypeId with
  | none =>
    .error (.rejected (.missingDependency (metadata.get service).typeName dependencyTypeId))
  | some dependency =>
    match validateLifetimeCompatibility (metadata.get service).lifetime
        (metadata.get dependency).lifetime with
    | .error _ =>
      .error (.rejected (.lifetimeMismatch
        (metadata.get service).typeName (metadata.get service).lifetime.name
        (metadata.get dependency).typeName (metadata.get dependency).lifetime.name))
    | .ok _ => .ok (if dependency ∈ edges then edges else edges ++ [dependency])

def addDependencies :
    Except Failure (Fin metadata.length → List (Fin metadata.length)) := do
  let edges ← (metadata.get service).dependencies.foldlM
    (addDependency metadata registrations service) (graph service)
  pure (Function.update graph service edges)

def dependencyGraph : Except Failure (Fin metadata.length → List (Fin metadata.length)) :=
  (List.finRange metadata.length).foldlM (addDependencies metadata registrations) fun _ => []

/-- The names of a cycle, with the first one again at the end. -/
def cycleNames (cycle : List (Fin metadata.length)) : List String :=
  let names := cycle.map fun index => (metadata.get index).typeName
  names ++ names.head?.toList

def analyzeServiceGraph : Except Failure (List TypeId) := do
  if metadata.isEmpty then
    return []
  let registrations ← register metadata
  let dependencies ← dependencyGraph metadata registrations
  match findDependencyCycle dependencies with
  | .found cycle => .error (.rejected (.circularDependency (cycleNames metadata cycle)))
  | .overflow => .error .panic
  | .clear _ _ =>
    match topologicalOrder dependencies with
    | none => .error .panic
    | some order =>
      if order.length = metadata.length then
        .ok (order.filterMap fun index =>
          if (metadata.get index).lifetime = .singleton then some (metadata.get index).typeId
          else none)
      else .error .panic

end Analysis

end Lily.Injection
