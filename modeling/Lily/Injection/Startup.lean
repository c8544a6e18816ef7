import Lily.Injection.Analysis

/-!
# Eager start-up

The singletons are started one after the other, in the order of the analysis. The factory of a
service resolves its declared dependencies through the provider, which looks at the process
context of the current task: no container that is being built has a scope for it.

A hook that fails is an answer of the environment. The error it returns is not looked into, so
that an error here that requires a scope is one of the container's own.
-/

namespace Lily.Injection

open Graph Relation

/-- A container to be built: its services, the names of the types as they are requested, the
singletons that were seeded, whether the build runs inside a process context, and the failures of
the initialization hooks, by the order in which hooks are run. -/
structure Host where
  metadata : List ServiceMetadata
  requestedName : TypeId → String
  seeded : TypeId → Bool
  processContext : Bool
  hookFailure : Nat → Option String

/-- The cells of the singletons, and how many hooks have been run. -/
structure Root where
  singletons : TypeId → Option (Except InjectionError Unit) := fun _ => none
  hooks : Nat := 0

/-- A result, unless the recursion is deeper than the fuel. -/
abbrev Resolution := Option (Except InjectionError Unit × Root)

namespace Host

variable (host : Host)

variable (resolve : TypeId → Root → Resolution) (service : ServiceMetadata) (root : Root)

/-- The dependencies of a service, in the order of its fields. -/
def resolveDependencies :
    List TypeId → Root → Resolution
  | [], root => some (.ok (), root)
  | typeId :: rest, root =>
    match resolve typeId root with
    | none => none
    | some (.error source, root) =>
      some (.error (.dependencyResolutionFailed service.typeName (host.requestedName typeId)
        source), root)
    | some (.ok _, root) => resolveDependencies rest root

/-- The initialization hook of a new instance. -/
def runHook : Except InjectionError Unit × Root :=
  (match host.hookFailure root.hooks with
    | none => .ok ()
    | some message => .error (.serviceInitializationFailed service.typeName (.initError message)),
    { root with hooks := root.hooks + 1 })

/-- The factory of a service. The factory of a seeded singleton has its value already. -/
def createBoxed : Resolution :=
  if service.lifetime = .singleton ∧ host.seeded service.typeId then
    some (host.runHook service root)
  else
    match host.resolveDependencies resolve service service.dependencies root with
    | some (.ok _, root) => some (host.runHook service root)
    | result => result

def getSingletonAny : Resolution :=
  match root.singletons service.typeId with
  | some result => some (result, root)
  | none =>
    (host.createBoxed resolve service root).map fun (result, root) =>
      (result, { root with
        singletons := Function.update root.singletons service.typeId (some result) })

/-- With or without a process context, there is no scope. -/
def getScopedAny : Resolution :=
  some (.error (.scopeRequired (toString service.typeId)), root)

def createTransientAny : Resolution :=
  if host.processContext then
    some (.error (.scopeRequired ("transient " ++ toString service.typeId)), root)
  else host.createBoxed resolve service root

def resolveAny : Resolution :=
  match service.lifetime with
  | .singleton => host.getSingletonAny resolve service root
  | .scoped => getScopedAny service root
  | .transient => host.createTransientAny resolve service root

variable (typeId : TypeId)

/-- An error that asks for a scope names the type that was requested. -/
def nameRequested : Except InjectionError Unit → Except InjectionError Unit
  | .error (.scopeRequired _) => .error (.scopeRequired (host.requestedName typeId))
  | result => result

/-- The services are found by the routes, which the registration plan has checked against the
declarations. -/
def resolveService : Nat → TypeId → Root → Resolution
  | 0, _, _ => none
  | fuel + 1, typeId, root =>
    match host.metadata.find? fun service => service.Registers typeId with
    | none =>
      some (.error (.serviceNotFound ("Service '" ++ host.requestedName typeId ++
        "' is not registered in this application")), root)
    | some service =>
      (host.resolveAny (resolveService fuel) service root).map fun (result, root) =>
        (host.nameRequested typeId result, root)

/-- One singleton of the start-up order. -/
def resolveEagerSingleton (root : Root) : Resolution :=
  match host.metadata.find? fun service => service.typeId = typeId with
  | none =>
    some (.error (.invalidRegistrationPlan
      ("singleton startup order contains missing descriptor " ++ toString typeId)), root)
  | some service => host.resolveAny (host.resolveService host.metadata.length) service root

def startupError : InjectionError → InjectionError
  | .serviceInitializationFailed service source => .serviceInitializationFailed service source
  | source =>
    .serviceInitializationFailed
      ((host.metadata.find? fun service => service.typeId = typeId).elim "unknown service"
        ServiceMetadata.typeName)
      source

/-- The loop over the order. -/
def startAll : List TypeId → Root → Option (Except InjectionError Unit)
  | [], _ => some (.ok ())
  | typeId :: rest, root =>
    match host.resolveEagerSingleton typeId root with
    | none => none
    | some (.error source, _) => some (.error (host.startupError typeId source))
    | some (.ok _, root) => startAll rest root

/-- The build of a container: the analysis, then the singletons. -/
def build : Option (Except Failure Unit) :=
  match analyzeServiceGraph host.metadata with
  | .error failure => some (.error failure)
  | .ok order => (host.startAll order {}).map (Except.mapError Failure.rejected)

end Host

/-- The error goes back to a resolution that had no scope. -/
def InjectionError.requiresScope : InjectionError → Bool
  | .scopeRequired _ => true
  | .dependencyResolutionFailed _ _ source => source.requiresScope
  | .serviceInitializationFailed _ source => source.requiresScope
  | _ => false

end Lily.Injection
