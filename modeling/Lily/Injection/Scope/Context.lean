import Lily.Injection.ServiceGraph
import Lily.Transition.Interleaving

/-!
# Resolutions inside one scope

The tasks of the machine are the resolutions of scoped and transient services in one scope, the
nested ones included: a factory that asks the provider for a dependency waits for another task.
Every access to the scope under its lock is a move, and so is every access to a creation lock.
A factory may ask for any service at any time, and end in any way, so that the service graph plays
no part here.

The cleanup of the scope is started once, by whoever closes it. Its task waits until no resolution
is in flight and takes the ledger. When the task is lost before that, its registration takes the
ledger if no resolution is in flight, and leaves it to the last resolution otherwise.
-/

namespace Lily.Injection.Scope

open Transition

inductive ScopeState where
  | opened
  | closing
  | closed
  deriving DecidableEq

inductive ScopedInstanceKind where
  | scopedService
  | transientService
  | partialInitialization
  deriving DecidableEq

/-- An instance, by the resolution whose factory made it. -/
structure ScopedInstance where
  typeId : TypeId
  kind : ScopedInstanceKind
  value : Nat

/-- A scoped instance is owned by the cache; the ledger has its place in the order of creation. -/
inductive LifecycleEntry where
  | cached (typeId : TypeId)
  | owned (instance' : ScopedInstance)

inductive Cleanup where
  | absent
  | waiting
  | drained
  | handedOff
  | detached
  deriving DecidableEq

/-- A scope with its creation locks, the progress of its cleanup, and the instances that its
resolutions have returned. -/
structure ScopeContext where
  scopedInstances : TypeId → Option ScopedInstance := fun _ => none
  lifecycleInstances : List LifecycleEntry := []
  creationLocks : TypeId → Option Nat := fun _ => none
  state : ScopeState := .opened
  inFlightResolutions : Nat := 0
  resolutionDrainHandoff : Bool := false
  cleanup : Cleanup := .absent
  returned : List Nat := []

namespace ScopeContext

variable (s : ScopeContext)

def beginClosing : ScopeContext := if s.state = .opened then { s with state := .closing } else s

def cacheAny (made : ScopedInstance) : ScopeContext :=
  { s with
    lifecycleInstances := if (s.scopedInstances made.typeId).isNone then
        s.lifecycleInstances ++ [.cached made.typeId] else s.lifecycleInstances
    scopedInstances := Function.update s.scopedInstances made.typeId (some made) }

/-- `track_transient` and `track_partial_initialization`. -/
def track (made : ScopedInstance) : ScopeContext :=
  { s with lifecycleInstances := s.lifecycleInstances ++ [.owned made] }

/-- The loop over the ledger, which takes the scoped instances out of the cache. -/
def takeEntries : List LifecycleEntry → (TypeId → Option ScopedInstance) → List ScopedInstance
  | [], _ => []
  | .cached typeId :: rest, cache =>
    match cache typeId with
    | some made => made :: takeEntries rest (Function.update cache typeId none)
    | none => takeEntries rest cache
  | .owned made :: rest, cache => made :: takeEntries rest cache

/-- `mark_closed` and `take_instances_for_disposal`, under one lock. -/
def detach : ScopeContext :=
  { s with
    scopedInstances := fun _ => none
    lifecycleInstances := []
    creationLocks := fun _ => none
    state := .closed
    resolutionDrainHandoff := false
    cleanup := .detached }

def instancesForDisposal : List ScopedInstance :=
  takeEntries s.lifecycleInstances.reverse s.scopedInstances

/-- The end of a resolution. The last one takes the ledger if that was left to it. -/
def leave : ScopeContext × Option (List ScopedInstance) :=
  let next := { s with inFlightResolutions := s.inFlightResolutions - 1 }
  if next.inFlightResolutions = 0 ∧ s.resolutionDrainHandoff = true then
    (next.detach, some next.instancesForDisposal)
  else (next, none)

end ScopeContext

/-! ## Resolutions -/

/-- The steps of one resolution. A factory keeps the instances that it has been given. -/
inductive Phase where
  | idle
  | entered
  | uncached
  | waiting
  | locked
  | building (resolved : List Nat)
  | built (resolved : List Nat)
  | interrupted (resolved : List Nat)
  | returning (value : Nat)
  | failing
  | done
  deriving DecidableEq

/-- A call that resolves one type, and whether it holds the creation lock of that type. -/
structure Task where
  typeId : TypeId := 0
  phase : Phase := .idle
  holding : Bool := false

inductive Event where
  | enter (typeId : TypeId)
  | proceed
  | acquire
  | resolved (value : Nat)
  | finish
  | fail
  | cancel (initializing : Bool)
  | beginCleanup
  | observeDrained
  | take
  | lose
  deriving DecidableEq

/-- What the log of a scope has. -/
inductive Entry where
  | admitted (typeId : TypeId)
  | published (made : ScopedInstance) (resolved : List Nat)
  | returned (typeId : TypeId) (value : Nat)
  | taken (instances : List ScopedInstance)

/-- The release of what a resolution holds: its creation lock first, then its place in the scope. -/
def release (s : ScopeContext) (task : Task) (value : Option Nat) : Turn ScopeContext Task Entry :=
  if task.holding then
    ⟨{ s with creationLocks := Function.update s.creationLocks task.typeId none },
      { task with holding := false }, []⟩
  else
    let (next, taken) := s.leave
    ⟨{ next with returned := next.returned ++ value.toList }, { task with phase := .done },
      (value.map (Entry.returned task.typeId)).toList ++ (taken.map Entry.taken).toList⟩

variable (lifetime : TypeId → ServiceLifetime) (i : Nat) (event : Event)

/-- A step of a resolution without an answer of the environment. -/
def proceed (s : ScopeContext) (task : Task) : Turn ScopeContext Task Entry :=
  let publish (kind : ScopedInstanceKind) (resolved : List Nat) (next : Phase) :=
    let made : ScopedInstance := ⟨task.typeId, kind, i⟩
    (⟨if kind = .scopedService then s.cacheAny made else s.track made,
      { task with phase := next }, [.published made resolved]⟩ : Turn ScopeContext Task Entry)
  match task.phase with
  | .entered =>
    if lifetime task.typeId = .scoped then
      match s.scopedInstances task.typeId with
      | some found => ⟨s, { task with phase := .returning found.value }, []⟩
      | none => ⟨s, { task with phase := .uncached }, []⟩
    else ⟨s, { task with phase := .building [] }, []⟩
  | .uncached => ⟨s, { task with phase := .waiting }, []⟩
  | .locked =>
    match s.scopedInstances task.typeId with
    | some found => ⟨s, { task with phase := .returning found.value }, []⟩
    | none => ⟨s, { task with phase := .building [] }, []⟩
  | .built resolved =>
    publish (if lifetime task.typeId = .scoped then .scopedService else .transientService) resolved
      (.returning i)
  | .interrupted resolved => publish .partialInitialization resolved .failing
  | .returning value => release s task (some value)
  | .failing => release s task none
  | _ => ⟨s, task, []⟩

def act (s : ScopeContext) (task : Task) : Turn ScopeContext Task Entry :=
  match event, task.phase with
  | .enter typeId, .idle =>
    if lifetime typeId = .singleton then ⟨s, task, []⟩
    else if s.state = .opened then
      ⟨{ s with inFlightResolutions := s.inFlightResolutions + 1 },
        { task with typeId := typeId, phase := .entered }, [.admitted typeId]⟩
    else ⟨s, { task with phase := .done }, []⟩
  | .proceed, _ => proceed lifetime i s task
  | .acquire, .waiting =>
    if (s.creationLocks task.typeId).isNone then
      ⟨{ s with creationLocks := Function.update s.creationLocks task.typeId (some i) },
        { task with phase := .locked, holding := true }, []⟩
    else ⟨s, task, []⟩
  | .resolved value, .building resolved =>
    if value ∈ s.returned then
      ⟨s, { task with phase := .building (resolved ++ [value]) }, []⟩
    else ⟨s, task, []⟩
  | .finish, .building resolved => ⟨s, { task with phase := .built resolved }, []⟩
  | .fail, .building _ => ⟨s, { task with phase := .failing }, []⟩
  | .cancel initializing, .building resolved =>
    ⟨s, { task with phase := if initializing then .interrupted resolved else .failing }, []⟩
  | .cancel _, .waiting => ⟨s, { task with phase := .failing }, []⟩
  | .beginCleanup, _ =>
    if s.cleanup = .absent then ⟨{ s.beginClosing with cleanup := .waiting }, task, []⟩
    else ⟨s, task, []⟩
  | .observeDrained, _ =>
    if s.cleanup = .waiting ∧ s.inFlightResolutions = 0 then
      ⟨{ s with cleanup := .drained }, task, []⟩
    else ⟨s, task, []⟩
  | .take, _ =>
    if s.cleanup = .drained then ⟨s.detach, task, [.taken s.instancesForDisposal]⟩
    else ⟨s, task, []⟩
  | .lose, _ =>
    if s.cleanup = .waiting then
      if s.inFlightResolutions = 0 then ⟨{ s with cleanup := .drained }, task, []⟩
      else ⟨{ s with cleanup := .handedOff, resolutionDrainHandoff := true }, task, []⟩
    else ⟨s, task, []⟩
  | _, _ => ⟨s, task, []⟩

def resolutions : Machine Nat ScopeContext Task Event Entry :=
  ⟨act lifetime⟩

def initial : World Nat ScopeContext Task Entry := ⟨{}, fun _ => {}, []⟩

end Lily.Injection.Scope
