import Lily.Transition.Interleaving

/-!
# The initiation of a shutdown

The state that an application shares between its tasks, and the calls that initiate its shutdown,
ask for the initial signal and wait for it. Every access to an atomic, to a lock, to the write-once
cell or to the watch channel is a move of its own, so that the calls of any number of threads
interleave between any two of them.
-/

namespace Lily.Shutdown

open Transition

inductive ShutdownSignal where
  | interrupt
  | terminate
  | quit
  | manual
  deriving DecidableEq

def ShutdownSignal.isForce : ShutdownSignal → Bool
  | .quit => true
  | _ => false

inductive ShutdownPhase where
  | stopAccepting
  | drainConnections
  | cleanup
  | force

inductive ShutdownInitiation where
  | initiated (signal : ShutdownSignal)
  | alreadyInitiated (initialSignal requestedSignal : ShutdownSignal)
  deriving DecidableEq

/-- A cell that is written once. While one caller runs its initializer, the others wait. -/
inductive OnceLock (α : Type) where
  | empty
  | initializing
  | set (value : α)

/-- A watch channel. The version tells a receiver that it has not seen the value. -/
structure Watch (α : Type) where
  value : α
  version : Nat := 0

def Watch.sendReplace {α : Type} (channel : Watch α) (value : α) : Watch α :=
  ⟨value, channel.version + 1⟩

/-- The shared state, with the monotonic clock. -/
structure ShutdownState where
  shutdownInitiated : Bool := false
  ready : Bool := true
  acceptingConnections : Bool := true
  shutdownTx : Watch (Option ShutdownSignal) := ⟨none, 0⟩
  currentPhase : Option ShutdownPhase := none
  initialSignal : Option ShutdownSignal := none
  initiationStartedAt : OnceLock Nat := .empty
  forceRequested : Bool := false
  forceTx : Watch Bool := ⟨false, 0⟩
  now : Nat := 0

/-- `ShutdownState::new` and `ShutdownState::new_not_ready`. -/
def ShutdownState.new (ready : Bool) : ShutdownState := { ready }

/-- What the call that made the transition still has to do, in order. The last four are those of
`request_force`, which remembers whether it is the first request. -/
inductive WinnerStep where
  | storeSignal
  | lowerReadiness
  | closeAdmission
  | publish
  | exchangeForce
  | closeForced (newlyRequested : Bool)
  | setForcePhase (newlyRequested : Bool)
  | publishForce (newlyRequested : Bool)
  deriving DecidableEq

/-- Where a thread is. -/
inductive Phase where
  | idle
  | starting (signal : ShutdownSignal)
  | initializing (signal : ShutdownSignal)
  | measured (signal : ShutdownSignal) (instant : Nat)
  | exchanging (signal : ShutdownSignal)
  | won (signal : ShutdownSignal) (step : WinnerStep)
  | lost (signal : ShutdownSignal)
  | reading
  | receiving
  | awaiting (seen : Nat)
  deriving DecidableEq

/-- A thread makes a call or goes on with the one it is in; a channel whose sender is gone wakes its
receivers; and time passes. -/
inductive Event where
  | initiateShutdown (signal : ShutdownSignal)
  | initialSignal
  | recv
  | advance
  | disconnected
  | tick (elapsed : Nat)

/-- What is observed: the transition, what a call that lost it found, and the results. -/
inductive Action where
  | transitioned (signal : ShutdownSignal) (instant : Nat)
  | consulted (found : Option ShutdownSignal) (requested : ShutdownSignal)
  | returned (result : ShutdownInitiation)
  | readInitialSignal (value : Option ShutdownSignal)
  | received (signal : ShutdownSignal)
  | receiveError
  deriving DecidableEq

/-- A step of the call that made the transition. -/
def WinnerStep.perform (signal : ShutdownSignal) (s : ShutdownState) :
    WinnerStep → Turn ShutdownState Phase Action
  | .storeSignal => ⟨{ s with initialSignal := some signal }, .won signal .lowerReadiness, []⟩
  | .lowerReadiness => ⟨{ s with ready := false }, .won signal .closeAdmission, []⟩
  | .closeAdmission => ⟨{ s with acceptingConnections := false }, .won signal .publish, []⟩
  | .publish =>
    let published := { s with shutdownTx := s.shutdownTx.sendReplace (some signal) }
    if signal.isForce then ⟨published, .won signal .exchangeForce, []⟩
    else ⟨published, .idle, [.returned (.initiated signal)]⟩
  | .exchangeForce =>
    ⟨{ s with forceRequested := true }, .won signal (.closeForced !s.forceRequested), []⟩
  | .closeForced newlyRequested =>
    ⟨{ s with acceptingConnections := false }, .won signal (.setForcePhase newlyRequested), []⟩
  | .setForcePhase newlyRequested =>
    ⟨{ s with currentPhase := some .force }, .won signal (.publishForce newlyRequested), []⟩
  | .publishForce newlyRequested =>
    ⟨if newlyRequested then { s with forceTx := s.forceTx.sendReplace true } else s, .idle,
      [.returned (.initiated signal)]⟩

/-- The next access of the call that a thread is in. -/
def Phase.advance (s : ShutdownState) : Phase → Turn ShutdownState Phase Action
  | .idle => ⟨s, .idle, []⟩
  | .starting signal =>
    match s.initiationStartedAt with
    | .empty => ⟨{ s with initiationStartedAt := .initializing }, .initializing signal, []⟩
    | .initializing => ⟨s, .starting signal, []⟩
    | .set _ => ⟨s, .exchanging signal, []⟩
  | .initializing signal => ⟨s, .measured signal s.now, []⟩
  | .measured signal instant =>
    ⟨{ s with initiationStartedAt := .set instant }, .exchanging signal, []⟩
  | .exchanging signal =>
    if s.shutdownInitiated then ⟨s, .lost signal, []⟩
    else
      ⟨{ s with shutdownInitiated := true }, .won signal .storeSignal,
        [.transitioned signal s.now]⟩
  | .won signal step => step.perform signal s
  | .lost signal =>
    ⟨s, .idle, [.consulted s.initialSignal signal,
      .returned (.alreadyInitiated (s.initialSignal.getD signal) signal)]⟩
  | .reading => ⟨s, .idle, [.readInitialSignal s.initialSignal]⟩
  | .receiving =>
    match s.shutdownTx.value with
    | some signal => ⟨s, .idle, [.received signal]⟩
    | none => ⟨s, .awaiting s.shutdownTx.version, []⟩
  | .awaiting seen =>
    if s.shutdownTx.version = seen then ⟨s, .awaiting seen, []⟩ else ⟨s, .receiving, []⟩

/-- How a thread answers an event. -/
def act (event : Event) (s : ShutdownState) (phase : Phase) : Turn ShutdownState Phase Action :=
  match event with
  | .initiateShutdown signal => ⟨s, if phase = .idle then .starting signal else phase, []⟩
  | .initialSignal => ⟨s, if phase = .idle then .reading else phase, []⟩
  | .recv => ⟨s, if phase = .idle then .receiving else phase, []⟩
  | .advance => phase.advance s
  | .disconnected =>
    match phase with
    | .awaiting _ => ⟨s, .idle, [.receiveError]⟩
    | _ => ⟨s, phase, []⟩
  | .tick elapsed => ⟨{ s with now := s.now + elapsed }, phase, []⟩

def machine : Machine Nat ShutdownState Phase Event Action where
  act _ := act

/-- No call has been made. -/
def initial (ready : Bool) : World Nat ShutdownState Phase Action :=
  ⟨.new ready, fun _ => .idle, []⟩

end Lily.Shutdown
