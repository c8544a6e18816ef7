import Lily.Transition.Interleaving

/-!
# The dispatcher and its backplane

A dispatch counts itself in, looks at the state of the dispatcher a second time, and holds its
lease over the local delivery and the call of the provider's `publish`. One ingress task at a time
calls `receive`, under a guard that is counted in the same way. The close owner is a task that the
first caller of `close_backplane` starts: it seals the dispatcher, waits until it has seen no
dispatch and no ingress, and only then calls the provider's `close`.

Each atomic operation of the source is a move of its own. A task may be dropped where it waits. The
replies of the provider and of local delivery, the expiry of an invocation or of the shutdown budget
and the end of `TaskRegistry::wait` come from outside. Health reports and metrics are left out, and
so are notifications: a waiter that looks again without being notified is only a longer run.
-/

namespace Lily.Websocket.Backplane

open Transition

inductive BackplaneSlot where
  | disabled
  | configuredUnavailable
  | active
  deriving DecidableEq

inductive DispatcherState where
  | accepting
  | draining
  | closing
  | closed
  deriving DecidableEq

namespace DispatcherState

/-- The values of the source's constants. -/
def code : DispatcherState → Nat
  | accepting => 0
  | draining => 1
  | closing => 2
  | closed => 3

def fetchMax (s t : DispatcherState) : DispatcherState := if s.code < t.code then t else s

/-- The test of `acquire_dispatch`: a callback's dispatch is still accepted while draining. -/
def accepts (authority : Bool) : DispatcherState → Bool
  | accepting => true
  | draining => authority
  | closing => false
  | closed => false

end DispatcherState

inductive SubscriptionState where
  | notStarted
  | starting
  | ready
  | reconnecting
  | unavailable
  | stopped
  deriving DecidableEq

/-- `WebSocketDispatcherInner`. -/
structure Dispatcher where
  dispatchState : DispatcherState := .accepting
  inFlight : Nat := 0
  forceDispatch : Bool := false
  subscriptionState : SubscriptionState := .notStarted
  ingressRunning : Nat := 0
  ingressCancel : Bool := false
  /-- The `OnceLock` of the close owner is set. -/
  closeOwner : Bool := false

/-- `WebSocketBackplaneEvent`. -/
inductive BackplaneEvent where
  | frame
  | subscriptionReady
  | subscriptionReconnecting
  | subscriptionUnavailable
  | publisherReady
  | publisherReconnecting
  | publisherUnavailable
  deriving DecidableEq

/-- What a poll of `receive` gives. -/
inductive ReceiveResult where
  | pending
  | event (event : BackplaneEvent)
  | error
  | panicked
  deriving DecidableEq

/-- What a poll of the part of a dispatch that is under way gives. A timeout or a panic of the
provider is an error. -/
inductive DispatchReply where
  | pending
  | error
  | noTargets
  | ok
  deriving DecidableEq

/-! ## Tasks -/

inductive DispatchStage where
  | entered
  | delivering
  | starting
  | publishing
  deriving DecidableEq

/-- `spawn_ingress`, and from `looping` on the task that it spawns. -/
inductive IngressStage where
  | checking
  | claiming
  | claimed
  | starting
  | looping
  | receiving
  | received (event : BackplaneEvent)
  | ingesting
  | stopping
  | ending
  deriving DecidableEq

/-- `perform_backplane_close`. -/
inductive CloseStage where
  | sealing
  | draining
  | cancelling
  | awaitingIngress
  | joining
  | ready
  | closing
  | finishing
  deriving DecidableEq

inductive Task where
  | idle
  | admitting (authority : Bool)
  | counted (authority : Bool)
  | refused
  | holding (authority : Bool) (stage : DispatchStage)
  /-- The lease is to be dropped. -/
  | leaving
  | ingress (stage : IngressStage)
  /-- `close_owner` before it seals, and before it installs the owner. -/
  | sealing
  | installing
  | owner (stage : CloseStage)
  /-- `force_drain` after `begin_drain`. -/
  | forcing
  deriving DecidableEq

/-- The calls of the dispatcher, and how they go on. -/
inductive Event where
  | dispatch (authority : Bool)
  | spawnIngress
  | closeBackplane
  | beginDrain
  | forceDrain
  | stopIngress
  | waitDrained
  /-- The last store of `WebSocketBackplaneIngressTask::stop`. -/
  | ingressStopped
  /-- The next atomic operation of the task. -/
  | advance
  /-- A poll of a dispatch. `expired` is the expiry of the shutdown budget or of the invocation. -/
  | poll (expired : Bool) (reply : DispatchReply)
  | receive (result : ReceiveResult)
  /-- The provider's `close` returns; a panic is a failure. -/
  | closeReturns (ok : Bool)
  /-- The future is dropped: the caller went away, or the task was aborted. -/
  | drop
  deriving DecidableEq

inductive Action where
  | granted
  | publishCalled
  | publishEnded
  | receiveCalled
  | receiveEnded
  | sealed
  | zeroObserved
  | closeCalled
  | closeEnded
  deriving DecidableEq

variable (slot : BackplaneSlot) (d : Dispatcher)

/-! ## Dispatches -/

/-- `dispatch_stopped`: force stops the dispatches without an authority of their own. -/
def dispatchStopped (authority expired : Bool) : Bool :=
  expired || (!authority && d.forceDispatch)

/-- One poll of `dispatch` after the lease was granted. -/
def DispatchStage.poll (authority expired : Bool) (reply : DispatchReply) :
    DispatchStage → Turn Dispatcher Task Action
  | .entered =>
    if dispatchStopped d authority expired then ⟨d, .leaving, []⟩
    else if reply = .ok then ⟨d, .holding authority .delivering, []⟩
    else ⟨d, .leaving, []⟩
  | .delivering =>
    if dispatchStopped d authority expired then ⟨d, .leaving, []⟩
    else
      match reply with
      | .pending => ⟨d, .holding authority .delivering, []⟩
      | .ok => if slot = .active then ⟨d, .holding authority .starting, []⟩ else ⟨d, .leaving, []⟩
      | _ => ⟨d, .leaving, []⟩
  | .starting =>
    if dispatchStopped d authority expired then ⟨d, .leaving, []⟩
    else ⟨d, .holding authority .publishing, [.publishCalled]⟩
  | .publishing =>
    if dispatchStopped d authority expired = false ∧ reply = .pending then
      ⟨d, .holding authority .publishing, []⟩
    else ⟨d, .leaving, [.publishEnded]⟩

/-- The future of a dispatch is dropped where it waits. -/
def DispatchStage.drop (authority : Bool) : DispatchStage → Turn Dispatcher Task Action
  | .delivering => ⟨d, .leaving, []⟩
  | .publishing => ⟨d, .leaving, [.publishEnded]⟩
  | stage => ⟨d, .holding authority stage, []⟩

/-! ## Ingress -/

/-- What the loop does with an event, and where it goes on. -/
def handleEvent : BackplaneEvent → Dispatcher × IngressStage
  | .frame => if d.subscriptionState = .ready then (d, .ingesting) else (d, .looping)
  | .subscriptionReady => ({ d with subscriptionState := .ready }, .looping)
  | .subscriptionReconnecting => ({ d with subscriptionState := .reconnecting }, .looping)
  | .subscriptionUnavailable => ({ d with subscriptionState := .unavailable }, .looping)
  | .publisherReady | .publisherReconnecting | .publisherUnavailable => (d, .looping)

def IngressStage.advance : IngressStage → Turn Dispatcher Task Action
  | .checking =>
    if d.subscriptionState = .stopped then ⟨d, .idle, []⟩ else ⟨d, .ingress .claiming, []⟩
  | .claiming =>
    if d.ingressRunning = 0 then ⟨{ d with ingressRunning := 1 }, .ingress .claimed, []⟩
    else ⟨d, .idle, []⟩
  | .claimed =>
    if d.ingressCancel then ⟨d, .ingress .ending, []⟩ else ⟨d, .ingress .starting, []⟩
  | .starting => ⟨{ d with subscriptionState := .starting }, .ingress .looping, []⟩
  | .looping => ⟨d, .ingress .receiving, [.receiveCalled]⟩
  | .receiving => ⟨d, .ingress .receiving, []⟩
  | .received event => ⟨(handleEvent d event).1, .ingress (handleEvent d event).2, []⟩
  | .ingesting => ⟨d, .ingress .looping, []⟩
  | .stopping => ⟨{ d with subscriptionState := .stopped }, .ingress .ending, []⟩
  | .ending => ⟨{ d with ingressRunning := d.ingressRunning - 1 }, .idle, []⟩

/-- One poll of the `select!` around `receive`, which looks at the cancellation first. -/
def pollReceive (result : ReceiveResult) : Turn Dispatcher Task Action :=
  if d.ingressCancel then ⟨d, .ingress .stopping, [.receiveEnded]⟩
  else
    match result with
    | .pending => ⟨d, .ingress .receiving, []⟩
    | .event event => ⟨d, .ingress (.received event), [.receiveEnded]⟩
    | .error | .panicked => ⟨d, .ingress .stopping, [.receiveEnded]⟩

/-- The ingress task is aborted before its first poll or where it waits. -/
def IngressStage.drop : IngressStage → Turn Dispatcher Task Action
  | .looping | .ingesting => ⟨d, .ingress .ending, []⟩
  | .receiving => ⟨d, .ingress .ending, [.receiveEnded]⟩
  | stage => ⟨d, .ingress stage, []⟩

/-! ## Closing -/

def CloseStage.advance : CloseStage → Turn Dispatcher Task Action
  | .sealing =>
    ⟨{ d with dispatchState := d.dispatchState.fetchMax .closing }, .owner .draining, [.sealed]⟩
  | .draining =>
    if d.inFlight = 0 then ⟨d, .owner .cancelling, [.zeroObserved]⟩ else ⟨d, .owner .draining, []⟩
  | .cancelling => ⟨{ d with ingressCancel := true }, .owner .awaitingIngress, []⟩
  | .awaitingIngress =>
    if d.ingressRunning = 0 then ⟨d, .owner .joining, []⟩ else ⟨d, .owner .awaitingIngress, []⟩
  | .joining => ⟨d, .owner .ready, []⟩
  | .ready =>
    if slot = .active then ⟨d, .owner .closing, [.closeCalled]⟩ else ⟨d, .owner .finishing, []⟩
  | .closing => ⟨d, .owner .closing, []⟩
  | .finishing => ⟨{ d with dispatchState := .closed }, .idle, []⟩

/-- The owner is aborted, or its cleanup budget expires, before its first poll or where it waits. -/
def CloseStage.drop : CloseStage → Turn Dispatcher Task Action
  | .sealing | .draining | .awaitingIngress | .joining => ⟨d, .idle, []⟩
  | .closing => ⟨d, .idle, [.closeEnded]⟩
  | stage => ⟨d, .owner stage, []⟩

/-! ## The machine -/

def beginDrain : Dispatcher :=
  if d.dispatchState = .accepting then { d with dispatchState := .draining } else d

/-- The calls, up to their first atomic operation. -/
def call (event : Event) : Turn Dispatcher Task Action :=
  match event with
  | .dispatch authority =>
    if d.dispatchState.accepts authority then ⟨d, .admitting authority, []⟩ else ⟨d, .idle, []⟩
  | .spawnIngress =>
    if slot = .active ∧ d.ingressCancel = false then ⟨d, .ingress .checking, []⟩
    else ⟨d, .idle, []⟩
  | .closeBackplane => if d.closeOwner then ⟨d, .idle, []⟩ else ⟨d, .sealing, []⟩
  | .beginDrain => ⟨beginDrain d, .idle, []⟩
  | .forceDrain => ⟨beginDrain d, .forcing, []⟩
  | .stopIngress => ⟨{ d with ingressCancel := true }, .idle, []⟩
  | .waitDrained => ⟨d, .idle, if d.inFlight = 0 then [.zeroObserved] else []⟩
  | .ingressStopped => ⟨{ d with subscriptionState := .stopped }, .idle, []⟩
  | _ => ⟨d, .idle, []⟩

def act (event : Event) (task : Task) : Turn Dispatcher Task Action :=
  match task, event with
  | .idle, event => call slot d event
  | .admitting authority, .advance =>
    ⟨{ d with inFlight := d.inFlight + 1 }, .counted authority, []⟩
  | .counted authority, .advance =>
    if d.dispatchState.accepts authority then ⟨d, .holding authority .entered, [.granted]⟩
    else ⟨d, .refused, []⟩
  | .refused, .advance => ⟨{ d with inFlight := d.inFlight - 1 }, .idle, []⟩
  | .holding authority stage, .poll expired reply => stage.poll slot d authority expired reply
  | .holding authority stage, .drop => stage.drop d authority
  | .leaving, .advance => ⟨{ d with inFlight := d.inFlight - 1 }, .idle, []⟩
  | .ingress stage, .advance => stage.advance d
  | .ingress .receiving, .receive result => pollReceive d result
  | .ingress stage, .drop => stage.drop d
  | .sealing, .advance =>
    ⟨{ d with dispatchState := d.dispatchState.fetchMax .closing }, .installing, [.sealed]⟩
  -- `get_or_init` runs the closure of one caller, and the others wait for it.
  | .installing, .advance =>
    if d.closeOwner then ⟨d, .idle, []⟩
    else ⟨{ d with closeOwner := true }, .owner .sealing, []⟩
  | .owner stage, .advance => stage.advance slot d
  | .owner .closing, .closeReturns ok =>
    ⟨d, if ok then .owner .finishing else .idle, [.closeEnded]⟩
  | .owner stage, .drop => stage.drop d
  | .forcing, .advance => ⟨{ d with forceDispatch := true }, .idle, []⟩
  | task, _ => ⟨d, task, []⟩

/-- Any number of callers and tasks of one dispatcher. -/
def dispatcher : Machine Nat Dispatcher Task Event Action where
  act _ event d task := act slot d event task

def initial : World Nat Dispatcher Task Action := ⟨{}, fun _ => .idle, []⟩

end Lily.Websocket.Backplane
