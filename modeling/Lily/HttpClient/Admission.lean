import Lily.HttpClient.Redirect
import Lily.Transition.Interleaving
import Lily.Transition.Semaphore

/-!
# Admission of the requests of an HTTP client

Every request takes a permit of its origin and a permit of the client before it is sent. A request
that is redirected gives the permit of its origin back and asks for another one, and keeps the
permit of the client meanwhile. The semaphores of the origins are kept alive by the requests that
use them; the client only remembers those that are alive.
-/

namespace Lily.HttpClient.Admission

open Transition (Semaphore Machine World)
open Transition.Semaphore (Claim)

/-! ## Requests -/

/-- How far a request has come. The number says which semaphore of an origin it has got. -/
inductive Stage where
  | idle
  | located (semaphore : Nat)
  | awaitingOrigin (semaphore : Nat)
  | admitted (semaphore : Nat)
  | awaitingGlobal (semaphore : Nat)
  /-- Both permits are held: the request is being sent and answered. -/
  | onWire (semaphore : Nat)
  /-- The permit of the origin has been given back for the next attempt. -/
  | redirected
  | relocated (semaphore : Nat)
  | reawaiting (semaphore : Nat)
  /-- The request has ended with the permit of its origin still to be dropped. -/
  | leaving (semaphore : Nat)
  /-- The request has ended with the permit of the client still to be dropped. -/
  | closing
  | done
  deriving DecidableEq

namespace Stage

def handle : Stage → Option Nat
  | .located h | .awaitingOrigin h | .admitted h | .awaitingGlobal h | .onWire h | .relocated h
  | .reawaiting h | .leaving h => some h
  | .idle | .redirected | .closing | .done => none

/-- What the request has to do with the semaphore of its origin. -/
def originClaim : Stage → Claim
  | .awaitingOrigin _ | .reawaiting _ => .asked
  | .admitted _ | .awaitingGlobal _ | .onWire _ | .leaving _ => .held
  | .idle | .located _ | .redirected | .relocated _ | .closing | .done => .none

/-- What the request has to do with the semaphore of the client. -/
def globalClaim : Stage → Claim
  | .awaitingGlobal _ => .asked
  | .onWire _ | .redirected | .relocated _ | .reawaiting _ | .closing => .held
  | .idle | .located _ | .awaitingOrigin _ | .admitted _ | .leaving _ | .done => .none

def claimAt (stage : Stage) (semaphore : Nat) : Claim :=
  if stage.handle = some semaphore then stage.originClaim else .none

theorem held_of_asked {stage : Stage} (h : stage.globalClaim = .asked) :
    stage.originClaim = .held := by
  cases stage <;> first | rfl | nomatch h

end Stage

/-- A request in the client, with the URL of its current attempt. -/
structure Call where
  url : Url
  stage : Stage

/-! ## The client -/

/-- The semaphore of an origin with the requests that keep it alive. -/
structure Cell (ι : Type) (perOrigin : Nat) where
  semaphore : Semaphore ι perOrigin
  owners : Finset ι

/-- The semaphore of the client, and one for every origin in use. -/
structure Client (ι : Type) (limit perOrigin : Nat) where
  admission : Semaphore ι limit
  origins : OriginKey → Option Nat
  cells : Nat → Cell ι perOrigin
  /-- The number of the next semaphore. -/
  next : Nat

namespace Client

variable {ι : Type} {limit perOrigin : Nat}

def new : Client ι limit perOrigin where
  admission := .new limit
  origins := fun _ => none
  cells := fun _ => ⟨.new perOrigin, ∅⟩
  next := 0

def strongCount (client : Client ι limit perOrigin) (semaphore : Nat) : Nat :=
  (client.cells semaphore).owners.card

/-- The origins whose semaphore is alive. -/
def retained (client : Client ι limit perOrigin) (key : OriginKey) : Option Nat :=
  (client.origins key).filter fun semaphore => decide (0 < client.strongCount semaphore)

variable [DecidableEq ι]

variable (client : Client ι limit perOrigin)

def addOwner (i : ι) (semaphore : Nat) : Client ι limit perOrigin :=
  { client with
    origins := client.retained
    cells := Function.update client.cells semaphore
      ⟨(client.cells semaphore).semaphore, insert i (client.cells semaphore).owners⟩ }

def addOrigin (i : ι) (key : OriginKey) : Client ι limit perOrigin :=
  { client with
    origins := Function.update client.retained key (some client.next)
    cells := Function.update client.cells client.next ⟨.new perOrigin, {i}⟩
    next := client.next + 1 }

/-- `PerOriginAdmission::semaphore`: the semaphore of the origin, and the client afterwards. -/
def semaphore (i : ι) (key : OriginKey) : Client ι limit perOrigin × Nat :=
  match client.retained key with
  | some semaphore => (client.addOwner i semaphore, semaphore)
  | none => (client.addOrigin i key, client.next)

def askOrigin (i : ι) (semaphore : Nat) : Client ι limit perOrigin :=
  { client with
    cells := Function.update client.cells semaphore
      ⟨(client.cells semaphore).semaphore.acquire i, (client.cells semaphore).owners⟩ }

/-- A permit, or the wait for one, ends together with the reference to the semaphore. -/
def releaseOrigin (i : ι) (semaphore : Nat) : Client ι limit perOrigin :=
  { client with
    cells := Function.update client.cells semaphore
      ⟨(client.cells semaphore).semaphore.release i, (client.cells semaphore).owners.erase i⟩ }

def askGlobal (i : ι) : Client ι limit perOrigin :=
  { client with admission := client.admission.acquire i }

def releaseGlobal (i : ι) : Client ι limit perOrigin :=
  { client with admission := client.admission.release i }

end Client

/-! ## Moves -/

/-- What a request does next. -/
inductive Event where
  | start (url : Url)
  /-- The semaphore of the origin is looked up again after a redirect. -/
  | locate
  | ask
  /-- A request that waits looks whether it has been given its permit. -/
  | poll
  | redirect (next : Url)
  /-- The request has its result, or is dropped at a place where it waits. -/
  | leave
  | settle

section Moves

variable {ι : Type} {limit perOrigin : Nat} [DecidableEq ι]

variable (i : ι) (client : Client ι limit perOrigin) (call : Call)

def Call.start (url : Url) : Client ι limit perOrigin × Call :=
  match OriginKey.fromUrl url with
  | .error _ => (client, ⟨url, .done⟩)
  | .ok key => ((client.semaphore i key).1, ⟨url, .located (client.semaphore i key).2⟩)

def Call.locate : Client ι limit perOrigin × Call :=
  match call.stage, OriginKey.fromUrl call.url with
  | .redirected, .error _ => (client, { call with stage := .closing })
  | .redirected, .ok key =>
    ((client.semaphore i key).1, { call with stage := .relocated (client.semaphore i key).2 })
  | _, _ => (client, call)

def Call.ask : Client ι limit perOrigin × Call :=
  match call.stage with
  | .located h => (client.askOrigin i h, { call with stage := .awaitingOrigin h })
  | .admitted h => (client.askGlobal i, { call with stage := .awaitingGlobal h })
  | .relocated h => (client.askOrigin i h, { call with stage := .reawaiting h })
  | _ => (client, call)

def Call.poll : Call :=
  match call.stage with
  | .awaitingOrigin h =>
    if i ∈ (client.cells h).semaphore.holders then { call with stage := .admitted h } else call
  | .awaitingGlobal h =>
    if i ∈ client.admission.holders then { call with stage := .onWire h } else call
  | .reawaiting h =>
    if i ∈ (client.cells h).semaphore.holders then { call with stage := .onWire h } else call
  | _ => call

/-- A redirect that is refused ends the request. -/
def Call.redirect (next : Url) : Client ι limit perOrigin × Call :=
  match call.stage, validateRedirectTarget call.url next with
  | .onWire h, .ok () => (client.releaseOrigin i h, ⟨next, .redirected⟩)
  | .onWire h, .error _ => (client.releaseOrigin i h, { call with stage := .closing })
  | _, _ => (client, call)

def Call.leave : Client ι limit perOrigin × Call :=
  match call.stage with
  | .awaitingOrigin h => (client.releaseOrigin i h, { call with stage := .done })
  | .awaitingGlobal h => (client.releaseGlobal i, { call with stage := .leaving h })
  | .onWire h => (client.releaseOrigin i h, { call with stage := .closing })
  | .reawaiting h => (client.releaseOrigin i h, { call with stage := .closing })
  | _ => (client, call)

def Call.settle : Client ι limit perOrigin × Call :=
  match call.stage with
  | .leaving h => (client.releaseOrigin i h, { call with stage := .done })
  | .closing => (client.releaseGlobal i, { call with stage := .done })
  | _ => (client, call)

def Call.move :
    Event → Client ι limit perOrigin × Call
  | .start url => if call.stage = .idle then Call.start i client url else (client, call)
  | .locate => call.locate i client
  | .ask => call.ask i client
  | .poll => (client, call.poll i client)
  | .redirect next => call.redirect i client next
  | .leave => call.leave i client
  | .settle => call.settle i client

variable (ι limit perOrigin) in
def machine : Machine ι (Client ι limit perOrigin) Call Event Unit where
  act i event client call := ⟨(call.move i client event).1, (call.move i client event).2, []⟩

variable (ι limit perOrigin) in
def initial (url : Url) : World ι (Client ι limit perOrigin) Call Unit :=
  ⟨.new, fun _ => ⟨url, .idle⟩, []⟩

/-! ## What one move can do -/

/-- What a move can do to the client and to its request. -/
inductive Effect (i : ι) (client : Client ι limit perOrigin) (call : Call) :
    Event → Client ι limit perOrigin → Call → Prop where
  | still {event : Event} : Effect i client call event client call
  | unlocated {event : Event} {after : Call} (hbefore : call.stage.handle = none)
      (hafter : after.stage.handle = none)
      (hglobal : after.stage.globalClaim = call.stage.globalClaim) :
      Effect i client call event client after
  | located {event : Event} {after : Call} {key : OriginKey} (hbefore : call.stage.handle = none)
      (hkey : OriginKey.fromUrl after.url = .ok key)
      (hafter : after.stage.handle = some (client.semaphore i key).2)
      (horigin : after.stage.originClaim = .none)
      (hglobal : after.stage.globalClaim = call.stage.globalClaim) :
      Effect i client call event (client.semaphore i key).1 after
  | askedOrigin {event : Event} {stage : Stage} {h : Nat} (hevent : event = .ask)
      (hbefore : call.stage = .located h ∨ call.stage = .relocated h)
      (hafter : stage.handle = some h) (horigin : stage.originClaim = .asked)
      (hglobal : stage.globalClaim = call.stage.globalClaim) :
      Effect i client call event (client.askOrigin i h) { call with stage := stage }
  | askedGlobal {event : Event} {h : Nat} (hbefore : call.stage = .admitted h) :
      Effect i client call event (client.askGlobal i) { call with stage := .awaitingGlobal h }
  | gotOrigin {event : Event} {stage : Stage} {h : Nat} (hbefore : call.stage.handle = some h)
      (hmem : i ∈ (client.cells h).semaphore.holders)
      (hafter : stage.handle = some h) (horigin : stage.originClaim = .held)
      (hglobal : stage.globalClaim = call.stage.globalClaim) :
      Effect i client call event client { call with stage := stage }
  | gotGlobal {event : Event} {h : Nat} (hbefore : call.stage = .awaitingGlobal h)
      (hmem : i ∈ client.admission.holders) :
      Effect i client call event client { call with stage := .onWire h }
  | releasedOrigin {event : Event} {after : Call} {h : Nat} (hbefore : call.stage.handle = some h)
      (hafter : after.stage.handle = none)
      (hglobal : after.stage.globalClaim = call.stage.globalClaim) :
      Effect i client call event (client.releaseOrigin i h) after
  | releasedGlobal {event : Event} {stage : Stage} (hafter : stage.handle = call.stage.handle)
      (horigin : stage.originClaim = call.stage.originClaim)
      (hglobal : stage.globalClaim = .none) :
      Effect i client call event (client.releaseGlobal i) { call with stage := stage }

theorem effect (event : Event) :
    Effect i client call event (call.move i client event).1 (call.move i client event).2 := by
  obtain ⟨url, stage⟩ := call
  cases event with
  | start first =>
    simp only [Call.move, Call.start]
    split
    next hidle =>
      subst hidle
      split
      next => exact .unlocated rfl rfl rfl
      next key hkey => exact .located rfl hkey rfl rfl rfl
    next => exact .still
  | locate =>
    simp only [Call.move, Call.locate]
    split
    next => exact .unlocated rfl rfl rfl
    next key hkey => exact .located rfl hkey rfl rfl rfl
    next => exact .still
  | ask =>
    cases stage with
    | located h => exact .askedOrigin rfl (.inl rfl) rfl rfl rfl
    | relocated h => exact .askedOrigin rfl (.inr rfl) rfl rfl rfl
    | admitted h => exact .askedGlobal rfl
    | _ => exact .still
  | poll =>
    cases stage with
    | awaitingOrigin h | reawaiting h =>
      simp only [Call.move, Call.poll]
      split
      next hmem => exact .gotOrigin rfl hmem rfl rfl rfl
      next => exact .still
    | awaitingGlobal h =>
      simp only [Call.move, Call.poll]
      split
      next hmem => exact .gotGlobal rfl hmem
      next => exact .still
    | _ => exact .still
  | redirect next =>
    simp only [Call.move, Call.redirect]
    split
    next => exact .releasedOrigin rfl rfl rfl
    next => exact .releasedOrigin rfl rfl rfl
    next => exact .still
  | leave =>
    cases stage with
    | awaitingOrigin h | onWire h | reawaiting h => exact .releasedOrigin rfl rfl rfl
    | awaitingGlobal h => exact .releasedGlobal rfl rfl rfl
    | _ => exact .still
  | settle =>
    cases stage with
    | leaving h => exact .releasedOrigin rfl rfl rfl
    | closing => exact .releasedGlobal rfl rfl rfl
    | _ => exact .still

end Moves

end Lily.HttpClient.Admission
