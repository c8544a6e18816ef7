import Lily.Collection.Position
import Lily.Transition.Counting
import Lily.Websocket.Backplane

/-!
# The provider is closed once, and last

`Effect` lists what one move can do. Two facts about the dispatcher are stable once they hold:
`Quiet`, that it is sealed and nobody holds a lease, and `Still`, that ingress is cancelled and
no ingress task can call `receive`. The close owner sees the first when it reads zero dispatches
after sealing, and the second when it reads zero ingress tasks after cancelling, since whoever
counts itself in later looks at the seal or the cancellation once more.
-/

namespace Lily.Websocket.Backplane

open Transition Collection

/-! ## What a task is doing -/

namespace Task

def leased : Task → Bool
  | holding _ _ | leaving => true
  | _ => false

/-- The task has counted itself in and has not finished looking at the state again. -/
def acquires : Task → Bool
  | counted _ | refused => true
  | _ => false

/-- The task is part of the in-flight count. -/
def occupies (task : Task) : Bool := task.leased || task.acquires

def guards : Task → Bool
  | ingress .checking | ingress .claiming => false
  | ingress _ => true
  | _ => false

/-- The task has a guard and has not been stopped. -/
def live : Task → Bool
  | ingress .checking | ingress .claiming | ingress .claimed | ingress .ending => false
  | ingress _ => true
  | _ => false

def publishing : Task → Bool
  | holding _ .publishing => true
  | _ => false

def receiving : Task → Bool
  | ingress .receiving => true
  | _ => false

theorem leased_of_publishing {task : Task} (h : task.publishing = true) : task.leased = true := by
  unfold publishing at h
  split at h
  next => rfl
  next => cases h

theorem live_of_receiving {task : Task} (h : task.receiving = true) : task.live = true := by
  unfold receiving at h
  split at h
  next => rfl
  next => cases h

end Task

namespace CloseStage

/-- The owner has seen that there is no dispatch. -/
def drained : CloseStage → Bool
  | sealing | draining => false
  | _ => true

/-- The owner has cancelled ingress. -/
def cancelled : CloseStage → Bool
  | sealing | draining | cancelling => false
  | _ => true

/-- The owner has seen that there is no ingress task. -/
def stopped : CloseStage → Bool
  | sealing | draining | cancelling | awaitingIngress => false
  | _ => true

/-- The owner has no call of `close` before it. -/
def called : CloseStage → Bool
  | closing | finishing => true
  | _ => false

end CloseStage

def Dispatcher.sealed (d : Dispatcher) : Prop := DispatcherState.closing.code ≤ d.dispatchState.code

theorem DispatcherState.le_fetchMax (s t : DispatcherState) :
    s.code ≤ (s.fetchMax t).code ∧ t.code ≤ (s.fetchMax t).code := by
  unfold fetchMax
  split <;> omega

theorem DispatcherState.code_lt_of_accepts {s : DispatcherState} {authority : Bool}
    (h : s.accepts authority = true) : s.code < DispatcherState.closing.code := by
  cases s with
  | accepting | draining => decide
  | closing | closed => cases h

/-! ## What a move can do -/

/-- What a move can do to the dispatcher and to its task. -/
inductive Effect : Dispatcher → Task → Dispatcher → Task → List Action → Prop
  | rest {d : Dispatcher} {task task' : Task} {emitted : List Action}
      (subscription : SubscriptionState) (force : Bool)
      (hoccupies : task'.occupies = task.occupies) (hleased : task'.leased = task.leased)
      (hguards : task'.guards = task.guards) (hlive : task'.live = true → task.live = true)
      (howner : ∀ stage, task' = .owner stage → task = .owner stage)
      (hemitted : emitted ⊆ [.publishEnded, .receiveEnded, .closeEnded])
      (hone : emitted.length ≤ 1) :
      Effect d task { d with subscriptionState := subscription, forceDispatch := force } task'
        emitted
  | count (d : Dispatcher) (authority : Bool) :
      Effect d (.admitting authority) { d with inFlight := d.inFlight + 1 } (.counted authority) []
  | grant (d : Dispatcher) (authority : Bool)
      (haccepts : d.dispatchState.accepts authority = true) :
      Effect d (.counted authority) d (.holding authority .entered) [.granted]
  | release (d : Dispatcher) {task : Task} (hoccupies : task.occupies = true)
      (hguards : task.guards = false) :
      Effect d task { d with inFlight := d.inFlight - 1 } .idle []
  | publish (d : Dispatcher) (authority : Bool) :
      Effect d (.holding authority .starting) d (.holding authority .publishing) [.publishCalled]
  | claim (d : Dispatcher) (hfree : d.ingressRunning = 0) :
      Effect d (.ingress .claiming) { d with ingressRunning := 1 } (.ingress .claimed) []
  | start (d : Dispatcher) (hopen : d.ingressCancel = false) :
      Effect d (.ingress .claimed) d (.ingress .starting) []
  | receive (d : Dispatcher) :
      Effect d (.ingress .looping) d (.ingress .receiving) [.receiveCalled]
  | unguard (d : Dispatcher) :
      Effect d (.ingress .ending) { d with ingressRunning := d.ingressRunning - 1 } .idle []
  | drain {d : Dispatcher} {task' : Task} (haccepting : d.dispatchState = .accepting)
      (htask : task' = .idle ∨ task' = .forcing) :
      Effect d .idle { d with dispatchState := .draining } task' []
  | stop (d : Dispatcher) : Effect d .idle { d with ingressCancel := true } .idle []
  | observe (d : Dispatcher) (hzero : d.inFlight = 0) : Effect d .idle d .idle [.zeroObserved]
  | callerSeal (d : Dispatcher) :
      Effect d .sealing { d with dispatchState := d.dispatchState.fetchMax .closing } .installing
        [.sealed]
  | install (d : Dispatcher) (hnone : d.closeOwner = false) :
      Effect d .installing { d with closeOwner := true } (.owner .sealing) []
  | ownerSeal (d : Dispatcher) :
      Effect d (.owner .sealing) { d with dispatchState := d.dispatchState.fetchMax .closing }
        (.owner .draining) [.sealed]
  | ownerObserve (d : Dispatcher) (hzero : d.inFlight = 0) :
      Effect d (.owner .draining) d (.owner .cancelling) [.zeroObserved]
  | ownerCancel (d : Dispatcher) :
      Effect d (.owner .cancelling) { d with ingressCancel := true } (.owner .awaitingIngress) []
  | ownerStopped (d : Dispatcher) (hzero : d.ingressRunning = 0) :
      Effect d (.owner .awaitingIngress) d (.owner .joining) []
  | ownerJoined (d : Dispatcher) : Effect d (.owner .joining) d (.owner .ready) []
  | close (d : Dispatcher) : Effect d (.owner .ready) d (.owner .closing) [.closeCalled]
  | skip (d : Dispatcher) : Effect d (.owner .ready) d (.owner .finishing) []
  | closed (d : Dispatcher) : Effect d (.owner .closing) d (.owner .finishing) [.closeEnded]
  | finish (d : Dispatcher) :
      Effect d (.owner .finishing) { d with dispatchState := .closed } .idle []

section Moves

variable (slot : BackplaneSlot) (d : Dispatcher)

/-- A move without an action, of a task that is not the owner. -/
theorem Effect.silent {task task' : Task} (hoccupies : task'.occupies = task.occupies)
    (hleased : task'.leased = task.leased) (hguards : task'.guards = task.guards)
    (hlive : task'.live = true → task.live = true) (howner : ∀ stage, task' ≠ .owner stage) :
    Effect d task d task' [] :=
  .rest _ _ hoccupies hleased hguards hlive (fun stage h => absurd h (howner stage))
    (List.nil_subset _) (Nat.zero_le _)

variable (event : Event) (task : Task)

theorem Effect.refl : Effect d task d task [] :=
  .rest _ _ rfl rfl rfl id (fun _ => id) (List.nil_subset _) (Nat.zero_le _)

theorem beginDrain_effect {task' : Task} (htask : task' = .idle ∨ task' = .forcing) :
    Effect d .idle (beginDrain d) task' [] := by
  unfold beginDrain
  split
  next haccepting => exact .drain haccepting htask
  next =>
    rcases htask with rfl | rfl <;>
      exact .silent d rfl rfl rfl nofun nofun

theorem call_effect :
    Effect d .idle (call slot d event).shared (call slot d event).own
      (call slot d event).emitted := by
  have hstay (task' : Task) (hoccupies : task'.occupies = false) (hguards : task'.guards = false)
      (howner : ∀ stage, task' ≠ .owner stage) : Effect d .idle d task' [] := by
    refine .silent d hoccupies ?_ hguards ?_ howner
    · cases task' <;> simp_all [Task.occupies, Task.leased]
    · intro hlive
      cases task' with
      | ingress stage => cases stage <;> simp_all [Task.guards, Task.live]
      | _ => cases hlive
  fun_cases call slot d event with
  | case1 | case3 | case6 => exact hstay _ rfl rfl nofun
  | case7 => exact beginDrain_effect d (.inl rfl)
  | case8 => exact beginDrain_effect d (.inr rfl)
  | case9 => exact .stop d
  | case10 =>
    split
    next hzero => exact .observe d hzero
    next => exact .refl d _
  | case11 =>
    exact .rest .stopped d.forceDispatch rfl rfl rfl id (fun _ => id) (List.nil_subset _)
      (Nat.zero_le _)
  | _ => exact .refl d _

theorem poll_effect (stage : DispatchStage) (authority expired : Bool) (reply : DispatchReply) :
    Effect d (.holding authority stage) (stage.poll slot d authority expired reply).shared
      (stage.poll slot d authority expired reply).own
      (stage.poll slot d authority expired reply).emitted := by
  fun_cases stage.poll slot d authority expired reply
  all_goals first
    | exact .publish d authority
    | exact .silent d rfl rfl rfl nofun nofun
    | exact .rest _ _ rfl rfl rfl nofun nofun (by simp) (Nat.le_refl _)

theorem ingress_effect (stage : IngressStage) :
    Effect d (.ingress stage) (stage.advance d).shared (stage.advance d).own
      (stage.advance d).emitted := by
  fun_cases stage.advance d with
  | case3 hfree => exact .claim d hfree
  | case6 hcancel => exact .start d (Bool.eq_false_iff.mpr hcancel)
  | case8 => exact .receive d
  | case10 event =>
    fun_cases handleEvent d event
    all_goals exact .rest _ _ rfl rfl rfl (fun _ => rfl) nofun (List.nil_subset _) (Nat.zero_le _)
  | case13 => exact .unguard d
  | case1 | case2 | case4 | case5 => exact .silent d rfl rfl rfl nofun nofun
  | _ => exact .rest _ _ rfl rfl rfl (by simp [Task.live]) nofun (List.nil_subset _) (Nat.zero_le _)

theorem pollReceive_effect (result : ReceiveResult) :
    Effect d (.ingress .receiving) (pollReceive d result).shared (pollReceive d result).own
      (pollReceive d result).emitted := by
  unfold pollReceive
  split_ifs
  · exact .rest _ _ rfl rfl rfl (fun _ => rfl) nofun (by simp) (Nat.le_refl _)
  · cases result <;>
      exact .rest _ _ rfl rfl rfl (fun _ => rfl) nofun (by simp) (by simp)

theorem close_effect (stage : CloseStage) :
    Effect d (.owner stage) (stage.advance slot d).shared (stage.advance slot d).own
      (stage.advance slot d).emitted := by
  fun_cases stage.advance slot d with
  | case1 => exact .ownerSeal d
  | case2 hzero => exact .ownerObserve d hzero
  | case4 => exact .ownerCancel d
  | case5 hzero => exact .ownerStopped d hzero
  | case7 => exact .ownerJoined d
  | case8 => exact .close d
  | case9 => exact .skip d
  | case11 => exact .finish d
  | _ => exact .refl d _

theorem drop_effect (turn : Turn Dispatcher Task Action)
    (hturn : (∃ authority stage, task = .holding authority stage ∧
        turn = DispatchStage.drop d authority stage) ∨
      (∃ stage, task = .ingress stage ∧ turn = IngressStage.drop d stage) ∨
      ∃ stage, task = .owner stage ∧ turn = CloseStage.drop d stage) :
    Effect d task turn.shared turn.own turn.emitted := by
  obtain ⟨authority, stage, rfl, rfl⟩ | ⟨stage, rfl, rfl⟩ | ⟨stage, rfl, rfl⟩ := hturn
  · cases stage <;>
      exact .rest _ _ rfl rfl rfl nofun nofun (by simp [DispatchStage.drop])
        (by simp [DispatchStage.drop])
  · cases stage <;>
      exact .rest _ _ rfl rfl rfl (by simp [IngressStage.drop, Task.live]) nofun
        (by simp [IngressStage.drop]) (by simp [IngressStage.drop])
  · cases stage <;>
      exact .rest _ _ rfl rfl rfl nofun (by simp [CloseStage.drop]) (by simp [CloseStage.drop])
        (by simp [CloseStage.drop])

/-- Every move has one of the effects. -/
theorem act_effect :
    Effect d task (act slot d event task).shared (act slot d event task).own
      (act slot d event task).emitted := by
  unfold act
  split
  next => exact call_effect slot d event
  next authority => exact .count d authority
  next authority =>
    split
    next haccepts => exact .grant d authority haccepts
    next => exact .silent d rfl rfl rfl nofun nofun
  next => exact .release d rfl rfl
  next authority stage expired reply => exact poll_effect slot d stage authority expired reply
  next authority stage => exact drop_effect d _ _ (.inl ⟨authority, stage, rfl, rfl⟩)
  next => exact .release d rfl rfl
  next stage => exact ingress_effect d stage
  next result => exact pollReceive_effect d result
  next stage => exact drop_effect d _ _ (.inr (.inl ⟨stage, rfl, rfl⟩))
  next => exact .callerSeal d
  next =>
    split
    next => exact .silent d rfl rfl rfl nofun nofun
    next hnone => exact .install d (Bool.eq_false_iff.mpr hnone)
  next stage => exact close_effect slot d stage
  next ok =>
    cases ok with
    | true => exact .closed d
    | false => exact .rest _ _ rfl rfl rfl nofun nofun (by simp) (Nat.le_refl _)
  next stage => exact drop_effect d _ _ (.inr (.inr ⟨stage, rfl, rfl⟩))
  next => exact .rest _ _ rfl rfl rfl nofun nofun (List.nil_subset _) (Nat.zero_le _)
  next => exact .refl d _

end Moves

/-! ## What is read off a move -/

namespace Effect

variable {d d' : Dispatcher} {task task' : Task} {emitted : List Action}
  (h : Effect d task d' task' emitted)

include h

theorem inFlight_eq :
    d'.inFlight = match task.occupies, task'.occupies with
      | false, true => d.inFlight + 1
      | true, false => d.inFlight - 1
      | _, _ => d.inFlight := by
  cases h with
  | rest subscription force hoccupies => cases hbefore : task.occupies <;> simp [hoccupies, hbefore]
  | release hoccupies =>
    rw [hoccupies]
    rfl
  | drain haccepting htask => rcases htask with rfl | rfl <;> rfl
  | _ => rfl

theorem ingressRunning_eq :
    d'.ingressRunning = match task.guards, task'.guards with
      | false, true => d.ingressRunning + 1
      | true, false => d.ingressRunning - 1
      | _, _ => d.ingressRunning := by
  cases h with
  | rest subscription force hoccupies hleased hguards =>
    cases hbefore : task.guards <;> simp [hguards, hbefore]
  | release hoccupies hguards =>
    rw [hguards]
    rfl
  | claim hfree => simp [Task.guards, hfree]
  | drain haccepting htask => rcases htask with rfl | rfl <;> rfl
  | _ => rfl

theorem code_le : d.dispatchState.code ≤ d'.dispatchState.code := by
  cases h with
  | drain haccepting => simp [haccepting, DispatcherState.code]
  | callerSeal | ownerSeal => exact (DispatcherState.le_fetchMax _ _).1
  | finish =>
    show d.dispatchState.code ≤ DispatcherState.closed.code
    cases d.dispatchState <;> decide
  | _ => exact Nat.le_refl _

theorem leased_of_leased (hsealed : d.sealed)
    (hleased : task'.leased = true) : task.leased = true := by
  cases h with
  | rest subscription force hoccupies hsame => rwa [hsame] at hleased
  | grant authority haccepts =>
    exact absurd hsealed (Nat.not_le_of_lt (DispatcherState.code_lt_of_accepts haccepts))
  | publish => rfl
  | drain haccepting htask => rcases htask with rfl | rfl <;> cases hleased
  | _ => cases hleased

theorem live_of_live (hcancel : d.ingressCancel = true)
    (hlive : task'.live = true) : task.live = true := by
  cases h with
  | rest subscription force hoccupies hleased hguards hsame => exact hsame hlive
  | start hopen => cases hopen.symm.trans hcancel
  | receive => rfl
  | drain haccepting htask => rcases htask with rfl | rfl <;> cases hlive
  | _ => cases hlive

theorem ingressCancel_of (hcancel : d.ingressCancel = true) : d'.ingressCancel = true := by
  cases h with
  | stop | ownerCancel => rfl
  | _ => exact hcancel

theorem closeOwner_of (howner : d.closeOwner = true) : d'.closeOwner = true := by
  cases h with
  | install => rfl
  | _ => exact howner

theorem length_le : emitted.length ≤ 1 := by
  cases h with
  | rest subscription force hoccupies hleased hguards hlive howner hemitted hone => exact hone
  | _ => simp

omit h

/-- What a move has to be for its action. -/
def Emits (d : Dispatcher) (task : Task) (d' : Dispatcher) (task' : Task) : Action → Prop
  | .sealed => d'.sealed
  | .granted => ¬d.sealed
  | .publishCalled => task.leased = true
  | .receiveCalled => task.live = true
  | .closeCalled => task = .owner .ready ∧ task' = .owner .closing
  | .zeroObserved => d.inFlight = 0
  | .publishEnded | .receiveEnded | .closeEnded => True

theorem emits (h : Effect d task d' task' emitted) {action : Action} (hmem : action ∈ emitted) :
    Emits d task d' task' action := by
  cases h with
  | rest subscription force hoccupies hleased hguards hlive howner hemitted =>
    have hended := hemitted hmem
    simp only [List.mem_cons, List.not_mem_nil, or_false] at hended
    rcases hended with rfl | rfl | rfl <;> trivial
  | grant authority haccepts =>
    rw [List.mem_singleton.mp hmem]
    exact Nat.not_le_of_lt (DispatcherState.code_lt_of_accepts haccepts)
  | callerSeal | ownerSeal =>
    rw [List.mem_singleton.mp hmem]
    exact (DispatcherState.le_fetchMax _ _).2
  | observe hzero | ownerObserve hzero =>
    rw [List.mem_singleton.mp hmem]
    exact hzero
  | publish | receive =>
    rw [List.mem_singleton.mp hmem]
    rfl
  | closed =>
    rw [List.mem_singleton.mp hmem]
    trivial
  | close =>
    rw [List.mem_singleton.mp hmem]
    exact ⟨rfl, rfl⟩
  | _ => cases hmem

/-- How an owner goes on. -/
structure Advances (d d' : Dispatcher) (stage stage' : CloseStage) : Prop where
  sealed : stage' ≠ .sealing → stage ≠ .sealing ∨ d'.sealed
  drained : stage'.drained = true → stage.drained = true ∨ stage ≠ .sealing ∧ d.inFlight = 0
  cancelled : stage'.cancelled = true → stage.cancelled = true ∨ d'.ingressCancel = true
  stopped : stage'.stopped = true →
    stage.stopped = true ∨ stage.cancelled = true ∧ d.ingressRunning = 0
  called : stage.called = true → stage'.called = true

theorem Advances.refl (d d' : Dispatcher) (stage : CloseStage) : Advances d d' stage stage :=
  ⟨.inl, .inl, .inl, .inl, id⟩

/-- An owner was one before, or the lock was free and is set. -/
theorem owner_of_owner {stage' : CloseStage} (h : Effect d task d' task' emitted)
    (howner : task' = .owner stage') :
    (∃ stage, task = .owner stage ∧ Advances d d' stage stage') ∨
      d.closeOwner = false ∧ d'.closeOwner = true ∧ stage' = .sealing := by
  cases h with
  | rest subscription force hoccupies hleased hguards hlive hsame =>
    exact .inl ⟨stage', hsame stage' howner, .refl _ _ _⟩
  | install hnone =>
    cases howner
    exact .inr ⟨hnone, rfl, rfl⟩
  | drain haccepting htask => rcases htask with rfl | rfl <;> cases howner
  | ownerSeal =>
    cases howner
    exact .inl ⟨_, rfl, fun _ => .inr (DispatcherState.le_fetchMax _ _).2, nofun, nofun, nofun,
      nofun⟩
  | ownerObserve hzero =>
    cases howner
    exact .inl ⟨_, rfl, fun _ => .inl nofun, fun _ => .inr ⟨nofun, hzero⟩, nofun, nofun, nofun⟩
  | ownerCancel =>
    cases howner
    exact .inl ⟨_, rfl, fun _ => .inl nofun, fun _ => .inl rfl, fun _ => .inr rfl, nofun, nofun⟩
  | ownerStopped hzero =>
    cases howner
    exact .inl ⟨_, rfl, fun _ => .inl nofun, fun _ => .inl rfl, fun _ => .inl rfl,
      fun _ => .inr ⟨rfl, hzero⟩, nofun⟩
  | ownerJoined | close | skip =>
    cases howner
    exact .inl ⟨_, rfl, fun _ => .inl nofun, fun _ => .inl rfl, fun _ => .inl rfl,
      fun _ => .inl rfl, nofun⟩
  | closed =>
    cases howner
    exact .inl ⟨_, rfl, fun _ => .inl nofun, fun _ => .inl rfl, fun _ => .inl rfl,
      fun _ => .inl rfl, fun _ => rfl⟩
  | _ => cases howner

end Effect

/-! ## Runs -/

section Invariant

variable {w w' : World Nat Dispatcher Task Action}

/-- The dispatcher is sealed and nobody holds a lease. -/
structure Quiet (w : World Nat Dispatcher Task Action) : Prop where
  sealed : w.shared.sealed
  leased : ∀ i, (w.locals i).leased = false

/-- Ingress is cancelled and no task can call `receive`. -/
structure Still (w : World Nat Dispatcher Task Action) : Prop where
  cancel : w.shared.ingressCancel = true
  live : ∀ i, (w.locals i).live = false

/-- What the close owner has found out. -/
structure Knows (w : World Nat Dispatcher Task Action) (stage : CloseStage) : Prop where
  sealed : stage ≠ .sealing → w.shared.sealed
  drained : stage.drained = true → Quiet w
  cancelled : stage.cancelled = true → w.shared.ingressCancel = true
  stopped : stage.stopped = true → Still w

/-- Which action can come before which. -/
def Precedes (x y : Action) : Prop :=
  (x = .closeCalled → y ≠ .closeCalled ∧ y ≠ .publishCalled ∧ y ≠ .receiveCalled) ∧
    (x = .sealed → y ≠ .granted)

/-- How the dispatcher and its tasks stand to what was done. -/
structure Sound (w : World Nat Dispatcher Task Action) : Prop where
  flight : Machine.Counted Dispatcher.inFlight Task.occupies w
  running : Machine.Counted Dispatcher.ingressRunning Task.guards w
  sealed : .sealed ∈ w.actions → w.shared.sealed
  owner : ∀ i stage, w.locals i = .owner stage → w.shared.closeOwner = true ∧ Knows w stage
  unique : ∀ i j stage stage', w.locals i = .owner stage → w.locals j = .owner stage' → i = j
  closed : .closeCalled ∈ w.actions → w.shared.closeOwner = true ∧ Quiet w ∧ Still w ∧
    ∀ i stage, w.locals i = .owner stage → stage.called = true
  zero : (∃ before after, w.actions = before ++ .zeroObserved :: after ∧ .sealed ∈ before) → Quiet w
  order : w.actions.Pairwise Precedes

/-- A move with the state it leaves. -/
structure Follows (w w' : World Nat Dispatcher Task Action) (i : Nat) (emitted : List Action) :
    Prop where
  effect : Effect w.shared (w.locals i) w'.shared (w'.locals i) emitted
  others : ∀ j, j ≠ i → w'.locals j = w.locals j
  actions : w'.actions = w.actions ++ emitted

variable {i : Nat} {emitted : List Action}

theorem Follows.sealed (h : Follows w w' i emitted) (hsealed : w.shared.sealed) :
    w'.shared.sealed :=
  Nat.le_trans hsealed h.effect.code_le

theorem Quiet.follow (hquiet : Quiet w) (h : Follows w w' i emitted) : Quiet w' where
  sealed := h.sealed hquiet.sealed
  leased j := by
    obtain rfl | hj := eq_or_ne j i
    · refine Bool.eq_false_iff.mpr fun hleased => ?_
      have hbefore := h.effect.leased_of_leased hquiet.sealed hleased
      rw [hquiet.leased j] at hbefore
      cases hbefore
    · rw [h.others j hj]
      exact hquiet.leased j

theorem Still.follow (hstill : Still w) (h : Follows w w' i emitted) : Still w' where
  cancel := h.effect.ingressCancel_of hstill.cancel
  live j := by
    obtain rfl | hj := eq_or_ne j i
    · refine Bool.eq_false_iff.mpr fun hlive => ?_
      have hbefore := h.effect.live_of_live hstill.cancel hlive
      rw [hstill.live j] at hbefore
      cases hbefore
    · rw [h.others j hj]
      exact hstill.live j

theorem Knows.follow {stage : CloseStage} (hknows : Knows w stage) (h : Follows w w' i emitted) :
    Knows w' stage where
  sealed hstage := h.sealed (hknows.sealed hstage)
  drained hstage := (hknows.drained hstage).follow h
  cancelled hstage := h.effect.ingressCancel_of (hknows.cancelled hstage)
  stopped hstage := (hknows.stopped hstage).follow h

theorem Task.leased_eq_false {task : Task} (h : task.occupies = false) : task.leased = false := by
  rw [Task.occupies, Bool.or_eq_false_iff] at h
  exact h.1

theorem Task.live_eq_false {task : Task} (h : task.guards = false) : task.live = false := by
  cases task with
  | ingress stage =>
    cases stage with
    | checking => rfl
    | claiming => rfl
    | _ => cases h
  | _ => rfl

/-- Zero dispatches after the seal: nobody holds a lease, and nobody will get one. -/
theorem Sound.quiet (h : Sound w) (hsealed : w.shared.sealed) (hzero : w.shared.inFlight = 0) :
    Quiet w :=
  ⟨hsealed, fun i => Task.leased_eq_false (h.flight.none hzero i)⟩

theorem Sound.still (h : Sound w) (hcancel : w.shared.ingressCancel = true)
    (hzero : w.shared.ingressRunning = 0) : Still w :=
  ⟨hcancel, fun i => Task.live_eq_false (h.running.none hzero i)⟩

theorem Knows.advance {stage stage' : CloseStage} (hknows : Knows w stage) (hsound : Sound w)
    (h : Follows w w' i emitted) (hadvances : Effect.Advances w.shared w'.shared stage stage') :
    Knows w' stage' where
  sealed hstage := by
    rcases hadvances.sealed hstage with hbefore | hsealed
    · exact h.sealed (hknows.sealed hbefore)
    · exact hsealed
  drained hstage := by
    rcases hadvances.drained hstage with hbefore | ⟨hbefore, hzero⟩
    · exact (hknows.drained hbefore).follow h
    · exact (hsound.quiet (hknows.sealed hbefore) hzero).follow h
  cancelled hstage := by
    rcases hadvances.cancelled hstage with hbefore | hcancel
    · exact h.effect.ingressCancel_of (hknows.cancelled hbefore)
    · exact hcancel
  stopped hstage := by
    rcases hadvances.stopped hstage with hbefore | ⟨hbefore, hzero⟩
    · exact (hknows.stopped hbefore).follow h
    · exact (hsound.still (hknows.cancelled hbefore) hzero).follow h

variable (hsound : Sound w)

include hsound

variable (h : Follows w w' i emitted)

include h

theorem Sound.owner_follow (j : Nat) (stage : CloseStage)
    (howner : w'.locals j = .owner stage) : w'.shared.closeOwner = true ∧ Knows w' stage := by
  obtain rfl | hj := eq_or_ne j i
  · obtain ⟨before, hbefore, hadvances⟩ | ⟨-, hset, rfl⟩ := h.effect.owner_of_owner howner
    · obtain ⟨hset, hknows⟩ := hsound.owner j before hbefore
      exact ⟨h.effect.closeOwner_of hset, hknows.advance hsound h hadvances⟩
    · exact ⟨hset, fun hstage => absurd rfl hstage, nofun, nofun, nofun⟩
  · rw [h.others j hj] at howner
    obtain ⟨hset, hknows⟩ := hsound.owner j stage howner
    exact ⟨h.effect.closeOwner_of hset, hknows.follow h⟩

/-- Whoever installs an owner finds none, so there is never a second one. -/
theorem Sound.unique_follow (j k : Nat) (stage stage' : CloseStage)
    (hj : w'.locals j = .owner stage) (hk : w'.locals k = .owner stage') : j = k := by
  have hmover (k : Nat) (stage stage' : CloseStage) (hi : w'.locals i = .owner stage)
      (hk : w'.locals k = .owner stage') : k = i := by
    by_contra hne
    rw [h.others k hne] at hk
    obtain ⟨before, hbefore, -⟩ | ⟨hnone, -⟩ := h.effect.owner_of_owner hi
    · exact hne (hsound.unique k i stage' before hk hbefore)
    · cases hnone.symm.trans (hsound.owner k stage' hk).1
  obtain rfl | hji := eq_or_ne j i
  · exact (hmover k stage stage' hj hk).symm
  · obtain rfl | hki := eq_or_ne k i
    · exact hmover j stage' stage hk hj
    · rw [h.others j hji] at hj
      rw [h.others k hki] at hk
      exact hsound.unique j k stage stage' hj hk

theorem Sound.closed_follow (hmem : .closeCalled ∈ w'.actions) :
    w'.shared.closeOwner = true ∧ Quiet w' ∧ Still w' ∧
      ∀ j stage, w'.locals j = .owner stage → stage.called = true := by
  rw [h.actions, List.mem_append] at hmem
  rcases hmem with hbefore | hnow
  · obtain ⟨hset, hquiet, hstill, hcalled⟩ := hsound.closed hbefore
    refine ⟨h.effect.closeOwner_of hset, hquiet.follow h, hstill.follow h, fun j stage howner => ?_⟩
    obtain rfl | hj := eq_or_ne j i
    · obtain ⟨before, hbefore, hadvances⟩ | ⟨hnone, -⟩ := h.effect.owner_of_owner howner
      · exact hadvances.called (hcalled j before hbefore)
      · cases hnone.symm.trans hset
    · rw [h.others j hj] at howner
      exact hcalled j stage howner
  · obtain ⟨hset, hknows⟩ := hsound.owner i .ready (h.effect.emits hnow).1
    have hafter : w'.locals i = .owner .closing := (h.effect.emits hnow).2
    refine ⟨h.effect.closeOwner_of hset, (hknows.drained rfl).follow h,
      (hknows.stopped rfl).follow h, fun j stage howner => ?_⟩
    have hj := hsound.unique_follow h j i stage .closing howner hafter
    subst hj
    cases howner.symm.trans hafter
    rfl

/-- Nothing is added to the log that a former action excludes. -/
theorem Sound.precedes {x y : Action} (hx : x ∈ w.actions) (hy : y ∈ emitted) : Precedes x y := by
  constructor
  · rintro rfl
    obtain ⟨-, hquiet, hstill, hcalled⟩ := hsound.closed hx
    refine ⟨?_, ?_, ?_⟩
    · rintro rfl
      cases hcalled i .ready (h.effect.emits hy).1
    · rintro rfl
      cases (hquiet.leased i).symm.trans (h.effect.emits hy)
    · rintro rfl
      cases (hstill.live i).symm.trans (h.effect.emits hy)
  · rintro rfl rfl
    exact h.effect.emits hy (hsound.sealed hx)

theorem Sound.zero_follow
    (hzero : ∃ before after, w'.actions = before ++ .zeroObserved :: after ∧ .sealed ∈ before) :
    Quiet w' := by
  obtain ⟨before, after, heq, hsealed⟩ := hzero
  rw [h.actions] at heq
  obtain ⟨rest, hrest⟩ | ⟨middle, hmiddle, hemitted⟩ := Position.append_split heq
  · exact (hsound.zero ⟨before, rest, hrest, hsealed⟩).follow h
  · have hmem : .zeroObserved ∈ emitted := by simp [hemitted]
    -- A move adds at most one action, so the seal was there before.
    have hempty : middle = [] := by
      have hlength := h.effect.length_le
      rw [hemitted, List.length_append, List.length_cons] at hlength
      exact List.eq_nil_of_length_eq_zero (by omega)
    rw [hmiddle, hempty, List.append_nil] at hsealed
    exact (hsound.quiet (hsound.sealed hsealed) (h.effect.emits hmem)).follow h

theorem Sound.sealed_follow (hmem : .sealed ∈ w'.actions) : w'.shared.sealed := by
  rw [h.actions, List.mem_append] at hmem
  rcases hmem with hbefore | hnow
  · exact h.sealed (hsound.sealed hbefore)
  · exact h.effect.emits hnow

theorem Sound.order_follow : w'.actions.Pairwise Precedes := by
  rw [h.actions, List.pairwise_append]
  refine ⟨hsound.order, ?_, fun x hx y hy => hsound.precedes h hx hy⟩
  have hlength := h.effect.length_le
  cases emitted with
  | nil => exact .nil
  | cons action rest =>
    rw [List.length_cons] at hlength
    rw [List.eq_nil_of_length_eq_zero (show rest.length = 0 by omega)]
    exact List.pairwise_singleton _ _

omit h hsound

theorem Sound.step (slot : BackplaneSlot) (hsound : Sound w) (i : Nat) (event : Event) :
    Sound ((dispatcher slot).step w (i, event)) := by
  have h : Follows w ((dispatcher slot).step w (i, event)) i
      (act slot w.shared event (w.locals i)).emitted := by
    refine ⟨?_, fun j hj => (dispatcher slot).step_locals_other w i j event hj,
      (dispatcher slot).step_actions w i event⟩
    rw [(dispatcher slot).step_locals_self]
    exact act_effect slot w.shared event (w.locals i)
  have heffect := act_effect slot w.shared event (w.locals i)
  exact {
    flight := hsound.flight.step (dispatcher slot) i event heffect.inFlight_eq
    running := hsound.running.step (dispatcher slot) i event heffect.ingressRunning_eq
    sealed := hsound.sealed_follow h
    owner := hsound.owner_follow h
    unique := hsound.unique_follow h
    closed := hsound.closed_follow h
    zero := hsound.zero_follow h
    order := hsound.order_follow h }

theorem Sound.initial : Sound initial where
  flight := Tally.empty fun _ => by
    simp [Backplane.initial, Task.occupies, Task.leased, Task.acquires]
  running := Tally.empty fun _ => by simp [Backplane.initial, Task.guards]
  sealed := nofun
  owner := nofun
  unique := nofun
  closed := nofun
  zero := by simp [Backplane.initial, World.actions]
  order := .nil

theorem Sound.run (slot : BackplaneSlot) (moves : List (Nat × Event)) :
    Sound ((dispatcher slot).run Backplane.initial moves) :=
  (dispatcher slot).run_induct .initial (fun _ i event h => h.step slot i event) moves

end Invariant

/-- The state of the dispatcher only goes forward. -/
theorem code_le_run (slot : BackplaneSlot) (w : World Nat Dispatcher Task Action)
    (moves : List (Nat × Event)) :
    w.shared.dispatchState.code ≤
      ((dispatcher slot).run w moves).shared.dispatchState.code := by
  refine (dispatcher slot).run_induct
    (P := fun w' => w.shared.dispatchState.code ≤ w'.shared.dispatchState.code) (Nat.le_refl _)
    (fun w' i event h => ?_) moves
  exact Nat.le_trans h (act_effect slot w'.shared event (w'.locals i)).code_le

/-- The order of the dispatcher's calls of its provider. -/
structure Closes (w : World Nat Dispatcher Task Action) : Prop where
  once : w.actions.count .closeCalled ≤ 1
  exclusive : .closeCalled ∈ w.actions →
    ∀ i, (w.locals i).publishing = false ∧ (w.locals i).receiving = false
  last : w.actions.Pairwise fun x y => x = .closeCalled → y ≠ .publishCalled ∧ y ≠ .receiveCalled
  inFlight : ∃ leases acquisitions, Tally (fun i => (w.locals i).leased = true) leases ∧
    Tally (fun i => (w.locals i).acquires = true) acquisitions ∧
    w.shared.inFlight = leases + acquisitions
  /-- Whoever is about to give its count back finds the counter positive. -/
  positive : ∀ i, ((w.locals i).occupies = true → 0 < w.shared.inFlight) ∧
    ((w.locals i).guards = true → 0 < w.shared.ingressRunning)
  /-- No lease is granted once the dispatcher is sealed, and none is left once zero was read. -/
  granted : w.actions.Pairwise fun x y => x = .sealed → y ≠ .granted
  drained : ∀ before after, w.actions = before ++ .zeroObserved :: after → .sealed ∈ before →
    ∀ i, (w.locals i).leased = false

theorem provider_closed_last (slot : BackplaneSlot) (moves : List (Nat × Event)) :
    Closes ((dispatcher slot).run initial moves) ∧
      ∀ more, ((dispatcher slot).run initial moves).shared.dispatchState.code ≤
        ((dispatcher slot).run initial (moves ++ more)).shared.dispatchState.code := by
  have h := Sound.run slot moves
  refine ⟨?_, fun more => ?_⟩
  · exact {
      once := Position.count_le_one (h.order.imp fun hprecedes hx => (hprecedes.1 hx).1)
      exclusive := by
        intro hmem i
        obtain ⟨-, hquiet, hstill, -⟩ := h.closed hmem
        constructor
        · refine Bool.eq_false_iff.mpr fun hpublishing => ?_
          cases (hquiet.leased i).symm.trans (Task.leased_of_publishing hpublishing)
        · refine Bool.eq_false_iff.mpr fun hreceiving => ?_
          cases (hstill.live i).symm.trans (Task.live_of_receiving hreceiving)
      last := h.order.imp fun hprecedes hx => (hprecedes.1 hx).2
      inFlight := by
        refine h.flight.split (fun i => ?_) fun i hleased hacquires => ?_
        · rw [Task.occupies, Bool.or_eq_true]
        · cases hlocal : ((dispatcher slot).run initial moves).locals i <;>
            simp [hlocal, Task.leased, Task.acquires] at hleased hacquires
      positive := fun i => ⟨h.flight.pos, h.running.pos⟩
      granted := h.order.imp fun hprecedes => hprecedes.2
      drained := fun before after heq hsealed => (h.zero ⟨before, after, heq, hsealed⟩).leased }
  · rw [(dispatcher slot).run_append]
    exact code_le_run slot _ more

end Lily.Websocket.Backplane
