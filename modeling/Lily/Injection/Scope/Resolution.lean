import Lily.Injection.Scope.Ledger
import Lily.Injection.Scope.Moves
import Lily.Transition.Counting

/-!
# Resolutions against the cleanup of their scope

The invariant of the scope has a part for each of its mechanisms: the stage of the cleanup, the
count of the resolutions in flight, the ledger, the log, and for each resolution what it may rely
on at its step.
-/

namespace Lily.Injection.Scope

open Transition ScopeContext

variable {lifetime : TypeId → ServiceLifetime}

/-! ## Stage and count -/

def Phase.admitted : Phase → Bool
  | .idle | .done => false
  | _ => true

variable {phase : Phase}

theorem Ends.admitted {value : Option Nat} (h : Ends phase value) : phase.admitted = true := by
  cases h <;> rfl

theorem Ends.returning_of_some {value : Nat} (h : Ends phase (some value)) :
    phase = .returning value := by
  cases h
  rfl

variable {next : Phase}

theorem Advance.admitted {s : ScopeContext} {typeId : TypeId}
    (h : Advance lifetime s typeId phase next) : phase.admitted = true ∧ next.admitted = true := by
  cases h with
  | hit hphase => rcases hphase with rfl | rfl <;> exact ⟨rfl, rfl⟩
  | _ => exact ⟨rfl, rfl⟩

theorem Publishes.admitted {i : Nat} {typeId : TypeId} {resolved : List Nat}
    {kind : ScopedInstanceKind} (h : Publishes lifetime i typeId resolved phase kind next) :
    phase.admitted = true ∧ next.admitted = true := by
  cases h <;> exact ⟨rfl, rfl⟩

section Publish

variable (s : ScopeContext) (made : ScopedInstance)

@[simp] theorem publish_state : (publish s made).state = s.state := by
  unfold publish; split <;> rfl

@[simp] theorem publish_cleanup : (publish s made).cleanup = s.cleanup := by
  unfold publish; split <;> rfl

@[simp] theorem publish_handoff :
    (publish s made).resolutionDrainHandoff = s.resolutionDrainHandoff := by
  unfold publish; split <;> rfl

@[simp] theorem publish_inFlight :
    (publish s made).inFlightResolutions = s.inFlightResolutions := by
  unfold publish; split <;> rfl

@[simp] theorem publish_locks : (publish s made).creationLocks = s.creationLocks := by
  unfold publish; split <;> rfl

@[simp] theorem publish_returned : (publish s made).returned = s.returned := by
  unfold publish; split <;> rfl

end Publish

section Effects

variable {i : Nat} {s : ScopeContext} {task : Task} {turn : Turn ScopeContext Task Entry}

theorem Effect.stage (heffect : Effect lifetime i s task turn) (h : Stage s) :
    Stage turn.shared := by
  cases heffect with
  | still | refuse | advance | lock | unlock => exact ⟨h.opened, h.closed, h.empty, h.handoff⟩
  | publish hpublishes =>
    exact ⟨by simpa using h.opened, by simpa using h.closed, by simpa using h.empty,
      by simpa using h.handoff⟩
  | enroll hidle hopened =>
    have habsent : s.cleanup = .absent := h.opened.mpr hopened
    exact ⟨h.opened, h.closed, by simp [habsent], h.handoff⟩
  | leave =>
    refine ⟨h.opened, h.closed, fun hempty => ?_, h.handoff⟩
    have hzero := h.empty hempty
    simp [hzero]
  | leaveLast hends hholding hlast hhandoff =>
    exact ⟨by simp [detach], by simp [detach], fun _ => hlast,
      by simp [detach]⟩
  | prepare hstate hstage => exact hstage
  | take hdrained =>
    exact ⟨by simp [detach], by simp [detach],
      fun _ => h.empty (.inl hdrained), by simp [detach]⟩

theorem Effect.counted (heffect : Effect lifetime i s task turn) :
    turn.shared.inFlightResolutions =
      match task.phase.admitted, turn.own.phase.admitted with
      | false, true => s.inFlightResolutions + 1
      | true, false => s.inFlightResolutions - 1
      | _, _ => s.inFlightResolutions := by
  cases heffect with
  | still | prepare | take | unlock => cases task.phase.admitted <;> rfl
  | refuse hidle | enroll hidle => simp [hidle, Phase.admitted]
  | advance h | publish h => simp [h.admitted]
  | lock hwaiting => simp [hwaiting, Phase.admitted]
  | leave hends | leaveLast hends =>
    rw [hends.admitted]
    rfl

end Effects

/-! ## What a resolution relies on -/

/-- No instance of this resolution is published. -/
def Fresh (i : Nat) (made : List ScopedInstance) : Prop := ∀ found ∈ made, found.value ≠ i

/-- A factory has been given published instances only. It creates a scoped instance under the
creation lock of the type, while there is none in the cache. -/
def Creating (lifetime : TypeId → ServiceLifetime) (i : Nat) (s : ScopeContext)
    (made : List ScopedInstance) (task : Task) (resolved : List Nat) : Prop :=
  Fresh i made ∧ (∀ value ∈ resolved, ∃ found ∈ made, found.value = value) ∧
    (lifetime task.typeId = .scoped →
      task.holding = true ∧ s.scopedInstances task.typeId = none)

def AtPhase (lifetime : TypeId → ServiceLifetime) (i : Nat) (s : ScopeContext)
    (made : List ScopedInstance) (task : Task) : Prop :=
  match task.phase with
  | .idle | .entered => task.holding = false ∧ Fresh i made
  | .uncached | .waiting =>
    task.holding = false ∧ Fresh i made ∧ lifetime task.typeId = .scoped
  | .locked => task.holding = true ∧ Fresh i made ∧ lifetime task.typeId = .scoped
  | .building resolved | .built resolved | .interrupted resolved =>
    Creating lifetime i s made task resolved
  | .returning value => Origin lifetime made task.typeId value
  | .failing => True
  | .done => task.holding = false

/-- A task holds the lock of its own type at most, and what its phase says. -/
structure TaskSound (lifetime : TypeId → ServiceLifetime) (i : Nat) (s : ScopeContext)
    (made : List ScopedInstance) (task : Task) : Prop where
  locks : ∀ typeId, s.creationLocks typeId = some i ↔
    task.holding = true ∧ task.typeId = typeId
  phase : AtPhase lifetime i s made task

theorem Fresh.append {i : Nat} {made : List ScopedInstance} {new : ScopedInstance}
    (h : Fresh i made) (hnew : new.value ≠ i) : Fresh i (made ++ [new]) := by
  intro found hmem
  rcases List.mem_append.mp hmem with hold | hlast
  · exact h found hold
  · rw [List.mem_singleton.mp hlast]
    exact hnew

/-- What a resolution relies on outlives what does not touch it. -/
theorem AtPhase.mono {i : Nat} {s s' : ScopeContext} {made made' : List ScopedInstance}
    {task : Task} (h : AtPhase lifetime i s made task) (hmade : made ⊆ made')
    (hfresh : Fresh i made → Fresh i made')
    (hcache : task.holding = true → s.scopedInstances task.typeId = none →
      s'.scopedInstances task.typeId = none) : AtPhase lifetime i s' made' task := by
  have hcreating : ∀ {resolved}, Creating lifetime i s made task resolved →
      Creating lifetime i s' made' task resolved := by
    rintro resolved ⟨hnew, hresolved, hscoped⟩
    refine ⟨hfresh hnew, fun value hvalue => ?_, fun hlifetime => ?_⟩
    · obtain ⟨found, hmem, heq⟩ := hresolved value hvalue
      exact ⟨found, hmade hmem, heq⟩
    · obtain ⟨hholding, hfree⟩ := hscoped hlifetime
      exact ⟨hholding, hcache hholding hfree⟩
  unfold AtPhase at h ⊢
  split at h
  case h_1 | h_2 => exact ⟨h.1, hfresh h.2⟩
  case h_3 | h_4 | h_5 => exact ⟨h.1, hfresh h.2.1, h.2.2⟩
  case h_6 | h_7 | h_8 => exact hcreating h
  case h_9 => exact h.mono hmade
  case h_10 => trivial
  case h_11 => exact h

namespace TaskSound

variable {i : Nat} {s s' : ScopeContext} {made : List ScopedInstance} {task : Task}

/-- A resolution that is not in flight does not depend on the scope. -/
theorem detached (h : TaskSound lifetime i s made task) (hidle : task.phase.admitted = false)
    (hlocks : s'.creationLocks = fun _ => none) : TaskSound lifetime i s' made task := by
  have hphase := h.phase
  have hholding : task.holding = false := by
    unfold AtPhase at hphase
    cases hcase : task.phase <;> simp only [hcase, Phase.admitted, reduceCtorEq] at hphase hidle
    · exact hphase.1
    · exact hphase
  refine ⟨fun typeId => ?_, hphase.mono (fun _ hmem => hmem) id ?_⟩
  · rw [hlocks, hholding]
    exact iff_of_false (by simp) (by simp)
  · intro hheld
    rw [hholding] at hheld
    cases hheld

theorem unlocked (h : TaskSound lifetime i s made task) (hholding : task.holding = false)
    (typeId : TypeId) : s.creationLocks typeId ≠ some i := by
  rw [Ne, h.locks, hholding]
  simp

theorem done (hholding : task.holding = false)
    (hlocks : ∀ typeId, s'.creationLocks typeId ≠ some i) :
    TaskSound lifetime i s' made { task with phase := .done } :=
  ⟨fun typeId => iff_of_false (hlocks typeId) (by simp [hholding]), hholding⟩

theorem publishes (h : TaskSound lifetime i s made task) {resolved : List Nat}
    {kind : ScopedInstanceKind}
    (hpublishes : Publishes lifetime i task.typeId resolved task.phase kind next) :
    Creating lifetime i s made task resolved ∧ (kind = .scopedService →
      s.creationLocks task.typeId = some i ∧ s.scopedInstances task.typeId = none) := by
  have hphase := h.phase
  unfold AtPhase at hphase
  generalize hcurrent : task.phase = phase at hpublishes hphase
  cases hpublishes with
  | scopedService hlifetime =>
    obtain ⟨hholding, hfree⟩ := hphase.2.2 hlifetime
    exact ⟨hphase, fun _ => ⟨(h.locks _).mpr ⟨hholding, rfl⟩, hfree⟩⟩
  | transientService | partialInitialization => exact ⟨hphase, fun hkind => nomatch hkind⟩

theorem advance (h : TaskSound lifetime i s made task) (hledger : Ledger s made)
    (hreturned : ∀ value ∈ s.returned, ∃ found ∈ made, found.value = value)
    (hadvance : Advance lifetime s task.typeId task.phase next) :
    TaskSound lifetime i s made { task with phase := next } := by
  refine ⟨h.locks, ?_⟩
  have hphase := h.phase
  unfold AtPhase at hphase ⊢
  generalize task.phase = phase at hadvance hphase
  cases hadvance with
  | hit _ hscoped hfound =>
    obtain ⟨hmem, htype, hkind⟩ := hledger.cached _ _ hfound
    exact ⟨_, hmem, rfl, fun _ => ⟨hkind, htype⟩⟩
  | miss hscoped => exact ⟨hphase.1, hphase.2, hscoped⟩
  | direct htransient => exact ⟨hphase.2, by simp, fun hscoped => absurd hscoped htransient⟩
  | request | finish | interrupt => exact hphase
  | create hfree => exact ⟨hphase.2.1, by simp, fun _ => ⟨hphase.1, hfree⟩⟩
  | resolve hvalue =>
    refine ⟨hphase.1, fun given hgiven => ?_, hphase.2.2⟩
    rcases List.mem_append.mp hgiven with hold | hnew
    · exact hphase.2.1 given hold
    · rw [List.mem_singleton.mp hnew]
      exact hreturned _ hvalue
  | abandon | cancel => trivial

end TaskSound

section Effects

variable {i j : Nat} {s : ScopeContext} {task other : Task} {made : List ScopedInstance}
  {turn : Turn ScopeContext Task Entry}

theorem instances_result (i : Nat) (typeId : TypeId) (value : Option Nat) :
    instances ((value.map (Entry.returned typeId)).toList.map (Prod.mk i)) = [] := by
  cases value <;> rfl

/-- The mover's own part. -/
theorem Effect.own (heffect : Effect lifetime i s task turn) (h : TaskSound lifetime i s made task)
    (hledger : task.phase.admitted = true → Ledger s made)
    (hreturned : ∀ value ∈ s.returned, ∃ found ∈ made, found.value = value)
    (hdrained : s.cleanup = .drained → task.phase.admitted = false) :
    TaskSound lifetime i turn.shared (made ++ instances (turn.emitted.map (Prod.mk i)))
      turn.own := by
  cases heffect with
  | still => simpa using h
  | prepare =>
    rw [List.map_nil, instances_nil, List.append_nil]
    exact ⟨h.locks, h.phase.mono (fun _ hmem => hmem) id fun _ hfree => hfree⟩
  | refuse hidle =>
    have hphase := h.phase
    simp only [AtPhase, hidle] at hphase
    exact .done hphase.1 (h.unlocked hphase.1)
  | enroll hidle =>
    have hphase := h.phase
    simp only [AtPhase, hidle] at hphase
    refine ⟨fun typeId => ?_, hphase.1, by simpa using hphase.2⟩
    rw [h.locks typeId, hphase.1]
    simp
  | advance hadvance =>
    rw [List.map_nil, instances_nil, List.append_nil]
    exact h.advance (hledger hadvance.admitted.1) hreturned hadvance
  | lock hwaiting hfree =>
    have hphase := h.phase
    simp only [AtPhase, hwaiting] at hphase
    refine ⟨fun typeId => ?_, rfl, by simpa using hphase.2.1, hphase.2.2⟩
    by_cases htype : typeId = task.typeId
    · subst htype
      simp
    · have hlocks := h.locks typeId
      rw [hphase.1] at hlocks
      simpa [Function.update_of_ne htype, Ne.symm htype] using hlocks
  | publish hpublishes =>
    obtain ⟨hcreating, hscoped⟩ := h.publishes hpublishes
    refine ⟨by simpa using h.locks, ?_⟩
    have hnew : ∀ kind, (⟨task.typeId, kind, i⟩ : ScopedInstance) ∈
        made ++ [⟨task.typeId, kind, i⟩] :=
      fun kind => List.mem_append_right _ (List.mem_singleton_self _)
    generalize task.phase = phase at hpublishes
    cases hpublishes with
    | scopedService => exact ⟨_, hnew _, rfl, fun _ => ⟨rfl, rfl⟩⟩
    | transientService htransient =>
      exact ⟨_, hnew _, rfl, fun hlifetime => absurd hlifetime htransient⟩
    | partialInitialization => trivial
  | unlock hends hholding =>
    rw [List.map_nil, instances_nil, List.append_nil]
    refine ⟨fun typeId => ?_, ?_⟩
    · by_cases htype : typeId = task.typeId
      · subst htype
        simp
      · have hlocks := h.locks typeId
        simpa [Function.update_of_ne htype, Ne.symm htype] using hlocks
    · have hphase := h.phase
      unfold AtPhase at hphase ⊢
      generalize task.phase = phase at hends hphase
      cases hends with
      | returning => exact hphase
      | failing => trivial
  | leave hends hholding hstays => exact .done hholding (h.unlocked hholding)
  | leaveLast hends hholding =>
    exact .done hholding fun typeId hlock => nomatch hlock
  | take hdetached =>
    simp only [List.map_cons, List.map_nil, instances_taken, List.append_nil]
    exact h.detached (hdrained hdetached) rfl

/-- The part of the others. -/
theorem Effect.rely (heffect : Effect lifetime i s task turn) (hij : i ≠ j)
    (h : TaskSound lifetime i s made task) (hother : TaskSound lifetime j s made other)
    (hdrained : s.cleanup = .drained → other.phase.admitted = false)
    (hlast : s.inFlightResolutions - 1 = 0 → task.phase.admitted = true →
      other.phase.admitted = false) :
    TaskSound lifetime j turn.shared (made ++ instances (turn.emitted.map (Prod.mk i))) other := by
  have hsame : ∀ {s' : ScopeContext}, s'.creationLocks = s.creationLocks →
      s'.scopedInstances = s.scopedInstances → TaskSound lifetime j s' made other := by
    intro s' hlocks hcache
    refine ⟨by simpa only [hlocks] using hother.locks, hother.phase.mono (fun _ h => h) id ?_⟩
    intro _ hfree
    rwa [hcache]
  have hupdate : ∀ {owner : Option Nat}, owner ≠ some j → s.creationLocks task.typeId ≠ some j →
      TaskSound lifetime j { s with
        creationLocks := Function.update s.creationLocks task.typeId owner } made other := by
    intro owner howner hbefore
    refine ⟨fun typeId => ?_, hother.phase.mono (fun _ h => h) id fun _ hfree => hfree⟩
    rw [← hother.locks typeId]
    obtain rfl | htype := eq_or_ne typeId task.typeId
    · simp [howner, hbefore]
    · simp [htype]
  cases heffect with
  | still | refuse | advance | prepare =>
    rw [List.map_nil, instances_nil, List.append_nil]
    exact hsame rfl rfl
  | enroll =>
    simp only [List.map_cons, List.map_nil, instances_admitted, List.append_nil]
    exact hsame rfl rfl
  | lock hwaiting hfree =>
    rw [List.map_nil, instances_nil, List.append_nil]
    exact hupdate (by simp [hij]) (by simp [hfree])
  | unlock hends hholding =>
    have hheld : s.creationLocks task.typeId = some i := (h.locks _).mpr ⟨hholding, rfl⟩
    rw [List.map_nil, instances_nil, List.append_nil]
    exact hupdate nofun (by simp [hheld, hij])
  | publish hpublishes =>
    rename_i resolved kind next
    obtain ⟨-, hscoped⟩ := h.publishes hpublishes
    simp only [List.map_cons, List.map_nil, instances_published]
    refine ⟨by simpa using hother.locks, hother.phase.mono (by simp)
      (fun hfresh => hfresh.append hij) fun hholding hfree => ?_⟩
    by_cases hkind : kind = .scopedService
    · -- Both would hold the creation lock of the type.
      have htype : other.typeId ≠ task.typeId := by
        intro heq
        have hheld : s.creationLocks task.typeId = some j :=
          (hother.locks _).mpr ⟨hholding, heq⟩
        rw [(hscoped hkind).1] at hheld
        exact hij (Option.some.inj hheld)
      simpa [Scope.publish, hkind, cacheAny, htype] using hfree
    · simpa [Scope.publish, hkind, track] using hfree
  | leave =>
    rw [instances_result, List.append_nil]
    exact hsame rfl rfl
  | leaveLast hends hholding hlone =>
    rw [List.map_append, instances_append, instances_result]
    simp only [List.map_cons, List.map_nil, instances_taken, List.append_nil]
    exact hother.detached (hlast hlone hends.admitted) rfl
  | take hdetached =>
    simp only [List.map_cons, List.map_nil, instances_taken, List.append_nil]
    exact hother.detached (hdrained hdetached) rfl

end Effects

/-! ## Runs -/

/-- The invariant of a run: the ledger has what was made until the cleanup takes it. -/
structure Sound (lifetime : TypeId → ServiceLifetime) (w : World Nat ScopeContext Task Entry) :
    Prop where
  stage : Stage w.shared
  counted : Machine.Counted inFlightResolutions (fun task => task.phase.admitted) w
  history : History lifetime w.log
  live : w.shared.state ≠ .closed → Ledger w.shared (instances w.log) ∧ Untaken w.log
  returned : ∀ value ∈ w.shared.returned, ∃ found ∈ instances w.log, found.value = value
  tasks : ∀ i, TaskSound lifetime i w.shared (instances w.log) (w.locals i)

namespace Sound

variable {w : World Nat ScopeContext Task Entry}

theorem initial : Sound lifetime initial := by
  constructor
  · constructor <;> simp [Scope.initial]
  · exact Collection.Tally.empty fun _ => Bool.false_ne_true
  · exact .nil
  · exact fun _ => ⟨⟨rfl, List.nodup_nil, nofun, nofun⟩, nofun⟩
  · exact nofun
  · intro i
    exact ⟨fun typeId => iff_of_false (by simp [Scope.initial]) (by simp [Scope.initial]), rfl,
      nofun⟩

/-- The ledger is not taken while a resolution is in flight. -/
theorem open_of_admitted (h : Sound lifetime w) {i : Nat}
    (hi : (w.locals i).phase.admitted = true) : w.shared.state ≠ .closed := by
  intro hclosed
  have hzero := h.stage.empty (.inr (h.stage.closed.mpr hclosed))
  have hpos := h.counted.pos hi
  omega

theorem open_of_drained (h : Sound lifetime w) (hdrained : w.shared.cleanup = .drained) :
    w.shared.state ≠ .closed := by
  intro hclosed
  have hdetached := h.stage.closed.mpr hclosed
  rw [hdrained] at hdetached
  cases hdetached

theorem result (h : Sound lifetime w) {i : Nat} {value : Nat}
    (hphase : (w.locals i).phase = .returning value) :
    Origin lifetime (instances w.log) (w.locals i).typeId value := by
  have hat := (h.tasks i).phase
  simpa only [AtPhase, hphase] using hat

theorem history_result (h : Sound lifetime w) {i : Nat} {value : Option Nat}
    (hends : Ends (w.locals i).phase value) :
    History lifetime
        (w.log ++ (value.map (Entry.returned (w.locals i).typeId)).toList.map (Prod.mk i)) ∧
      Untaken
        (w.log ++ (value.map (Entry.returned (w.locals i).typeId)).toList.map (Prod.mk i)) := by
  have huntaken : Untaken w.log := (h.live (h.open_of_admitted hends.admitted)).2
  cases value with
  | none =>
    simp only [Option.map_none, Option.toList_none, List.map_nil, List.append_nil]
    exact ⟨h.history, huntaken⟩
  | some value =>
    have hphase := hends.returning_of_some
    refine ⟨h.history.append huntaken rfl ?_ nofun, ?_⟩
    · intro typeId given heq
      obtain ⟨rfl, rfl⟩ := Entry.returned.inj heq
      exact h.result hphase
    · intro j list hmem
      rcases List.mem_append.mp hmem with hold | hnew
      · exact huntaken j list hold
      · cases List.mem_singleton.mp hnew

theorem history_take {log : List (Nat × Entry)} {s : ScopeContext} {i : Nat}
    (h : History lifetime log) (huntaken : Untaken log) (hledger : Ledger s (instances log)) :
    History lifetime (log ++ [(i, .taken s.instancesForDisposal)]) := by
  refine h.append huntaken rfl nofun fun list heq => ?_
  rw [← Entry.taken.inj heq, hledger.instancesForDisposal]

end Sound

section Step

variable {w : World Nat ScopeContext Task Entry} {i : Nat} {turn : Turn ScopeContext Task Entry}

theorem Effect.history (heffect : Effect lifetime i w.shared (w.locals i) turn)
    (h : Sound lifetime w) : History lifetime (w.log ++ turn.emitted.map (Prod.mk i)) := by
  cases heffect with
  | still | refuse | advance | lock | unlock | prepare =>
    rw [List.map_nil, List.append_nil]
    exact h.history
  | enroll hidle hopened =>
    have hopen : w.shared.state ≠ .closed := by
      rw [hopened]
      exact nofun
    exact h.history.append (h.live hopen).2 rfl nofun nofun
  | publish hpublishes =>
    obtain ⟨hledger, huntaken⟩ := h.live (h.open_of_admitted hpublishes.admitted.1)
    obtain ⟨⟨hfresh, hresolved, -⟩, hscoped⟩ := (h.tasks i).publishes hpublishes
    refine h.history.publish huntaken hfresh ?_ hresolved
    intro found hfound hfoundKind hkind heq
    have hcached := hledger.reachable found hfound hfoundKind
    rw [heq, (hscoped hkind).2] at hcached
    cases hcached
  | leave hends => exact (h.history_result hends).1
  | leaveLast hends =>
    obtain ⟨hhistory, huntaken⟩ := h.history_result hends
    have hledger := (h.live (h.open_of_admitted hends.admitted)).1
    rw [List.map_append, ← List.append_assoc]
    refine Sound.history_take hhistory huntaken ?_
    rw [instances_append, instances_result, List.append_nil]
    exact hledger
  | take hdrained =>
    obtain ⟨hledger, huntaken⟩ := h.live (h.open_of_drained hdrained)
    exact Sound.history_take h.history huntaken hledger

theorem Effect.live (heffect : Effect lifetime i w.shared (w.locals i) turn) (h : Sound lifetime w)
    (hopen : turn.shared.state ≠ .closed) :
    Ledger turn.shared (instances (w.log ++ turn.emitted.map (Prod.mk i))) ∧
      Untaken (w.log ++ turn.emitted.map (Prod.mk i)) := by
  cases heffect with
  | still | refuse | advance | lock | unlock =>
    rw [List.map_nil, List.append_nil]
    obtain ⟨hledger, huntaken⟩ := h.live hopen
    exact ⟨hledger.congr rfl rfl, huntaken⟩
  | prepare hstate =>
    rw [List.map_nil, List.append_nil]
    obtain ⟨hledger, huntaken⟩ := h.live fun hclosed => hopen (hstate.mpr hclosed)
    exact ⟨hledger.congr rfl rfl, huntaken⟩
  | enroll =>
    obtain ⟨hledger, huntaken⟩ := h.live hopen
    refine ⟨?_, by simpa [Untaken] using huntaken⟩
    simp only [List.map_cons, List.map_nil, instances_append, instances_admitted,
      List.append_nil]
    exact hledger.congr rfl rfl
  | publish hpublishes =>
    obtain ⟨hledger, huntaken⟩ := h.live (h.open_of_admitted hpublishes.admitted.1)
    obtain ⟨-, hscoped⟩ := (h.tasks i).publishes hpublishes
    refine ⟨?_, by simpa [Untaken] using huntaken⟩
    simp only [List.map_cons, List.map_nil, instances_append, instances_published]
    unfold Scope.publish
    split
    next hkind => exact hledger.cacheAny (hscoped hkind).2 hkind
    next hkind => exact hledger.track hkind
  | leave hends =>
    rw [instances_append, instances_result, List.append_nil]
    exact ⟨(h.live hopen).1.congr rfl rfl, (h.history_result hends).2⟩
  | leaveLast | take => exact absurd rfl hopen

theorem Effect.returned (heffect : Effect lifetime i w.shared (w.locals i) turn)
    (h : Sound lifetime w) :
    ∀ value ∈ turn.shared.returned,
      ∃ found ∈ instances (w.log ++ turn.emitted.map (Prod.mk i)), found.value = value := by
  have hold : ∀ value ∈ w.shared.returned,
      ∃ found ∈ instances (w.log ++ turn.emitted.map (Prod.mk i)), found.value = value := by
    intro value hvalue
    obtain ⟨found, hmem, heq⟩ := h.returned value hvalue
    exact ⟨found, by simp [hmem], heq⟩
  have hnew : ∀ {result : Option Nat}, Ends (w.locals i).phase result → ∀ value ∈ result.toList,
      ∃ found ∈ instances (w.log ++ turn.emitted.map (Prod.mk i)), found.value = value := by
    intro result hends value hvalue
    obtain rfl := Option.mem_toList.mp hvalue
    obtain ⟨found, hmem, heq, -⟩ := h.result hends.returning_of_some
    exact ⟨found, by simp [hmem], heq⟩
  cases heffect with
  | still | refuse | advance | lock | unlock | prepare | enroll | take => exact hold
  | publish => simpa using hold
  | leave hends | leaveLast hends =>
    intro value hvalue
    rcases List.mem_append.mp hvalue with hbefore | hresult
    · exact hold value hbefore
    · exact hnew hends value hresult

end Step

/-- A move keeps the invariant of its own task and of all others. -/
theorem Sound.step {w : World Nat ScopeContext Task Entry} (h : Sound lifetime w) (i : Nat)
    (event : Event) : Sound lifetime ((resolutions lifetime).step w (i, event)) := by
  have hlocked : (w.locals i).phase = .locked → lifetime (w.locals i).typeId = .scoped := by
    intro hphase
    have hat := (h.tasks i).phase
    simp only [AtPhase, hphase] at hat
    exact hat.2.2
  have heffect : Effect lifetime i w.shared (w.locals i)
      ((resolutions lifetime).act i event w.shared (w.locals i)) :=
    act_effect i event w.shared (w.locals i) h.stage hlocked
  have hdrained : w.shared.cleanup = .drained → ∀ j, (w.locals j).phase.admitted = false :=
    fun hdrained j => h.counted.none (h.stage.empty (.inl hdrained)) j
  refine ⟨heffect.stage h.stage, h.counted.step _ i event heffect.counted, heffect.history h,
    heffect.live h, heffect.returned h, fun j => ?_⟩
  rw [Machine.step_shared, Machine.step_log, instances_append]
  obtain rfl | hj := eq_or_ne j i
  · rw [Machine.step_locals_self]
    exact heffect.own (h.tasks j) (fun hadmitted => (h.live (h.open_of_admitted hadmitted)).1)
      h.returned (fun hcleanup => hdrained hcleanup j)
  · rw [Machine.step_locals_other _ w i j event hj]
    refine heffect.rely (Ne.symm hj) (h.tasks i) (h.tasks j)
      (fun hcleanup => hdrained hcleanup j) ?_
    intro hlast hadmitted
    have hpos := h.counted.pos hadmitted
    exact h.counted.only (by omega) hadmitted hj

theorem sound_run (moves : List (Nat × Event)) :
    Sound lifetime ((resolutions lifetime).run Scope.initial moves) :=
  (resolutions lifetime).run_induct .initial (fun _ i event h => h.step i event) moves

/-- The resolutions of a scope, under any schedule and with any factories. Those of a scoped type
return one instance. When the list for disposal is taken it has every instance published exactly
once, with an instance before those that its factory was given, and nothing happens in the scope
after that: no instance is published and no resolution is admitted. -/
theorem scope_resolutions_disposed (lifetime : TypeId → ServiceLifetime)
    (moves : List (Nat × Event)) :
    let log := ((resolutions lifetime).run initial moves).log
    (∀ i j typeId a b, lifetime typeId = .scoped → (i, Entry.returned typeId a) ∈ log →
      (j, Entry.returned typeId b) ∈ log → a = b) ∧
    ∀ before c list after, log = before ++ (c, Entry.taken list) :: after →
      (list.map ScopedInstance.value).Nodup ∧
      (∀ made, made ∈ list ↔ ∃ i resolved, (i, Entry.published made resolved) ∈ log) ∧
      (∀ i made resolved value, (i, Entry.published made resolved) ∈ log → value ∈ resolved →
        ∃ first rest found, list = first ++ made :: rest ∧ found ∈ rest ∧ found.value = value) ∧
      after = [] := by
  intro log
  have h : History lifetime log := (sound_run moves).history
  refine ⟨?_, ?_⟩
  · intro i j typeId a b hscoped ha hb
    obtain ⟨first, hfirst, rfl, horigin⟩ := h.results i typeId a ha
    obtain ⟨second, hsecond, rfl, horigin'⟩ := h.results j typeId b hb
    obtain ⟨hkind, htype⟩ := horigin hscoped
    obtain ⟨hkind', htype'⟩ := horigin' hscoped
    rw [h.onePerType first hfirst second hsecond hkind hkind' (htype.trans htype'.symm)]
  · intro before c list after hlog
    obtain ⟨hlist, rfl⟩ := h.last before c list after hlog
    have hinstances : instances log = instances before := by
      rw [hlog, instances_append, instances_taken, List.append_nil]
    rw [← hinstances] at hlist
    subst hlist
    refine ⟨?_, ?_, ?_, rfl⟩
    · rw [List.map_reverse]
      exact List.nodup_reverse.mpr h.values
    · intro made
      rw [List.mem_reverse, mem_instances]
    · intro i made resolved value hmem hvalue
      have hpublication : (made, resolved) ∈ publications log :=
        List.mem_filterMap.mpr ⟨_, hmem, rfl⟩
      obtain ⟨earlier, later, hsplit⟩ := List.append_of_mem hpublication
      obtain ⟨found, hfound, heq⟩ := h.dependencies earlier made resolved later hsplit value hvalue
      refine ⟨(later.map Prod.fst).reverse, (earlier.map Prod.fst).reverse, found, ?_,
        List.mem_reverse.mpr hfound, heq⟩
      simp [instances, hsplit]

end Lily.Injection.Scope
