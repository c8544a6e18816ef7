import Lily.Injection.Scope.Context

/-!
# The moves of a scope

`Effect` says what a move can do, and `act_effect` that there is nothing else.
-/

namespace Lily.Injection.Scope

open Transition

variable {lifetime : TypeId → ServiceLifetime}

/-- A step that leaves the scope as it is. -/
inductive Advance (lifetime : TypeId → ServiceLifetime) (s : ScopeContext) (typeId : TypeId) :
    Phase → Phase → Prop
  | hit {phase : Phase} {found : ScopedInstance} (hphase : phase = .entered ∨ phase = .locked)
      (hscoped : lifetime typeId = .scoped) (hfound : s.scopedInstances typeId = some found) :
      Advance lifetime s typeId phase (.returning found.value)
  | miss (hscoped : lifetime typeId = .scoped) : Advance lifetime s typeId .entered .uncached
  | direct (htransient : lifetime typeId ≠ .scoped) :
      Advance lifetime s typeId .entered (.building [])
  | request : Advance lifetime s typeId .uncached .waiting
  | create (hfree : s.scopedInstances typeId = none) :
      Advance lifetime s typeId .locked (.building [])
  | resolve {resolved : List Nat} {value : Nat} (hvalue : value ∈ s.returned) :
      Advance lifetime s typeId (.building resolved) (.building (resolved ++ [value]))
  | finish {resolved : List Nat} : Advance lifetime s typeId (.building resolved) (.built resolved)
  | interrupt {resolved : List Nat} :
      Advance lifetime s typeId (.building resolved) (.interrupted resolved)
  | abandon {resolved : List Nat} : Advance lifetime s typeId (.building resolved) .failing
  | cancel : Advance lifetime s typeId .waiting .failing

/-- The instance that a resolution publishes, and where it goes on. -/
inductive Publishes (lifetime : TypeId → ServiceLifetime) (i : Nat) (typeId : TypeId)
    (resolved : List Nat) : Phase → ScopedInstanceKind → Phase → Prop
  | scopedService (h : lifetime typeId = .scoped) :
      Publishes lifetime i typeId resolved (.built resolved) .scopedService (.returning i)
  | transientService (h : lifetime typeId ≠ .scoped) :
      Publishes lifetime i typeId resolved (.built resolved) .transientService (.returning i)
  | partialInitialization :
      Publishes lifetime i typeId resolved (.interrupted resolved) .partialInitialization .failing

/-- What a resolution returns at its end, if it returns. -/
inductive Ends : Phase → Option Nat → Prop
  | returning {value : Nat} : Ends (.returning value) (some value)
  | failing : Ends .failing none

/-- How far the cleanup of a scope is, by its state. -/
structure Stage (s : ScopeContext) : Prop where
  opened : s.cleanup = .absent ↔ s.state = .opened
  closed : s.cleanup = .detached ↔ s.state = .closed
  empty : s.cleanup = .drained ∨ s.cleanup = .detached → s.inFlightResolutions = 0
  handoff : s.resolutionDrainHandoff = true → s.cleanup = .handedOff

def publish (s : ScopeContext) (made : ScopedInstance) : ScopeContext :=
  if made.kind = .scopedService then s.cacheAny made else s.track made

/-- The moves. -/
inductive Effect (lifetime : TypeId → ServiceLifetime) (i : Nat) (s : ScopeContext) (task : Task) :
    Turn ScopeContext Task Entry → Prop
  | still : Effect lifetime i s task ⟨s, task, []⟩
  | refuse (hidle : task.phase = .idle) :
      Effect lifetime i s task ⟨s, { task with phase := .done }, []⟩
  | enroll {typeId : TypeId} (hidle : task.phase = .idle) (hopened : s.state = .opened) :
      Effect lifetime i s task
        ⟨{ s with inFlightResolutions := s.inFlightResolutions + 1 },
          { task with typeId := typeId, phase := .entered }, [.admitted typeId]⟩
  | advance {next : Phase} (h : Advance lifetime s task.typeId task.phase next) :
      Effect lifetime i s task ⟨s, { task with phase := next }, []⟩
  | lock (hwaiting : task.phase = .waiting) (hfree : s.creationLocks task.typeId = none) :
      Effect lifetime i s task
        ⟨{ s with creationLocks := Function.update s.creationLocks task.typeId (some i) },
          { task with phase := .locked, holding := true }, []⟩
  | publish {resolved : List Nat} {kind : ScopedInstanceKind} {next : Phase}
      (h : Publishes lifetime i task.typeId resolved task.phase kind next) :
      Effect lifetime i s task
        ⟨publish s ⟨task.typeId, kind, i⟩, { task with phase := next },
          [.published ⟨task.typeId, kind, i⟩ resolved]⟩
  | unlock {value : Option Nat} (hends : Ends task.phase value) (hholding : task.holding = true) :
      Effect lifetime i s task
        ⟨{ s with creationLocks := Function.update s.creationLocks task.typeId none },
          { task with holding := false }, []⟩
  | leave {value : Option Nat} (hends : Ends task.phase value) (hholding : task.holding = false)
      (hstays : ¬(s.inFlightResolutions - 1 = 0 ∧ s.resolutionDrainHandoff = true)) :
      Effect lifetime i s task
        ⟨{ s with
            inFlightResolutions := s.inFlightResolutions - 1
            returned := s.returned ++ value.toList },
          { task with phase := .done }, (value.map (Entry.returned task.typeId)).toList⟩
  | leaveLast {value : Option Nat} (hends : Ends task.phase value) (hholding : task.holding = false)
      (hlast : s.inFlightResolutions - 1 = 0) (hhandoff : s.resolutionDrainHandoff = true) :
      Effect lifetime i s task
        ⟨{ s.detach with
            inFlightResolutions := s.inFlightResolutions - 1
            returned := s.returned ++ value.toList },
          { task with phase := .done },
          (value.map (Entry.returned task.typeId)).toList ++ [.taken s.instancesForDisposal]⟩
  | prepare {state : ScopeState} {cleanup : Cleanup} {handoff : Bool}
      (hstate : state = .closed ↔ s.state = .closed)
      (hstage : Stage { s with
        state := state, cleanup := cleanup, resolutionDrainHandoff := handoff }) :
      Effect lifetime i s task
        ⟨{ s with state := state, cleanup := cleanup, resolutionDrainHandoff := handoff }, task, []⟩
  | take (hdrained : s.cleanup = .drained) :
      Effect lifetime i s task ⟨s.detach, task, [.taken s.instancesForDisposal]⟩

namespace Stage

variable {s : ScopeContext} {i : Nat} {task : Task}

theorem closing (h : Stage s) (hcleanup : s.cleanup = .waiting) : s.state = .closing := by
  have hopened := h.opened
  have hclosed := h.closed
  rw [hcleanup] at hopened hclosed
  cases hstate : s.state <;> simp_all

theorem beginCleanup (h : Stage s) (habsent : s.cleanup = .absent) :
    Effect lifetime i s task ⟨{ s.beginClosing with cleanup := .waiting }, task, []⟩ := by
  have hopened : s.state = .opened := h.opened.mp habsent
  have hhandoff : s.resolutionDrainHandoff = false := by
    rw [Bool.eq_false_iff]
    intro hset
    cases habsent.symm.trans (h.handoff hset)
  rw [ScopeContext.beginClosing, if_pos hopened]
  exact .prepare (by simp [hopened]) ⟨by simp, by simp, by simp, by simp [hhandoff]⟩

theorem observeDrained (h : Stage s) (hwaiting : s.cleanup = .waiting)
    (hzero : s.inFlightResolutions = 0) :
    Effect lifetime i s task ⟨{ s with cleanup := .drained }, task, []⟩ := by
  have hhandoff : s.resolutionDrainHandoff = false := by
    rw [Bool.eq_false_iff]
    intro hset
    cases hwaiting.symm.trans (h.handoff hset)
  exact .prepare Iff.rfl ⟨by simp [h.closing hwaiting], by simp [h.closing hwaiting],
    fun _ => hzero, by simp [hhandoff]⟩

theorem handOff (h : Stage s) (hwaiting : s.cleanup = .waiting) :
    Effect lifetime i s task
      ⟨{ s with cleanup := .handedOff, resolutionDrainHandoff := true }, task, []⟩ :=
  .prepare Iff.rfl ⟨by simp [h.closing hwaiting], by simp [h.closing hwaiting], by simp,
    fun _ => rfl⟩

end Stage

theorem release_effect {i : Nat} {s : ScopeContext} {task : Task} {value : Option Nat}
    (hends : Ends task.phase value) : Effect lifetime i s task (release s task value) := by
  unfold release
  split
  next hholding => exact .unlock hends hholding
  next hholding =>
    have hholding : task.holding = false := Bool.eq_false_iff.mpr hholding
    by_cases hlast : s.inFlightResolutions - 1 = 0 ∧ s.resolutionDrainHandoff = true
    · simp only [ScopeContext.leave, if_pos hlast]
      exact .leaveLast hends hholding hlast.1 hlast.2
    · simp only [ScopeContext.leave, if_neg hlast, Option.map_none, Option.toList_none,
        List.append_nil]
      exact .leave hends hholding hlast

theorem proceed_effect (i : Nat) (s : ScopeContext) (task : Task) (hscoped : task.phase = .locked →
    lifetime task.typeId = .scoped) : Effect lifetime i s task (proceed lifetime i s task) := by
  fun_cases proceed lifetime i s task with
  | case1 hphase hlifetime found hfound => exact .advance (.hit (.inl hphase) hlifetime hfound)
  | case2 hphase hlifetime => exact .advance (hphase ▸ .miss hlifetime)
  | case3 hphase hlifetime => exact .advance (hphase ▸ .direct hlifetime)
  | case4 hphase => exact .advance (hphase ▸ .request)
  | case5 hphase found hfound => exact .advance (.hit (.inr hphase) (hscoped hphase) hfound)
  | case6 hphase hfree => exact .advance (hphase ▸ .create hfree)
  | case7 publish resolved hphase =>
    by_cases hlifetime : lifetime task.typeId = .scoped
    · simp only [if_pos hlifetime]
      have hpublishes : Publishes lifetime i task.typeId resolved task.phase .scopedService
          (.returning i) := hphase ▸ .scopedService hlifetime
      exact .publish hpublishes
    · simp only [if_neg hlifetime]
      exact .publish (hphase ▸ .transientService hlifetime)
  | case8 publish resolved hphase => exact .publish (hphase ▸ .partialInitialization)
  | case9 value hphase => exact release_effect (hphase ▸ .returning)
  | case10 hphase => exact release_effect (hphase ▸ .failing)
  | case11 => exact .still

/-- Every move has one of the effects. -/
theorem act_effect (i : Nat) (event : Event) (s : ScopeContext) (task : Task)
    (hstage : Stage s) (hscoped : task.phase = .locked → lifetime task.typeId = .scoped) :
    Effect lifetime i s task (act lifetime i event s task) := by
  fun_cases act lifetime i event s task with
  | case2 typeId hphase _ hopened => exact .enroll hphase hopened
  | case3 typeId hphase => exact .refuse hphase
  | case4 => exact proceed_effect i s task hscoped
  | case5 hphase hfree => exact .lock hphase (Option.isNone_iff_eq_none.mp hfree)
  | case7 value resolved hphase hvalue => exact .advance (hphase ▸ .resolve hvalue)
  | case9 resolved hphase => exact .advance (hphase ▸ .finish)
  | case10 resolved hphase => exact .advance (hphase ▸ .abandon)
  | case11 initializing resolved hphase =>
    cases initializing with
    | false => exact .advance (hphase ▸ .abandon)
    | true => exact .advance (hphase ▸ .interrupt)
  | case12 _ hphase => exact .advance (hphase ▸ .cancel)
  | case13 habsent => exact hstage.beginCleanup habsent
  | case15 h => exact hstage.observeDrained h.1 h.2
  | case17 hdrained => exact .take hdrained
  | case19 hwaiting hzero => exact hstage.observeDrained hwaiting hzero
  | case20 hwaiting => exact hstage.handOff hwaiting
  | _ => exact .still

end Lily.Injection.Scope
