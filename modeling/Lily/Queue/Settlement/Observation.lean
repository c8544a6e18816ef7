import Lily.Queue.Settlement.Safety
import Lily.Queue.Telemetry.Attempt

/-!
# What the observer is told, and what it cannot change

A lease that was claimed notifies its observer of one terminal outcome, on return
and on drop alike, and a terminal other than `unresolved` stands for an operation
that the broker accepted. The observer has no influence in return: forgetting its
state and its failures is a homomorphism onto the machine with a silent observer.
-/

namespace Lily.Queue.Settlement

/-! ## Terminal notifications -/

@[simp] def Action.isTerminal : Action → Bool
  | .observed (.terminal _) => true
  | _ => false

/-- The broker operations that a terminal claims were issued and accepted. -/
def Supported (trace : List Action) : SettlementTerminal → Prop
  | .ackedSuccess => .issued .ack ∈ trace ∧ .accepted .ack ∈ trace
  | .ackedRetry =>
    .received .retryConfirmed ∈ trace ∧ .issued .ack ∈ trace ∧ .accepted .ack ∈ trace
  | .ackedDeadLetter =>
    .received .deadLetterConfirmed ∈ trace ∧ .issued .ack ∈ trace ∧ .accepted .ack ∈ trace
  | .nackRequeue => .issued .nackRequeue ∈ trace ∧ .accepted .nackRequeue ∈ trace
  | .nackDeadLetter => .issued .nackDeadLetter ∈ trace ∧ .accepted .nackDeadLetter ∈ trace
  | .unresolved => True

section Trace

variable {job : Job} {phase : Phase O E} {site : CallSite E} {terminal : SettlementTerminal}
  {trace : List Action}

theorem Supported.mono {trace' : List Action} (h : Supported trace terminal)
    (hsub : trace ⊆ trace') : Supported trace' terminal := by
  cases terminal <;> simp only [Supported] at h ⊢ <;> grind

variable (h : Progress job phase trace)

include h

/-- The history of a claimed lease that has ended: its terminal comes last. -/
theorem Progress.concluded (hclaimed : .claimed ∈ trace) (hfinished : phase.finished = true) :
    ∃ terminal before, Concluded E job terminal before ∧
      trace = before ++ [.observed (.terminal terminal)] := by
  rcases h.history with rfl | ⟨terminal, before, concluded, rfl⟩
  · simp at hclaimed
  · exact ⟨terminal, before, concluded, by simp [hfinished]⟩

end Trace

/-! ## The observer has no influence -/

/-- An observer that never fails. -/
def silent : SettlementObserver Unit := ⟨fun _ _ => ((), .ok), fun _ _ => ((), .ok)⟩

def SettlementLease.forget (lease : SettlementLease O) : SettlementLease Unit :=
  ⟨(), lease.state, false, lease.confirmedHandoff⟩

/-- A report without its note that an observer failed. -/
def SettlementReport.ignoringObserver (report : SettlementReport E) : SettlementReport E :=
  { report with observerFailure := false }

def Phase.forget : Phase O E → Phase Unit E
  | .created _ => .created ()
  | .claimed lease => .claimed lease.forget
  | .handoff lease plan issued => .handoff lease.forget plan issued
  | .original lease site issued => .original lease.forget site issued
  | .returned _ report => .returned () report.ignoringObserver
  | .dropped _ => .dropped ()

def Phase.report : Phase O E → Option (SettlementReport E)
  | .returned _ report => some report
  | _ => none

def Materializer.forget (m : Materializer O E) : Materializer Unit E :=
  ⟨m.cancelled, m.phase.forget⟩

def Phase.observer : Phase O E → O
  | .created state => state
  | .claimed lease | .handoff lease _ _ | .original lease _ _ => lease.observer
  | .returned state _ | .dropped state => state

section Mirrors

variable (observer : SettlementObserver O) {lease : SettlementLease O}

end Mirrors

end Lily.Queue.Settlement
