import Mathlib.Order.Lattice.Nat

/-!
# The budget of a shutdown

The composition root and the queue runtime share one pair of deadlines. Whoever installs
another pair can only shorten it, and what a delivery derives from it stays within it.
Instants and durations are nanoseconds.
-/

namespace Lily.Queue.ShutdownBudget

def deliveryCooperativeCap : Nat := 250 * 10 ^ 6
def deliveryTerminationCap : Nat := 10 ^ 9

structure DeliveryExecutionBudget where
  pipeline : Nat
  hard : Nat
  started : Nat
  pipeline_le : pipeline ≤ hard

namespace DeliveryExecutionBudget

def before (hard now : Nat) : DeliveryExecutionBudget :=
  let reserve := min ((hard - now) / 4) deliveryTerminationCap
  ⟨min (if reserve ≤ hard then hard - reserve else now) hard, hard, now, Nat.min_le_right _ _⟩

variable (caps : List Nat) (budget : DeliveryExecutionBudget)

def cap (hard : Nat) : DeliveryExecutionBudget :=
  let cap := before (min budget.hard hard) budget.started
  { cap with
    pipeline := min budget.pipeline cap.pipeline
    pipeline_le := (Nat.min_le_right _ _).trans cap.pipeline_le }

theorem foldl_cap_le :
    (caps.foldl cap budget).pipeline ≤ budget.pipeline ∧
      (caps.foldl cap budget).hard ≤ budget.hard := by
  induction caps generalizing budget with
  | nil => exact ⟨le_rfl, le_rfl⟩
  | cons hard caps ih =>
    obtain ⟨hpipeline, hhard⟩ := ih (budget.cap hard)
    exact ⟨hpipeline.trans (Nat.min_le_left _ _), hhard.trans (Nat.min_le_left _ _)⟩

end DeliveryExecutionBudget

structure QueueShutdownDeadlines where
  graceful : Nat
  hard : Nat
  graceful_le : graceful ≤ hard

def QueueShutdownDeadlines.before (graceful hard : Nat) : QueueShutdownDeadlines :=
  ⟨min graceful hard, hard, Nat.min_le_right _ _⟩

def QueueShutdownDeadlines.cap (deadlines : QueueShutdownDeadlines) (deadline : Nat) : Nat :=
  min deadline deadlines.hard

/-- What the mutex of the budget holds. The revision and the waiters are left out. -/
abbrev QueueShutdownBudget := Option QueueShutdownDeadlines

namespace QueueShutdownBudget

variable (budget : QueueShutdownBudget) (requestedAt : Nat)

def install (deadlines : QueueShutdownDeadlines) : QueueShutdownBudget :=
  some (match budget with
    | some previous =>
      .before (min previous.graceful deadlines.graceful) (min previous.hard deadlines.hard)
    | none => deadlines)

def cap (deadline : Nat) : Nat :=
  budget.elim deadline (·.cap deadline)

def forcedDeliveryDeadline : Nat :=
  let limit := budget.elim deliveryTerminationCap fun root =>
    min ((root.hard - requestedAt) * 3 / 4) deliveryTerminationCap
  cap budget (requestedAt + limit)

def cooperativeDeadline (requestedAt ownerDeadline : Nat) : Nat :=
  let hard := cap budget ownerDeadline
  min (requestedAt + min ((hard - requestedAt) / 4) deliveryCooperativeCap) hard

theorem foldl_install (first : QueueShutdownDeadlines) (rest : List QueueShutdownDeadlines) :
    (rest.foldl install (some first)).map (·.graceful) =
        some ((rest.map (·.graceful)).foldl min first.graceful) ∧
      (rest.foldl install (some first)).map (·.hard) =
        some ((rest.map (·.hard)).foldl min first.hard) := by
  induction rest generalizing first with
  | nil => exact ⟨rfl, rfl⟩
  | cons next rest ih =>
    -- The pairs are ordered, so the clamp of `before` changes nothing.
    have hclamp : min (min first.graceful next.graceful) (min first.hard next.hard) =
        min first.graceful next.graceful := by
      have hfirst := first.graceful_le
      have hnext := next.graceful_le
      omega
    simpa [install, QueueShutdownDeadlines.before, hclamp] using
      ih (.before (min first.graceful next.graceful) (min first.hard next.hard))

theorem install_comm (first second : QueueShutdownDeadlines) :
    install (install budget first) second = install (install budget second) first := by
  have hfirst := first.graceful_le
  have hsecond := second.graceful_le
  cases budget with
  | none => simp [install, QueueShutdownDeadlines.before, Nat.min_comm]
  | some root =>
    simp only [install, QueueShutdownDeadlines.before, Option.some.injEq,
      QueueShutdownDeadlines.mk.injEq]
    omega

/-- Installations in any order store the least deadlines, no further one extends them, and
neither the budgets of deliveries nor their deadlines leave the root's. -/
theorem shutdown_budget_shortens (installed : List QueueShutdownDeadlines) :
    ((installed.foldl install none).map (·.graceful) = (installed.map (·.graceful)).min? ∧
      (installed.foldl install none).map (·.hard) = (installed.map (·.hard)).min?) ∧
    (∀ other : List QueueShutdownDeadlines, other.Perm installed →
      other.foldl install none = installed.foldl install none) ∧
    (∀ root next : QueueShutdownDeadlines, root.graceful ≤ root.hard ∧
      (∃ root', install (some root) next = some root' ∧
        root'.graceful ≤ root.graceful ∧ root'.hard ≤ root.hard) ∧
      (∀ requestedAt, forcedDeliveryDeadline (some root) requestedAt ≤ root.hard) ∧
      ∀ requestedAt ownerDeadline,
        cooperativeDeadline (some root) requestedAt ownerDeadline ≤ root.hard) ∧
    ∀ (delivery : DeliveryExecutionBudget) (caps : List Nat),
      (caps.foldl .cap delivery).pipeline ≤ (caps.foldl .cap delivery).hard ∧
      (caps.foldl .cap delivery).pipeline ≤ delivery.pipeline ∧
      (caps.foldl .cap delivery).hard ≤ delivery.hard := by
  refine ⟨?_, fun other hperm => hperm.foldl_eq' (fun _ _ _ _ _ => install_comm _ _ _) none,
    fun root next => ⟨root.graceful_le, ⟨_, rfl, (Nat.min_le_left _ _).trans (Nat.min_le_left _ _),
      Nat.min_le_left _ _⟩, fun _ => Nat.min_le_right _ _, fun _ _ =>
      (Nat.min_le_right _ _).trans (Nat.min_le_right _ _)⟩, fun delivery caps =>
    ⟨DeliveryExecutionBudget.pipeline_le _, DeliveryExecutionBudget.foldl_cap_le caps delivery⟩⟩
  cases installed with
  | nil => exact ⟨rfl, rfl⟩
  | cons first rest =>
    rw [List.map_cons, List.map_cons, List.min?_cons', List.min?_cons']
    exact foldl_install first rest

end Lily.Queue.ShutdownBudget.QueueShutdownBudget
