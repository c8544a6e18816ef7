import Lily.Collection.Position

/-!
# Fenced leases with an attempt budget

One unit of work that any number of holders compete for. A holder acquires it for a
term, starts attempts, and ends by finishing the work or by releasing it for a later
time. Every action after the acquisition is fenced: it needs the holder's token to be
the current one, and does not look at the term. The term only decides when somebody
else may take over.

A trace is what one slot goes through. A store of many slots has to show that each of its
statements is an action on each slot it touches.
-/

namespace Lease

variable {τ : Type}

/-- A unit of work that one holder at a time may have, until a deadline. -/
structure Slot (τ : Type) where
  availableAt : Nat
  holder : Option τ
  heldUntil : Option Nat
  attempts : Nat
  finishedAt : Option Nat

structure Bounds where
  maxAttempts : Nat
  term : Nat
  delay : Nat

inductive Action (τ : Type) where
  | acquire (holder : τ)
  | start (holder : τ)
  | finish (holder : τ)
  | release (holder : τ)

def Action.isStart : Action τ → Bool
  | .start _ => true
  | _ => false

def Action.isFinish : Action τ → Bool
  | .finish _ => true
  | _ => false

/-- A slot that has never been touched. -/
def Slot.fresh (now : Nat) : Slot τ := ⟨now, none, none, 0, none⟩

/-- A slot that may be acquired. -/
structure Slot.Free (bounds : Bounds) (now : Nat) (slot : Slot τ) : Prop where
  unfinished : slot.finishedAt = none
  available : slot.availableAt ≤ now
  expired : ∀ limit ∈ slot.heldUntil, limit ≤ now
  budget : slot.attempts < bounds.maxAttempts

/-- Only acquiring asks for a free slot; the other actions ask for the slot's present holder. -/
inductive Step (bounds : Bounds) (now : Nat) : Slot τ → Action τ → Slot τ → Prop
  | acquire {slot : Slot τ} {holder : τ} (free : slot.Free bounds now) :
      Step bounds now slot (.acquire holder)
        { slot with holder := some holder, heldUntil := some (now + bounds.term) }
  | start {slot : Slot τ} {holder : τ} (fence : slot.holder = some holder)
      (unfinished : slot.finishedAt = none) (budget : slot.attempts < bounds.maxAttempts) :
      Step bounds now slot (.start holder)
        { slot with attempts := slot.attempts + 1, heldUntil := some (now + bounds.term) }
  | finish {slot : Slot τ} {holder : τ} (fence : slot.holder = some holder)
      (unfinished : slot.finishedAt = none) (started : 0 < slot.attempts) :
      Step bounds now slot (.finish holder)
        { slot with finishedAt := some now, holder := none, heldUntil := none }
  | release {slot : Slot τ} {holder : τ} {delay : Nat} (fence : slot.holder = some holder)
      (unfinished : slot.finishedAt = none) (started : 0 < slot.attempts)
      (bounded : delay ≤ bounds.delay) :
      Step bounds now slot (.release holder)
        { slot with availableAt := now + delay, holder := none, heldUntil := none }

/-- The history of one slot up to a time. -/
inductive Trace (bounds : Bounds) : Nat → Slot τ → List (Action τ) → Prop
  | fresh (now : Nat) : Trace bounds now (Slot.fresh now) []
  | elapse {now later : Nat} {slot : Slot τ} {actions : List (Action τ)}
      (h : Trace bounds now slot actions) (hle : now ≤ later) : Trace bounds later slot actions
  | act {now : Nat} {slot slot' : Slot τ} {actions : List (Action τ)} {action : Action τ}
      (h : Trace bounds now slot actions) (hstep : Step bounds now slot action slot') :
      Trace bounds now slot' (actions ++ [action])

namespace Trace

variable {bounds : Bounds} {now : Nat} {slot : Slot τ} {actions : List (Action τ)}
  (h : Trace bounds now slot actions)

include h

theorem attempts_eq : actions.countP Action.isStart = slot.attempts := by
  induction h with
  | fresh now => rfl
  | elapse h hle ih => exact ih
  | act h hstep ih =>
    rw [List.countP_append, ih]
    cases hstep <;> simp [Action.isStart]

theorem attempts_le : slot.attempts ≤ bounds.maxAttempts := by
  induction h with
  | fresh now => exact Nat.zero_le _
  | elapse h hle ih => exact ih
  | act h hstep ih =>
    cases hstep with
    | start fence unfinished budget => exact budget
    | _ => exact ih

theorem finished_iff : slot.finishedAt ≠ none ↔ ∃ action ∈ actions, action.isFinish = true := by
  induction h with
  | fresh now => simp [Slot.fresh]
  | elapse h hle ih => exact ih
  | act h hstep ih =>
    simp only [List.mem_append, List.mem_singleton, or_and_right, exists_or, exists_eq_left, ← ih]
    cases hstep <;> simp [Action.isFinish, *]

/-- A finished slot has no further history. -/
theorem finish_last {before after : List (Action τ)} {action : Action τ}
    (hsplit : actions = before ++ action :: after)
    (hfinish : action.isFinish = true) : after = [] := by
  induction h generalizing after with
  | fresh now => simp at hsplit
  | elapse h hle ih => exact ih hsplit
  | @act now slot slot' actions last h hstep ih =>
    rcases Position.concat_split hsplit with ⟨rest, hactions, -⟩ | ⟨-, -, hnil⟩
    · -- The slot was finished before its last action, which no action allows.
      have hfinished : slot.finishedAt ≠ none :=
        h.finished_iff.mpr ⟨action, by simp [hactions], hfinish⟩
      cases hstep with
      | acquire free => exact absurd free.unfinished hfinished
      | start fence unfinished budget => exact absurd unfinished hfinished
      | finish fence unfinished started => exact absurd unfinished hfinished
      | release fence unfinished started bounded => exact absurd unfinished hfinished
    · exact hnil

/-- Nothing is held or put off for longer than the bounds. -/
theorem bounded :
    slot.availableAt ≤ now + bounds.delay ∧
      ∀ limit ∈ slot.heldUntil, limit ≤ now + bounds.term := by
  induction h with
  | fresh now => simp [Slot.fresh]
  | elapse h hle ih =>
    obtain ⟨havailable, hheld⟩ := ih
    refine ⟨by omega, fun limit hlimit => ?_⟩
    have hterm := hheld limit hlimit
    omega
  | act h hstep ih =>
    cases hstep with
    | acquire free => exact ⟨ih.1, by simp⟩
    | start fence unfinished budget => exact ⟨ih.1, by simp⟩
    | finish fence unfinished started => exact ⟨ih.1, by simp⟩
    | release fence unfinished started hdelay => exact ⟨by simpa using hdelay, by simp⟩

/-- An unfinished slot with budget left becomes free again, whoever held it. -/
theorem free_later (hunfinished : slot.finishedAt = none)
    (hbudget : slot.attempts < bounds.maxAttempts) {later : Nat}
    (hlater : now + max bounds.term bounds.delay ≤ later) : slot.Free bounds later := by
  obtain ⟨havailable, hheld⟩ := h.bounded
  refine ⟨hunfinished, by omega, fun limit hlimit => ?_, hbudget⟩
  have hterm := hheld limit hlimit
  omega

end Trace

end Lease
