import Mathlib.Algebra.Order.Ring.Int

/-!
# State machines that log what they do

One state, one log, and events that any party of the system may cause at any time. Every list of
events is a run, so a statement about all runs is about every interleaving of the parties.
-/

namespace Transition

/-- How the state answers an event, and the actions that it adds to the log. -/
structure Reactive (S E A : Type) where
  act : E → S → S × List A

namespace Reactive

variable {S E A : Type} (m : Reactive S E A)

def step (w : S × List A) (event : E) : S × List A :=
  ((m.act event w.1).1, w.2 ++ (m.act event w.1).2)

def run (w : S × List A) (events : List E) : S × List A := events.foldl m.step w

theorem run_append (w : S × List A) (events later : List E) :
    m.run w (events ++ later) = m.run (m.run w events) later :=
  List.foldl_append

variable {P : S → List A → Prop} {C : S → E → Prop} {s : S} {log : List A}

/-- An invariant of single events is an invariant of runs. -/
theorem run_induct (start : P s log)
    (next : ∀ s log event, P s log → P (m.act event s).1 (log ++ (m.act event s).2))
    (events : List E) : P (m.run (s, log) events).1 (m.run (s, log) events).2 := by
  induction events generalizing s log with
  | nil => exact start
  | cons event rest ih => exact ih (next s log event start)

/-- Every event meets the condition in the state it finds. -/
def Meets (C : S → E → Prop) : S → List E → Prop
  | _, [] => True
  | s, event :: rest => C s event ∧ Meets C (m.act event s).1 rest

theorem run_induct_of_meets (start : P s log)
    (next : ∀ s log event, C s event → P s log → P (m.act event s).1 (log ++ (m.act event s).2))
    (events : List E) (meets : m.Meets C s events) :
    P (m.run (s, log) events).1 (m.run (s, log) events).2 := by
  induction events generalizing s log with
  | nil => exact start
  | cons event rest ih => exact ih (next s log event meets.1 start) meets.2

/-- Two conditions that agree on the states of a run. -/
theorem meets_congr {P : S → Prop} {C D : S → E → Prop}
    (next : ∀ s event, P s → P (m.act event s).1) (agree : ∀ s event, P s → (C s event ↔ D s event))
    {s : S} (start : P s) (events : List E) : m.Meets C s events ↔ m.Meets D s events := by
  induction events generalizing s with
  | nil => rfl
  | cons event rest ih => exact and_congr (agree s event start) (ih (next s event start))

end Reactive

end Transition
