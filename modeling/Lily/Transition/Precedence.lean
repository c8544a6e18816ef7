import Mathlib.Data.List.Induction
import Mathlib.Algebra.Order.Ring.Int

/-!
# What a log says about what came before

A log is justified if each of its actions had, in the part of the log before it, what it needs.
A log grows at its end, so a machine keeps this if every action it adds is justified by the log
it is added to.
-/

namespace Transition

variable {A : Type} {P Q : List A → A → Prop} {log : List A} {a : A}

/-- `P before a` holds at every position of the log. -/
def Justified (P : List A → A → Prop) (log : List A) : Prop :=
  ∀ before a after, log = before ++ a :: after → P before a

namespace Justified

theorem nil : Justified P [] := by
  intro before a after h
  exact absurd h.symm (by simp)

@[grind ←] theorem snoc (h : Justified P log) (ha : P log a) : Justified P (log ++ [a]) := by
  intro before b after hsplit
  rcases List.eq_nil_or_concat after with rfl | ⟨rest, last, rfl⟩
  · obtain ⟨rfl, hb⟩ := List.append_inj' hsplit rfl
    rw [← List.singleton_inj.mp hb]
    exact ha
  · have hlog : log ++ [a] = (before ++ b :: rest) ++ [last] := by
      rw [hsplit]
      simp
    exact h before b rest (List.append_inj' hlog rfl).1

/-- A log that grows by several actions, each justified by what the others left. -/
theorem append (h : Justified P log) {added : List A}
    (hadded : ∀ before a after, added = before ++ a :: after → P (log ++ before) a) :
    Justified P (log ++ added) := by
  induction added generalizing log with
  | nil => rwa [List.append_nil]
  | cons a rest ih =>
    have hfirst : P log a := by simpa using hadded [] a rest rfl
    have hrest : Justified P ((log ++ [a]) ++ rest) := by
      apply ih (h.snoc hfirst)
      intro before b after hsplit
      simpa using hadded (a :: before) b after (by rw [hsplit]; rfl)
    simpa using hrest

theorem mem (h : Justified P log) (ha : a ∈ log) : ∃ before, P before a ∧ before ⊆ log := by
  obtain ⟨before, after, rfl⟩ := List.append_of_mem ha
  exact ⟨before, h before a after rfl, List.subset_append_left before (a :: after)⟩

end Justified

end Transition
