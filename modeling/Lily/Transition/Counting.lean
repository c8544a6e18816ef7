import Lily.Collection.Tally
import Lily.Transition.Interleaving

/-!
# Shared counters of components

A counter in the shared state that says how many components are in some condition. It does so
along every run if each move changes it by what the move changes of the mover's condition.
-/

namespace Transition.Machine

open Collection

variable {ι S L E A : Type} {count : S → Nat} {p : L → Bool} {w : World ι S L A}

/-- The counter is the number of the components in the condition. -/
def Counted (count : S → Nat) (p : L → Bool) (w : World ι S L A) : Prop :=
  Tally (fun i => p (w.locals i) = true) (count w.shared)

theorem Counted.step [DecidableEq ι] (m : Machine ι S L E A) (h : Counted count p w) (i : ι) (e : E)
    (hact : count (m.act i e w.shared (w.locals i)).shared =
      match p (w.locals i), p (m.act i e w.shared (w.locals i)).own with
      | false, true => count w.shared + 1
      | true, false => count w.shared - 1
      | _, _ => count w.shared) : Counted count p (m.step w (i, e)) := by
  have hlocals : ∀ j, p ((m.step w (i, e)).locals j) =
      if j = i then p (m.act i e w.shared (w.locals i)).own else p (w.locals j) := by
    intro j
    split
    next hj => rw [hj, m.step_locals_self]
    next hj => rw [m.step_locals_other w i j e hj]
  unfold Counted
  rw [m.step_shared, hact]
  split
  next hbefore hafter =>
    refine Tally.insert h (a := i) (by simp [hbefore]) fun j => ?_
    by_cases hj : j = i <;> simp [hlocals, hj, hafter]
  next hbefore hafter =>
    refine Tally.erase h (a := i) hbefore fun j => ?_
    by_cases hj : j = i <;> simp [hlocals, hj, hafter]
  next hgain hloss =>
    have hsame : p (m.act i e w.shared (w.locals i)).own = p (w.locals i) := by
      cases hbefore : p (w.locals i) <;>
        cases hafter : p (m.act i e w.shared (w.locals i)).own
      · rfl
      · exact absurd hafter (hgain hbefore)
      · exact absurd hafter (hloss hbefore)
      · rfl
    refine Tally.congr h fun j => ?_
    by_cases hj : j = i <;> simp [hlocals, hj, hsame]

theorem Counted.pos (h : Counted count p w) {i : ι} (hi : p (w.locals i) = true) :
    0 < count w.shared :=
  Tally.pos h hi

theorem Counted.none (h : Counted count p w) (hzero : count w.shared = 0) (i : ι) :
    p (w.locals i) = false := by
  rw [Counted, hzero] at h
  exact Bool.eq_false_iff.mpr (h.none i)

theorem Counted.only (h : Counted count p w) (hone : count w.shared = 1) {i j : ι}
    (hi : p (w.locals i) = true) (hj : j ≠ i) : p (w.locals j) = false := by
  rw [Counted, hone] at h
  exact Bool.eq_false_iff.mpr fun hp => hj (h.only hi hp)

end Transition.Machine
