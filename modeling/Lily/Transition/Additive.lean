import Lily.Transition.Interleaving
import Mathlib.Algebra.BigOperators.Group.Finset.Basic
import Mathlib.Tactic.Abel

/-!
# Shared totals

Components that only ever add to a shared total, each according to its own state: the total
is the sum of what the components have contributed.
-/

namespace Transition.Machine

variable {ι S L E A M : Type} [DecidableEq ι] [AddCommGroup M] (m : Machine ι S L E A)

/-- If every move changes the total by what it changes of the mover's share, then the total is
the sum of the shares, over any set that contains all movers. -/
theorem run_sum {total : S → M} {share : L → M}
    (hact : ∀ i e s l, total (m.act i e s l).shared + share l = total s + share (m.act i e s l).own)
    (support : Finset ι) {w : World ι S L A}
    (hstart : total w.shared = ∑ i ∈ support, share (w.locals i)) (moves : List (ι × E))
    (hmoves : ∀ move ∈ moves, move.1 ∈ support) :
    total (m.run w moves).shared = ∑ i ∈ support, share ((m.run w moves).locals i) := by
  induction moves generalizing w with
  | nil => exact hstart
  | cons move rest ih =>
    refine ih (w := m.step w move) ?_ fun other hother =>
      hmoves other (List.mem_cons_of_mem _ hother)
    have hmem : move.1 ∈ support := hmoves move List.mem_cons_self
    have hstep := hact move.1 move.2 w.shared (w.locals move.1)
    have hothers : ∑ i ∈ support.erase move.1, share ((m.step w move).locals i) =
        ∑ i ∈ support.erase move.1, share (w.locals i) := by
      refine Finset.sum_congr rfl fun i hi => ?_
      rw [m.step_locals_other w move.1 i move.2 (Finset.ne_of_mem_erase hi)]
    rw [← Finset.add_sum_erase support _ hmem, hothers, m.step_locals_self]
    rw [hstart, ← Finset.add_sum_erase support _ hmem] at hstep
    refine add_right_cancel (b := share (w.locals move.1)) ?_
    rw [m.step_shared, hstep]
    abel

end Transition.Machine
