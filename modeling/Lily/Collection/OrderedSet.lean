import Mathlib.Data.List.Dedup
import Mathlib.Data.List.Sort
import Mathlib.Algebra.Order.Ring.Int

/-!
# Ordered sets as increasing lists

The elements of a list, in increasing order and without repetition. This is the
sequence in which an ordered tree set lists the values inserted into it. Two
insertion sequences with the same elements give the same list, whatever their
order and multiplicities.
-/

namespace Collection

variable {α : Type} [LinearOrder α]

variable (values : List α)

/-- The distinct elements of a list in increasing order. -/
def orderedSet : List α := values.dedup.insertionSort (· ≤ ·)

@[simp] theorem mem_orderedSet {values : List α} {a : α} : a ∈ orderedSet values ↔ a ∈ values := by
  simp [orderedSet]

theorem orderedSet_nodup : (orderedSet values).Nodup :=
  ((List.perm_insertionSort _ _).nodup_iff).mpr (List.nodup_dedup values)

theorem orderedSet_pairwise : (orderedSet values).Pairwise (· ≤ ·) :=
  List.pairwise_insertionSort _ _

/-- No element twice and in order: each is less than the next. -/
theorem orderedSet_pairwise_lt : (orderedSet values).Pairwise (· < ·) := by
  have hne := orderedSet_nodup values
  exact (orderedSet_pairwise values).imp₂ (fun _ _ hle hne => lt_of_le_of_ne hle hne) hne

theorem length_orderedSet_le : (orderedSet values).length ≤ values.length := by
  rw [orderedSet, List.length_insertionSort]
  exact (List.dedup_sublist values).length_le

theorem orderedSet_congr {values values' : List α} (h : ∀ a, a ∈ values ↔ a ∈ values') :
    orderedSet values = orderedSet values' := by
  apply List.Perm.eq_of_pairwise' (orderedSet_pairwise values) (orderedSet_pairwise values')
  rw [List.perm_ext_iff_of_nodup (orderedSet_nodup values) (orderedSet_nodup values')]
  intro a
  simp only [mem_orderedSet, h]

end Collection
