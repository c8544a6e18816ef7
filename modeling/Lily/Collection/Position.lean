import Mathlib.Data.List.Basic
import Mathlib.Algebra.Order.Ring.Int

/-!
# Positions in a list that grew
-/

namespace Position

variable {α : Type}

/-- An element of an appended list lies in the first part or in the second. -/
theorem append_split {xs added before after : List α} {x : α}
    (h : xs ++ added = before ++ x :: after) :
    (∃ rest, xs = before ++ x :: rest) ∨ ∃ middle, before = xs ++ middle ∧
      added = middle ++ x :: after := by
  rcases List.append_eq_append_iff.mp h with ⟨middle, hbefore, hadded⟩ | ⟨rest, hxs, hafter⟩
  · exact .inr ⟨middle, hbefore, hadded⟩
  · cases rest with
    | nil => exact .inr ⟨[], by simpa using hxs.symm, hafter.symm⟩
    | cons first rest =>
      obtain ⟨rfl, -⟩ := List.cons.inj hafter
      exact .inl ⟨rest, hxs⟩

/-- An element of a list with one more is one of the old ones or the last. -/
theorem concat_split {xs before after : List α} {last x : α}
    (h : xs ++ [last] = before ++ x :: after) :
    (∃ rest, xs = before ++ x :: rest ∧ after = rest ++ [last]) ∨
      before = xs ∧ x = last ∧ after = [] := by
  rcases List.eq_nil_or_concat after with rfl | ⟨rest, final, rfl⟩
  · obtain ⟨rfl, hlast⟩ := List.append_inj' h rfl
    exact .inr ⟨rfl, (List.singleton_inj.mp hlast).symm, rfl⟩
  · have hconcat : xs ++ [last] = (before ++ x :: rest) ++ [final] := by simpa using h
    obtain ⟨rfl, hlast⟩ := List.append_inj' hconcat rfl
    exact .inl ⟨rest, rfl, by rw [List.singleton_inj.mp hlast, List.concat_eq_append]⟩

/-- An element that never comes after itself is there once. -/
theorem count_le_one [DecidableEq α] {a : α} {xs : List α}
    (h : xs.Pairwise fun x y => x = a → y ≠ a) : xs.count a ≤ 1 := by
  induction h with
  | nil => exact Nat.zero_le _
  | @cons x xs hx _ ih =>
    by_cases heq : x = a
    · have hnone : xs.count a = 0 := List.count_eq_zero.mpr fun hmem => hx a hmem heq rfl
      have hone : (x :: xs).count a = 1 := by rw [heq, List.count_cons_self, hnone]
      omega
    · rwa [List.count_cons_of_ne heq]

end Position
