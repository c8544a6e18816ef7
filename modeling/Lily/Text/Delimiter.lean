import Mathlib.Data.List.Infix
import Mathlib.Algebra.Order.Ring.Int

/-!
# Cutting a list at a delimiter
-/

namespace Delimiter

variable {α : Type} [DecidableEq α]

/-- What stands before the first occurrence of the delimiter, and what stands after it. -/
def cut (delimiter : List α) : List α → Option (List α × List α)
  | [] => if delimiter = [] then some ([], []) else none
  | a :: l =>
    if delimiter <+: a :: l then some ([], (a :: l).drop delimiter.length)
    else (cut delimiter l).map fun r => (a :: r.1, r.2)

section Prefix

omit [DecidableEq α]

variable {c : α} {d a b : List α}

/-- A delimiter that starts with an element it does not repeat cannot begin before its own first
element and end after it. -/
theorem prefix_of_prefix_append (hc : c ∉ d) (h : d <+: a ++ (c :: d ++ b)) : d <+: a := by
  by_cases hlength : d.length ≤ a.length
  · exact List.prefix_of_prefix_length_le h (List.prefix_append a _) hlength
  · obtain ⟨rest, hrest⟩ := h
    have hat : (d ++ rest)[a.length]? = some c := by simp [hrest]
    rw [List.getElem?_append_left (by omega)] at hat
    exact absurd (List.mem_of_getElem? hat) hc

/-- Nothing that lacks its first element holds the delimiter. -/
theorem not_infix_of_notMem (h : c ∉ a) : ¬ (c :: d) <:+: a := fun hfound =>
  h (hfound.subset (List.mem_cons_self))

/-- What lacks its first element cannot hold the start of the delimiter. -/
theorem infix_of_infix_append (h : c ∉ a) (hfound : (c :: d) <:+: a ++ b) : (c :: d) <:+: b := by
  induction a with
  | nil => exact hfound
  | cons x a ih =>
    rw [List.mem_cons, not_or] at h
    rcases List.infix_cons_iff.mp hfound with hstart | hrest
    · exact absurd (List.cons_prefix_cons.mp hstart).1 h.1
    · exact ih h.2 hrest

end Prefix

variable {c : α} {d a b : List α}

theorem cut_append (hc : c ∉ d) (hfree : ¬ (c :: d) <:+: a) :
    cut (c :: d) (a ++ (c :: d ++ b)) = some (a, b) := by
  induction a with
  | nil => simp [cut]
  | cons x a ih =>
    have hfree' : ¬ (c :: d) <:+: a := fun h => hfree (h.trans (List.suffix_cons x a).isInfix)
    have hstart : ¬ (c :: d) <+: x :: (a ++ (c :: d ++ b)) := by
      intro h
      obtain ⟨rfl, htail⟩ := List.cons_prefix_cons.mp h
      have hbefore := prefix_of_prefix_append hc htail
      exact hfree (List.cons_prefix_cons.mpr ⟨rfl, hbefore⟩).isInfix
    rw [List.cons_append, cut, if_neg hstart, ih hfree']
    rfl

theorem notMem_of_mem_splitOn {l piece : List α} (h : piece ∈ l.splitOn c) : c ∉ piece := by
  induction l generalizing piece with
  | nil => simp_all
  | cons a l ih =>
    rw [List.splitOn_cons_eq_if_modifyHead] at h
    split at h
    · rcases List.mem_cons.mp h with rfl | h
      · simp
      · exact ih h
    next ha =>
      obtain ⟨first, rest, hsplit⟩ := List.exists_cons_of_ne_nil (List.splitOn_ne_nil c l)
      rw [hsplit, List.modifyHead_cons] at h
      rcases List.mem_cons.mp h with rfl | h
      · have hfirst : c ∉ first := ih (hsplit ▸ List.mem_cons_self)
        rw [List.mem_cons, not_or]
        exact ⟨fun heq => ha (by simp [← heq]), hfirst⟩
      · exact ih (hsplit ▸ List.mem_cons_of_mem _ h)

end Delimiter
