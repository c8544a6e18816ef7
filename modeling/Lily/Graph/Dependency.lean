import Lily.Collection.Position
import Mathlib.Data.List.Chain
import Mathlib.Order.WellFounded

/-!
# Dependency relations

`r a b` reads "`a` depends on `b`". A node is grounded when every chain of dependencies that
starts at it ends; a grounded node is on no cycle. In a list that has the dependencies of each
element before it, so are all that the element reaches.
-/

namespace Graph

open Relation

variable {α : Type} {r : α → α → Prop}

/-- No infinite chain of dependencies starts here. -/
def Grounded (r : α → α → Prop) (a : α) : Prop := Acc (Function.swap r) a

variable {order : List α} {a : α}

theorem Grounded.intro (h : ∀ b, r a b → Grounded r b) : Grounded r a := Acc.intro a h

theorem Grounded.not_transGen (h : Grounded r a) : ¬ TransGen r a a := by
  -- In the transitive closure a cycle is a single edge.
  have hacc : Acc (TransGen (Function.swap r)) a := Acc.transGen h
  clear h
  induction hacc with
  | intro a _ ih => exact fun hcycle => ih a (transGen_swap.mpr hcycle) hcycle

/-! ## Cycles -/

/-- A chain of dependencies that comes back to where it started. -/
def ClosedChain (r : α → α → Prop) (nodes : List α) : Prop :=
  ∃ first middle, nodes = first :: middle ++ [first] ∧ List.IsChain r nodes

theorem transGen_of_isChain {a b : α} {middle : List α}
    (h : List.IsChain r (a :: middle ++ [b])) : TransGen r a b := by
  induction middle generalizing a with
  | nil => exact .single (List.isChain_cons_cons.mp h).1
  | cons c rest ih =>
    obtain ⟨hfirst, hrest⟩ := List.isChain_cons_cons.mp h
    exact .head hfirst (ih hrest)

theorem ClosedChain.transGen {nodes : List α} (h : ClosedChain r nodes) :
    ∃ a ∈ nodes, TransGen r a a := by
  obtain ⟨first, middle, rfl, hchain⟩ := h
  exact ⟨first, by simp, transGen_of_isChain hchain⟩

/-- A path whose last node depends on one of its nodes closes a cycle there. -/
theorem closedChain_of_path {before after : List α} {first last : α}
    (hpath : List.IsChain r (before ++ first :: after))
    (hlast : (before ++ first :: after).getLast? = some last) (hedge : r last first) :
    ClosedChain r (first :: after ++ [first]) := by
  refine ⟨first, after, rfl, ?_⟩
  have htail := (List.isChain_split.mp hpath).2
  refine List.isChain_append.mpr ⟨htail, .singleton first, fun x hx y hy => ?_⟩
  have hx : x = last := by
    rw [List.getLast?_append_of_ne_nil _ (List.cons_ne_nil first after), hx] at hlast
    exact Option.some.inj hlast
  obtain rfl := Option.some.inj hy
  exact hx ▸ hedge

/-! ## Orders -/

/-- Every element comes after its dependencies. -/
def DependenciesFirst (r : α → α → Prop) (order : List α) : Prop :=
  ∀ before a after, order = before ++ a :: after → ∀ b, r a b → b ∈ before

theorem DependenciesFirst.nil : DependenciesFirst r [] := fun before a after h => by simp at h

theorem DependenciesFirst.concat (h : DependenciesFirst r order)
    (hlast : ∀ b, r a b → b ∈ order) : DependenciesFirst r (order ++ [a]) := by
  intro before c after hsplit b hedge
  rcases Position.concat_split hsplit with ⟨rest, horder, -⟩ | ⟨rfl, rfl, -⟩
  · exact h before c rest horder b hedge
  · exact hlast b hedge

theorem DependenciesFirst.transGen (h : DependenciesFirst r order)
    {before after : List α} {a b : α} (hsplit : order = before ++ a :: after)
    (hreach : TransGen r a b) : b ∈ before := by
  induction hreach using TransGen.head_induction_on generalizing before after with
  | single hedge => exact h before _ after hsplit b hedge
  | head hedge _ ih =>
    obtain ⟨earlier, later, hbefore⟩ := List.append_of_mem (h before _ after hsplit _ hedge)
    have hmem : b ∈ earlier := ih (by rw [hsplit, hbefore, List.append_assoc]; rfl)
    rw [hbefore]
    exact List.mem_append_left _ hmem

/-- The position of an element is a rank. -/
theorem DependenciesFirst.idxOf_lt [DecidableEq α] {order : List α}
    (h : DependenciesFirst r order) {a b : α} (ha : a ∈ order) (hedge : r a b) :
    order.idxOf b < order.idxOf a := by
  obtain ⟨before, after, hsplit, hfirst⟩ := List.eq_append_cons_of_mem ha
  have hb : b ∈ before := h before a after hsplit b hedge
  rw [hsplit, List.idxOf_append_of_mem hb, List.idxOf_append_of_notMem hfirst,
    List.idxOf_cons_self, Nat.add_zero]
  exact List.idxOf_lt_length_of_mem hb

end Graph
