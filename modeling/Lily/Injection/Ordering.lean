import Lily.Injection.CycleSearch

/-!
# The order of start-up

The in-degree of a node is the number of its dependencies that are not in the order yet, counted
with repetition. While the dependents of a node are released, those that remain are counted on
top. A node is in the order or in the queue exactly when its in-degree is zero, so that it is put
into the queue once, after its last dependency.
-/

namespace Lily.Injection

open Graph

variable {n : Nat} (dependencies : Fin n → List (Fin n))

/-- A dependent is listed as often as it declares the dependency. -/
theorem count_reverseGraph (service dependency : Fin n) :
    (reverseGraph dependencies dependency).count service =
      (dependencies service).count dependency := by
  have hinner : ∀ (edges : List (Fin n)) (other : Fin n) (graph : Fin n → List (Fin n)),
      (edges.foldl (fun graph edge => Function.update graph edge (graph edge ++ [other])) graph
        dependency).count service =
      (graph dependency).count service + if other = service then edges.count dependency else 0 := by
    intro edges other
    induction edges with
    | nil => intro graph; simp
    | cons edge rest ih =>
      intro graph
      rw [List.foldl_cons, ih]
      obtain rfl | hedge := eq_or_ne dependency edge
      · by_cases hother : other = service
        · simp [hother]; omega
        · simp [hother]
      · simp [hedge, Ne.symm hedge]
  have houter : ∀ (services : List (Fin n)) (graph : Fin n → List (Fin n)), services.Nodup →
      (services.foldl (fun graph other => (dependencies other).foldl
        (fun graph edge => Function.update graph edge (graph edge ++ [other])) graph) graph
        dependency).count service =
      (graph dependency).count service +
        if service ∈ services then (dependencies service).count dependency else 0 := by
    intro services
    induction services with
    | nil => intro graph _; simp
    | cons other rest ih =>
      intro graph hnodup
      obtain ⟨hnot, hrest⟩ := List.nodup_cons.mp hnodup
      rw [List.foldl_cons, ih _ hrest, hinner]
      obtain rfl | hother := eq_or_ne other service
      · simp [hnot]
      · simp [hother, Ne.symm hother]
  rw [reverseGraph, houter _ _ (List.nodup_finRange n)]
  simp

def missing (order : List (Fin n)) (node : Fin n) : Nat :=
  (dependencies node).countP fun dependency => dependency ∉ order

theorem missing_eq_zero {order : List (Fin n)} {node : Fin n} :
    missing dependencies order node = 0 ↔ ∀ dependency ∈ dependencies node, dependency ∈ order := by
  simp [missing, List.countP_eq_zero]

theorem missing_concat {order : List (Fin n)} {current : Fin n} (hfresh : current ∉ order)
    (node : Fin n) :
    missing dependencies order node =
      missing dependencies (order ++ [current]) node + (dependencies node).count current := by
  rw [missing, missing, List.count]
  induction dependencies node with
  | nil => rfl
  | cons dependency rest ih =>
    simp only [List.countP_cons, ih]
    obtain rfl | hcurrent := eq_or_ne dependency current
    · simp [hfresh]
      omega
    · simp [hcurrent]
      omega

/-- The state of the loop, with the dependents that are still to be released. -/
structure Kahn.Sound (rest : List (Fin n)) (state : Kahn n) : Prop where
  nodup : (state.topologicalOrder ++ state.queue).Nodup
  inDegree : ∀ node, state.inDegree node =
    missing dependencies state.topologicalOrder node + rest.count node
  ready : ∀ node, node ∈ state.topologicalOrder ++ state.queue ↔ state.inDegree node = 0
  ordered : DependenciesFirst (DependsOn dependencies) state.topologicalOrder

section Loop

variable {dependencies}

theorem Kahn.Sound.release {rest : List (Fin n)} {state : Kahn n}
    (h : state.Sound dependencies rest) :
    ∃ state', release rest state = some state' ∧ state'.Sound dependencies [] ∧
      state'.topologicalOrder = state.topologicalOrder := by
  induction rest generalizing state with
  | nil => exact ⟨state, rfl, h, rfl⟩
  | cons dependent rest ih =>
    rw [Injection.release]
    cases hdegree : state.inDegree dependent with
    | zero =>
      have hpositive := h.inDegree dependent
      rw [hdegree, List.count_cons_self] at hpositive
      omega
    | succ degree =>
      have hfresh : dependent ∉ state.topologicalOrder ++ state.queue := by
        rw [h.ready, hdegree]
        exact Nat.succ_ne_zero degree
      refine ih ⟨?_, fun node => ?_, fun node => ?_, h.ordered⟩
      · dsimp only
        split_ifs
        · rw [← List.append_assoc]
          exact List.nodup_append.mpr ⟨h.nodup, List.nodup_singleton _, fun a ha b hb => by
            rw [List.mem_singleton.mp hb]
            exact fun heq => hfresh (heq ▸ ha)⟩
        · exact h.nodup
      · have hnode := h.inDegree node
        obtain rfl | heq := eq_or_ne node dependent
        · rw [hdegree, List.count_cons_self] at hnode
          simp only [Function.update_self]
          omega
        · rw [List.count_cons_of_ne (Ne.symm heq)] at hnode
          simpa [heq] using hnode
      · have hready := h.ready node
        obtain rfl | heq := eq_or_ne node dependent
        · simp only [Function.update_self]
          split_ifs with hzero
          · simp [hzero]
          · simpa [hzero] using hfresh
        · simp only [Function.update_of_ne heq]
          rw [← hready]
          split_ifs
          · simp [heq]
          · rfl

/-- What the loop ends with. -/
theorem Kahn.Sound.order {order : List (Fin n)} {inDegree : Fin n → Nat}
    (h : Kahn.Sound dependencies [] ⟨[], inDegree, order⟩) :
    order.Nodup ∧ DependenciesFirst (DependsOn dependencies) order ∧
      ∀ node, node ∈ order ↔ ∀ dependency ∈ dependencies node, dependency ∈ order := by
  refine ⟨by simpa using h.nodup, h.ordered, fun node => ?_⟩
  have hdegree : inDegree node = missing dependencies order node := h.inDegree node
  have hready : node ∈ order ++ [] ↔ inDegree node = 0 := h.ready node
  rw [← missing_eq_zero, ← hdegree, ← hready, List.append_nil]

/-- The next node of the queue is put into the order. -/
theorem Kahn.Sound.pop {current : Fin n} {queue order : List (Fin n)} {inDegree : Fin n → Nat}
    (h : Kahn.Sound dependencies [] ⟨current :: queue, inDegree, order⟩) :
    Kahn.Sound dependencies (reverseGraph dependencies current)
      ⟨queue, inDegree, order ++ [current]⟩ := by
  have hnodup : (order ++ current :: queue).Nodup := h.nodup
  have hfresh : current ∉ order := fun hmem =>
    (List.nodup_append.mp hnodup).2.2 _ hmem _ List.mem_cons_self rfl
  have hcurrent : missing dependencies order current = 0 := by
    have hzero := (h.ready current).mp (List.mem_append_right _ List.mem_cons_self)
    rw [h.inDegree current] at hzero
    exact hzero
  refine ⟨?_, fun node => ?_, fun node => ?_, ?_⟩
  · simpa using hnodup
  · rw [h.inDegree node, count_reverseGraph]
    exact missing_concat dependencies hfresh node
  · simpa using h.ready node
  · exact h.ordered.concat fun dependency hedge =>
      (missing_eq_zero dependencies).mp hcurrent dependency hedge

/-- Every turn takes one node out of the queue, and none comes back. -/
theorem Kahn.Sound.drain {turns : Nat} {state : Kahn n} (h : state.Sound dependencies [])
    (hturns : n ≤ turns + state.topologicalOrder.length) :
    ∃ order, drain (reverseGraph dependencies) turns state = some order ∧
      order.Nodup ∧ DependenciesFirst (DependsOn dependencies) order ∧
      ∀ node, node ∈ order ↔ ∀ dependency ∈ dependencies node, dependency ∈ order := by
  induction turns generalizing state with
  | zero =>
    obtain ⟨queue, inDegree, order⟩ := state
    have hlength := List.Nodup.length_le_card h.nodup
    simp only [List.length_append, Fintype.card_fin] at hlength hturns
    have hempty : queue = [] := List.eq_nil_of_length_eq_zero (by omega)
    subst hempty
    exact ⟨order, rfl, h.order⟩
  | succ turns ih =>
    obtain ⟨queue, inDegree, order⟩ := state
    cases queue with
    | nil => exact ⟨order, rfl, h.order⟩
    | cons current queue =>
      obtain ⟨state, hrelease, hsound, horder⟩ := h.pop.release
      rw [Injection.drain, hrelease]
      refine ih hsound ?_
      rw [horder, List.length_append, List.length_singleton]
      dsimp only at hturns
      omega

end Loop

/-- In a graph without cycles the order has every node once, after its dependencies. -/
theorem topologicalOrder_spec (h : ∀ node, Grounded (DependsOn dependencies) node) :
    ∃ order, topologicalOrder dependencies = some order ∧ order.Nodup ∧ (∀ node, node ∈ order) ∧
      DependenciesFirst (DependsOn dependencies) order := by
  have hnone : ∀ node, missing dependencies [] node = (dependencies node).length := fun node => by
    simp [missing]
  have hstart : Kahn.Sound dependencies []
      ⟨(List.finRange n).filter fun index => (dependencies index).length = 0,
        fun service => (dependencies service).length, []⟩ := by
    refine ⟨?_, fun node => (hnone node).symm, fun node => ?_, .nil⟩
    · exact (List.nodup_finRange n).filter _
    · simp
  obtain ⟨order, horder, hnodup, hfirst, hready⟩ := hstart.drain (Nat.le_add_right n 0)
  refine ⟨order, horder, hnodup, fun node => ?_, hfirst⟩
  induction h node with
  | intro node _ ih => exact (hready node).mpr fun dependency hedge => ih dependency hedge

end Lily.Injection
