import Lily.Graph.Dependency
import Lily.Injection.ServiceGraph
import Mathlib.Data.Fintype.Card

/-!
# The search for a cycle

The stack is a path of the graph and holds the nodes marked as on the stack, and a node that is
done is grounded. A dependency that is on the stack therefore closes a cycle, and when every node
is done there is none.
-/

namespace Lily.Injection

open Graph

variable {n : Nat} (dependencies : Fin n → List (Fin n))

/-- The edges of the graph. -/
def DependsOn (service dependency : Fin n) : Prop := dependency ∈ dependencies service

/-- The stack is a path of the graph, and what is done is on no cycle. -/
structure Visiting (states : Fin n → Mark) (stack : List (Fin n)) : Prop where
  nodup : stack.Nodup
  onStack : ∀ node, states node = .onStack ↔ node ∈ stack
  path : List.IsChain (DependsOn dependencies) stack
  grounded : ∀ node, states node = .done → Grounded (DependsOn dependencies) node

/-- What a part of the search leaves behind, when it starts with these states and this stack. -/
def Search.Sound (states : Fin n → Mark) (stack : List (Fin n)) (P : (Fin n → Mark) → Prop) :
    Search n → Prop
  | .found cycle => ClosedChain (DependsOn dependencies) (cycle ++ cycle.head?.toList)
  | .clear states' stack' =>
    stack' = stack ∧ Visiting dependencies states' stack ∧
      (∀ node, states node = .done → states' node = .done) ∧ P states'
  | .overflow => False

theorem drop_findIdx {stack before after : List (Fin n)} {node : Fin n}
    (hsplit : stack = before ++ node :: after) (hfirst : node ∉ before) :
    stack.drop ((stack.findIdx? (· == node)).getD 0) = node :: after := by
  have hindex : stack.findIdx? (· == node) = some before.length := by
    rw [hsplit, List.findIdx?_append]
    have hnone : before.findIdx? (· == node) = none := by
      rw [List.findIdx?_eq_none_iff]
      intro other hother
      exact beq_false_of_ne fun heq => hfirst (heq ▸ hother)
    simp [hnone, List.findIdx?_cons]
  rw [hindex, Option.getD_some, hsplit, List.drop_left]

section Steps

variable {dependencies} {states : Fin n → Mark} {stack : List (Fin n)} {current : Fin n}

/-- A dependency of the last node that is on the stack already. -/
theorem Visiting.found (h : Visiting dependencies states (stack ++ [current]))
    {dependency : Fin n} (hedge : DependsOn dependencies current dependency)
    (hon : states dependency = .onStack) (P : (Fin n → Mark) → Prop) :
    Search.Sound dependencies states (stack ++ [current]) P
      (.found ((stack ++ [current]).drop
        (((stack ++ [current]).findIdx? (· == dependency)).getD 0))) := by
  obtain ⟨before, after, hsplit⟩ := List.append_of_mem ((h.onStack dependency).mp hon)
  have hfirst : dependency ∉ before := by
    have hnodup := h.nodup
    rw [hsplit] at hnodup
    exact fun hmem => (List.nodup_append.mp hnodup).2.2 _ hmem _ List.mem_cons_self rfl
  have hlast : (before ++ dependency :: after).getLast? = some current := by
    rw [← hsplit, List.getLast?_concat]
  rw [drop_findIdx hsplit hfirst]
  exact closedChain_of_path (hsplit ▸ h.path) hlast hedge

theorem Visiting.push (h : Visiting dependencies states stack)
    (hcurrent : states current = .unvisited)
    (hedge : ∀ last ∈ stack.getLast?, DependsOn dependencies last current) :
    Visiting dependencies (Function.update states current .onStack) (stack ++ [current]) where
  nodup := by
    have hfresh : current ∉ stack := fun hmem => by
      rw [(h.onStack current).mpr hmem] at hcurrent
      cases hcurrent
    exact List.nodup_append.mpr ⟨h.nodup, List.nodup_singleton _, fun a ha b hb => by
      rw [List.mem_singleton.mp hb]
      exact fun heq => hfresh (heq ▸ ha)⟩
  onStack node := by
    by_cases hnode : node = current
    · simp [hnode]
    · simp [hnode, h.onStack node]
  path := by
    refine List.isChain_append.mpr ⟨h.path, .singleton current, fun last hlast first hfirst => ?_⟩
    obtain rfl := Option.some.inj hfirst
    exact hedge last hlast
  grounded node hdone := by
    by_cases hnode : node = current
    · simp [hnode] at hdone
    · exact h.grounded node (by simpa [hnode] using hdone)

/-- A node is done when all its dependencies are. -/
theorem Visiting.pop (h : Visiting dependencies states (stack ++ [current]))
    (hdone : ∀ dependency ∈ dependencies current, states dependency = .done) :
    Visiting dependencies (Function.update states current .done) stack where
  nodup := (List.nodup_append.mp h.nodup).1
  onStack node := by
    have hfresh : current ∉ stack := fun hmem =>
      (List.nodup_append.mp h.nodup).2.2 _ hmem _ List.mem_cons_self rfl
    obtain rfl | hnode := eq_or_ne node current
    · simpa using hfresh
    · simp [hnode, h.onStack node]
  path := (List.isChain_append.mp h.path).1
  grounded node hnode := by
    obtain rfl | heq := eq_or_ne node current
    · exact .intro fun dependency hedge => h.grounded dependency (hdone dependency hedge)
    · exact h.grounded node (by simpa [heq] using hnode)

end Steps

/-! ## The search -/

section Search

variable {dependencies} {states : Fin n → Mark} {stack : List (Fin n)} {P Q : (Fin n → Mark) → Prop}
  {search : Search n}

theorem Search.Sound.andThen (h : Search.Sound dependencies states stack P search)
    {stack' : List (Fin n)} {next : (Fin n → Mark) → List (Fin n) → Search n}
    (hnext : ∀ states', Visiting dependencies states' stack →
      (∀ node, states node = .done → states' node = .done) → P states' →
      Search.Sound dependencies states stack' Q (next states' stack)) :
    Search.Sound dependencies states stack' Q (search.andThen next) := by
  cases search with
  | found cycle | overflow => exact h
  | clear states' stack' =>
    obtain ⟨rfl, hvisiting, hkept, hP⟩ := h
    exact hnext states' hvisiting hkept hP

/-- From states to earlier ones, with what is known of them by then. -/
theorem Search.Sound.since {earlier : Fin n → Mark}
    (h : Search.Sound dependencies states stack P search)
    (hkept : ∀ node, earlier node = .done → states node = .done)
    (himp : ∀ states', (∀ node, states node = .done → states' node = .done) → P states' →
      Q states') : Search.Sound dependencies earlier stack Q search := by
  cases search with
  | found cycle | overflow => exact h
  | clear states' stack' =>
    obtain ⟨hstack, hvisiting, hkept', hP⟩ := h
    exact ⟨hstack, hvisiting, fun node hnode => hkept' node (hkept node hnode),
      himp states' hkept' hP⟩

end Search

/-- The loop over the dependencies, for any sound recursive call. -/
theorem visitDependencies_sound {visit : Fin n → (Fin n → Mark) → List (Fin n) → Search n}
    {stack : List (Fin n)} {current : Fin n}
    (hvisit : ∀ states dependency, Visiting dependencies states (stack ++ [current]) →
      states dependency = .unvisited → DependsOn dependencies current dependency →
      Search.Sound dependencies states (stack ++ [current]) (fun s => s dependency = .done)
        (visit dependency states (stack ++ [current])))
    (rest : List (Fin n)) (hrest : ∀ dependency ∈ rest, DependsOn dependencies current dependency)
    {states : Fin n → Mark} (h : Visiting dependencies states (stack ++ [current])) :
    Search.Sound dependencies states (stack ++ [current])
      (fun s => ∀ dependency ∈ rest, s dependency = .done)
      (visitDependencies visit rest states (stack ++ [current])) := by
  induction rest generalizing states with
  | nil => exact ⟨rfl, h, fun _ hdone => hdone, nofun⟩
  | cons dependency rest ih =>
    obtain ⟨hedge, hrest⟩ := List.forall_mem_cons.mp hrest
    rw [visitDependencies]
    cases hstate : states dependency with
    | onStack => exact h.found hedge hstate _
    | done =>
      refine (ih hrest h).since (fun _ hdone => hdone) fun states' hkept hdone => ?_
      exact List.forall_mem_cons.mpr ⟨hkept dependency hstate, hdone⟩
    | unvisited =>
      refine (hvisit states dependency h hstate hedge).andThen
        fun states' hvisiting hkept hfirst => ?_
      refine (ih hrest hvisiting).since hkept fun states'' hkept' hdone => ?_
      exact List.forall_mem_cons.mpr ⟨hkept' dependency hfirst, hdone⟩

/-- The recursion is as deep as the stack is high, and the stack has no repetition. -/
theorem visit_sound (depth : Nat) {states : Fin n → Mark} {stack : List (Fin n)} {current : Fin n}
    (hdepth : n ≤ stack.length + depth) (h : Visiting dependencies states stack)
    (hcurrent : states current = .unvisited)
    (hedge : ∀ last ∈ stack.getLast?, DependsOn dependencies last current) :
    Search.Sound dependencies states stack (fun s => s current = .done)
      (visit dependencies depth current states stack) := by
  induction depth generalizing states stack current with
  | zero =>
    have hpushed := List.Nodup.length_le_card (h.push hcurrent hedge).nodup
    simp only [List.length_append, List.length_singleton, Fintype.card_fin] at hpushed
    omega
  | succ depth ih =>
    have hrecursive : ∀ states dependency, Visiting dependencies states (stack ++ [current]) →
        states dependency = .unvisited → DependsOn dependencies current dependency →
        Search.Sound dependencies states (stack ++ [current]) (fun s => s dependency = .done)
          (visit dependencies depth dependency states (stack ++ [current])) := by
      intro states dependency hvisiting hunvisited hedge
      refine ih ?_ hvisiting hunvisited fun last hlast => ?_
      · rw [List.length_append, List.length_singleton]
        omega
      · rw [List.getLast?_concat] at hlast
        exact Option.some.inj hlast ▸ hedge
    have hkept : ∀ node, states node = .done →
        Function.update states current Mark.onStack node = .done := by
      intro node hnode
      rwa [Function.update_of_ne]
      rintro rfl
      rw [hcurrent] at hnode
      cases hnode
    rw [visit]
    refine Search.Sound.andThen
      ((visitDependencies_sound dependencies hrecursive (dependencies current)
        (fun _ hmem => hmem) (h.push hcurrent hedge)).since hkept fun _ _ hdone => hdone)
      fun states' hvisiting hkept hdone => ?_
    refine ⟨List.dropLast_concat, hvisiting.pop hdone, fun node hnode => ?_, by simp⟩
    by_cases heq : node = current
    · simp [heq]
    · simpa [heq] using hkept node hnode

/-- A search from every node marks them all, or returns a cycle. -/
theorem visitAll_sound (rest : List (Fin n)) {states : Fin n → Mark}
    (h : Visiting dependencies states []) :
    Search.Sound dependencies states [] (fun s => ∀ node ∈ rest, s node = .done)
      (visitAll dependencies rest states []) := by
  induction rest generalizing states with
  | nil => exact ⟨rfl, h, fun _ hdone => hdone, nofun⟩
  | cons index rest ih =>
    rw [visitAll]
    cases hstate : states index with
    | unvisited =>
      rw [if_pos rfl]
      refine (visit_sound dependencies n (Nat.le_add_left n _) h hstate nofun).andThen
        fun states' hvisiting hkept hfirst => ?_
      refine (ih hvisiting).since hkept fun states'' hkept' hdone => ?_
      exact List.forall_mem_cons.mpr ⟨hkept' index hfirst, hdone⟩
    | onStack => exact absurd ((h.onStack index).mp hstate) List.not_mem_nil
    | done =>
      rw [if_neg nofun]
      refine (ih h).since (fun _ hdone => hdone) fun states' hkept hdone => ?_
      exact List.forall_mem_cons.mpr ⟨hkept index hstate, hdone⟩

/-- The search always ends. It finds a cycle, or all nodes are grounded. -/
theorem findDependencyCycle_spec :
    (∃ cycle, findDependencyCycle dependencies = .found cycle ∧
      ClosedChain (DependsOn dependencies) (cycle ++ cycle.head?.toList)) ∨
    (∃ states stack, findDependencyCycle dependencies = .clear states stack) ∧
      ∀ node, Grounded (DependsOn dependencies) node := by
  have hstart : Visiting dependencies (fun _ => .unvisited) [] :=
    ⟨List.nodup_nil, fun _ => by simp, .nil, nofun⟩
  have hsound := visitAll_sound dependencies (List.finRange n) hstart
  rw [← findDependencyCycle] at hsound
  revert hsound
  cases findDependencyCycle dependencies with
  | found cycle => exact fun hcycle => .inl ⟨cycle, rfl, hcycle⟩
  | overflow => exact False.elim
  | clear states stack =>
    rintro ⟨-, hvisiting, -, hdone⟩
    exact .inr ⟨⟨states, stack, rfl⟩, fun node =>
      hvisiting.grounded node (hdone node (List.mem_finRange node))⟩

end Lily.Injection
