import Mathlib.Data.List.Basic
import Mathlib.Algebra.Order.Ring.Int

/-!
# Interleaved components with a shared state

A machine has one local state for each component, one shared state, and a log of
the actions that the components have performed. A move names a component and an
event; the component reads the shared state and its own, and replies with both
states and the actions it adds. Nondeterminism is in the choice of moves: every
list of moves is a run, so a statement about all runs is about every scheduling
and every answer of the environment.

Two rules are enough for safety. `run_induct` is induction over the run. `run_each`
is its rely-guarantee form: an invariant of one component may mention the shared
state, and must survive the moves of the others.
-/

namespace Transition

variable {ι S L E A : Type}

/-- What a component leaves behind after one move. -/
structure Turn (S L A : Type) where
  shared : S
  own : L
  emitted : List A

/-- How component `i` answers an event. -/
structure Machine (ι S L E A : Type) where
  act : ι → E → S → L → Turn S L A

/-- All states, and the log with who did what. -/
structure World (ι S L A : Type) where
  shared : S
  locals : ι → L
  log : List (ι × A)

/-- The actions of one component, in order. -/
def World.logOf [DecidableEq ι] (w : World ι S L A) (i : ι) : List A :=
  w.log.filterMap fun entry => if entry.1 = i then some entry.2 else none

/-- The actions of all components, in order. -/
def World.actions (w : World ι S L A) : List A := w.log.map Prod.snd

theorem World.mem_logOf [DecidableEq ι] {w : World ι S L A} {i : ι} {a : A} :
    a ∈ w.logOf i ↔ (i, a) ∈ w.log := by
  simp only [logOf, List.mem_filterMap, Option.ite_none_right_eq_some, Option.some.injEq,
    Prod.exists]
  constructor
  · rintro ⟨j, b, hmem, rfl, rfl⟩
    exact hmem
  · intro hmem
    exact ⟨i, a, hmem, rfl, rfl⟩

/-- Actions that one component alone performs are counted in its own log. -/
theorem World.countP_logOf [DecidableEq ι] {w : World ι S L A} {i : ι} {p : A → Bool}
    (h : ∀ j a, (j, a) ∈ w.log → p a = true → j = i) :
    w.log.countP (fun entry => p entry.2) = (w.logOf i).countP p := by
  simp only [logOf, List.countP_filterMap]
  refine List.countP_congr fun entry hentry => ?_
  by_cases hi : entry.1 = i
  · simp [hi]
  · have hp : p entry.2 ≠ true := fun hp => hi (h entry.1 entry.2 hentry hp)
    simp [hi, hp]

/-- A position in the log is a position in the log of its component. -/
theorem World.logOf_split [DecidableEq ι] {w : World ι S L A} {i : ι} {a : A}
    {before after : List (ι × A)} (h : w.log = before ++ (i, a) :: after) :
    ∃ earlier later, w.logOf i = earlier ++ a :: later ∧ ∀ b ∈ earlier, (i, b) ∈ before := by
  refine ⟨World.logOf { w with log := before } i, World.logOf { w with log := after } i, ?_, ?_⟩
  · simp [logOf, h, List.filterMap_append]
  · intro b hb
    exact World.mem_logOf.mp hb

namespace Machine

variable [DecidableEq ι] (m : Machine ι S L E A)

variable (w : World ι S L A) (moves : List (ι × E))

/-- One component moves. -/
def step (move : ι × E) : World ι S L A :=
  let turn := m.act move.1 move.2 w.shared (w.locals move.1)
  { shared := turn.shared
    locals := Function.update w.locals move.1 turn.own
    log := w.log ++ turn.emitted.map (Prod.mk move.1) }

/-- A run is any sequence of moves. -/
def run : World ι S L A :=
  moves.foldl m.step w

theorem run_append (before after : List (ι × E)) :
    m.run w (before ++ after) = m.run (m.run w before) after :=
  List.foldl_append

section Step

variable (w : World ι S L A) (i j : ι) (e : E)

@[simp] theorem step_shared : (m.step w (i, e)).shared = (m.act i e w.shared (w.locals i)).shared :=
  rfl

@[simp] theorem step_log :
    (m.step w (i, e)).log =
      w.log ++ (m.act i e w.shared (w.locals i)).emitted.map (Prod.mk i) :=
  rfl

@[simp] theorem step_actions :
    (m.step w (i, e)).actions = w.actions ++ (m.act i e w.shared (w.locals i)).emitted := by
  simp [World.actions, Function.comp_def]

@[simp] theorem step_locals_self :
    (m.step w (i, e)).locals i = (m.act i e w.shared (w.locals i)).own := by
  simp [step]

theorem step_locals_other (h : j ≠ i) : (m.step w (i, e)).locals j = w.locals j := by
  simp [step, h]

@[simp] theorem step_logOf_self :
    (m.step w (i, e)).logOf i = w.logOf i ++ (m.act i e w.shared (w.locals i)).emitted := by
  simp [World.logOf, List.filterMap_append, List.filterMap_map]

theorem step_logOf_other (h : j ≠ i) : (m.step w (i, e)).logOf j = w.logOf j := by
  simp [World.logOf, List.filterMap_append, List.filterMap_map, h.symm]

variable {w i e} in
/-- A move changes the local state and the log of the one who makes it, and of nobody else. -/
theorem step_each {I : ι → L → List A → Prop}
    (own : I i (m.act i e w.shared (w.locals i)).own
      (w.logOf i ++ (m.act i e w.shared (w.locals i)).emitted))
    (others : ∀ j, j ≠ i → I j (w.locals j) (w.logOf j)) :
    I j ((m.step w (i, e)).locals j) ((m.step w (i, e)).logOf j) := by
  obtain rfl | hj := eq_or_ne j i
  · rwa [step_locals_self, step_logOf_self]
  · rw [step_locals_other m w i j e hj, step_logOf_other m w i j e hj]
    exact others j hj

end Step

/-- An invariant of single moves is an invariant of runs. -/
theorem run_induct {P : World ι S L A → Prop} {w : World ι S L A} (start : P w)
    (next : ∀ w i e, P w → P (m.step w (i, e))) (moves : List (ι × E)) : P (m.run w moves) := by
  induction moves generalizing w with
  | nil => exact start
  | cons move rest ih => exact ih (next w move.1 move.2 start)

/-- Every move of the run meets the condition in the world it is made in. -/
def Meets (C : World ι S L A → ι × E → Prop) (w : World ι S L A) : List (ι × E) → Prop
  | [] => True
  | move :: rest => C w move ∧ Meets C (m.step w move) rest

/-- An invariant of the moves that meet a condition is an invariant of the runs of such moves. -/
theorem run_induct_meets {C : World ι S L A → ι × E → Prop} {P : World ι S L A → Prop}
    {w : World ι S L A} (start : P w)
    (next : ∀ w i e, P w → C w (i, e) → P (m.step w (i, e))) {moves : List (ι × E)}
    (h : m.Meets C w moves) : P (m.run w moves) := by
  induction moves generalizing w with
  | nil => exact start
  | cons move rest ih => exact ih (next w move.1 move.2 start h.1) h.2

/-- A component that makes no move keeps its state. -/
theorem run_locals_idle (w : World ι S L A) {moves : List (ι × E)} {i : ι}
    (h : i ∉ moves.map Prod.fst) : (m.run w moves).locals i = w.locals i := by
  induction moves generalizing w with
  | nil => rfl
  | cons move rest ih =>
    rw [List.map_cons, List.mem_cons, not_or] at h
    exact (ih (m.step w move) h.2).trans (m.step_locals_other w move.1 i move.2 h.1)

/-- What a run adds to the log. -/
def emitted (w : World ι S L A) : List (ι × E) → List (ι × A)
  | [] => []
  | move :: rest =>
    (m.act move.1 move.2 w.shared (w.locals move.1)).emitted.map (Prod.mk move.1) ++
      emitted (m.step w move) rest

theorem run_emitted (w : World ι S L A) (moves : List (ι × E)) :
    (m.run w moves).log = w.log ++ m.emitted w moves := by
  induction moves generalizing w with
  | nil => exact (List.append_nil _).symm
  | cons move rest ih =>
    have hrest : (m.run w (move :: rest)).log =
        (m.step w move).log ++ m.emitted (m.step w move) rest := ih (m.step w move)
    rw [hrest, step_log, emitted, List.append_assoc]

/-- A relation that the moves of the other components do not disturb relates a run to the run of the
components' own moves alone. -/
theorem run_filter {R : World ι S L A → World ι S L A → Prop} {p : ι → Bool}
    (own : ∀ w w' i e, p i = true → R w w' → R (m.step w (i, e)) (m.step w' (i, e)))
    (skip : ∀ w w' i e, p i = false → R w w' → R (m.step w (i, e)) w')
    {w w' : World ι S L A} (start : R w w') (moves : List (ι × E)) :
    R (m.run w moves) (m.run w' (moves.filter fun move => p move.1)) := by
  induction moves generalizing w w' with
  | nil => exact start
  | cons move rest ih =>
    cases hp : p move.1 with
    | true =>
      simp only [List.filter_cons, hp, if_true]
      exact ih (own w w' move.1 move.2 hp start)
    | false =>
      simp only [List.filter_cons, hp, Bool.false_eq_true, if_false]
      exact ih (skip w w' move.1 move.2 hp start)

/-- Nothing is ever taken back from the log. -/
theorem run_log (w : World ι S L A) (moves : List (ι × E)) :
    ∃ added, (m.run w moves).log = w.log ++ added :=
  ⟨_, m.run_emitted w moves⟩

/-- The rely-guarantee rule. `own` is the component's own move, and `rely` says that
its invariant does not depend on what the others do to the shared state. -/
theorem run_each {I : ι → S → L → List A → Prop} {w : World ι S L A}
    (start : ∀ i, I i w.shared (w.locals i) (w.logOf i)) (own : ∀ i e s l t, I i s l t →
      I i (m.act i e s l).shared (m.act i e s l).own (t ++ (m.act i e s l).emitted))
    (rely : ∀ i j e s l t l' t', j ≠ i → I i s l t → I j s l' t' →
      I i (m.act j e s l').shared l t) (moves : List (ι × E)) (i : ι) :
    I i (m.run w moves).shared ((m.run w moves).locals i) ((m.run w moves).logOf i) := by
  revert i
  refine m.run_induct (P := fun w => ∀ i, I i w.shared (w.locals i) (w.logOf i)) start ?_ moves
  intro w j e h i
  exact m.step_each i (I := fun i => I i _) (own j e _ _ _ (h j))
    fun i hij => rely i j e _ _ _ _ _ (Ne.symm hij) (h i) (h j)

end Machine

end Transition
