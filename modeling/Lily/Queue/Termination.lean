import Mathlib.Algebra.Order.BigOperators.Group.List
import Mathlib.Algebra.Order.Group.Nat
import Mathlib.Algebra.Order.Ring.Int
import Lily.Queue.ShutdownBudget

/-!
# The slots of the termination hooks

A delivery that ends runs the termination hooks of its middlewares from the last that was entered
to the first. Each gets an equal share of the time that is left, and a hook that has not returned
at its deadline is dropped there. Nothing else takes time. The invocation and the reason that a hook
is given are left out.
-/

namespace Lily.Queue.Termination

open ShutdownBudget

inductive MiddlewareExitState where
  | notStarted | running | completed | failed | interrupted | panicked

inductive TerminationState where
  | notStarted | running | completed | failed | panicked | timedOut | interrupted | budgetExhausted
  deriving DecidableEq

inductive DeliveryNormalExit where
  | notStarted | interrupted | panicked

structure MiddlewareEntry where
  normal : MiddlewareExitState := .notStarted
  termination : TerminationState := .notStarted

abbrev DeliveryMiddlewareLedger := List MiddlewareEntry

variable (ledger : DeliveryMiddlewareLedger) (index : Nat)

def eligibleTermination :
    Option DeliveryNormalExit := do
  let entry ← ledger[index]?
  if entry.termination ≠ .notStarted then none
  else match entry.normal with
    | .notStarted => some .notStarted
    | .interrupted => some .interrupted
    | .panicked => some .panicked
    | _ => none

def terminationState (state : TerminationState) : DeliveryMiddlewareLedger :=
  ledger.modify index ({ · with termination := state })

/-- The eligible entries below an index. -/
def eligible (count : Nat) : List Nat :=
  (List.range count).filter fun entry => (eligibleTermination ledger entry).isSome

/-- How long a hook would run, how it would end, and whether its drop panics. -/
structure Hook where
  duration : Nat
  result : TerminationState
  dropPanics : Bool := false

/-- A hook that was started. -/
structure Slot where
  index : Nat
  divisor : Nat
  start : Nat
  deadline : Nat
  used : Nat

def u32Max : Nat := 2 ^ 32 - 1

/-- The loop of `terminate_recorded` over the first entries, with a deadline that is not capped any
further. `Running` stands only while the hook is polled. -/
def terminateRecorded (hard : Nat) (hooks : Nat → Hook) :
    Nat → DeliveryMiddlewareLedger → Nat → List Slot × DeliveryMiddlewareLedger
  | 0, ledger, _ => ([], ledger)
  | index + 1, ledger, now =>
    if (eligibleTermination ledger index).isNone then terminateRecorded hard hooks index ledger now
    else if hard ≤ now then
      terminateRecorded hard hooks index (terminationState ledger index .budgetExhausted) now
    else
      let divisor := min (eligible ledger (index + 1)).length u32Max
      let share := (hard - now) / divisor
      let used := min (hooks index).duration share
      let result := if (hooks index).dropPanics then .panicked
        else if (hooks index).duration ≤ share then (hooks index).result else .timedOut
      let rest := terminateRecorded hard hooks index (terminationState ledger index result)
        (now + used)
      (⟨index, divisor, now, now + share, used⟩ :: rest.1, rest.2)

variable {ledger : DeliveryMiddlewareLedger} {index count now hard : Nat} {hooks : Nat → Hook}

theorem eligible_terminationState (state : TerminationState) :
    eligible (terminationState ledger index state) index = eligible ledger index := by
  refine List.filter_congr fun entry hentry => ?_
  have hne : index ≠ entry := (List.mem_range.mp hentry).ne'
  simp [eligibleTermination, terminationState, List.getElem?_modify_ne _ _ hne]

theorem eligible_succ : eligible ledger (index + 1) = eligible ledger index ++
    if (eligibleTermination ledger index).isNone then [] else [index] := by
  cases h : eligibleTermination ledger index <;>
    simp [eligible, List.range_succ, List.filter_append, h]

/-- What is said of the slots of the entries that are left. -/
structure Shares (hard : Nat) (hooks : Nat → Hook) (now : Nat) (left : List Nat)
    (slots : List Slot) : Prop where
  indices : slots.map Slot.index = left.reverse
  start : ∀ before slot after, slots = before ++ slot :: after →
    slot.start = now + (before.map Slot.used).sum
  each : ∀ slot ∈ slots, slot.divisor ≠ 0 ∧ slot.deadline ≤ hard ∧
    slot.used = min (hooks slot.index).duration (slot.deadline - slot.start)
  used : (slots.map Slot.used).sum ≤ hard - now
  fair : left.length ≤ u32Max → ∀ least, least * left.length ≤ hard - now →
    ∀ slot ∈ slots, slot.start + least ≤ slot.deadline

theorem Shares.cons {share used : Nat} {left : List Nat} {slots : List Slot}
    (hshare : share = (hard - now) / min (left.length + 1) u32Max)
    (hused : used = min (hooks index).duration share)
    (h : Shares hard hooks (now + used) left slots) (hlate : now < hard) :
    Shares hard hooks now (left ++ [index])
      (⟨index, min (left.length + 1) u32Max, now, now + share, used⟩ :: slots) := by
  have hle : share ≤ hard - now := hshare ▸ Nat.div_le_self _ _
  have hu32 : 0 < u32Max := by decide
  refine ⟨by simp [h.indices], ?_, List.forall_mem_cons.mpr ⟨⟨by lia, by lia, ?_⟩, h.each⟩, ?_, ?_⟩
  · rintro (_ | ⟨first, before⟩) slot after hslots
    · cases hslots
      rfl
    · obtain ⟨rfl, hrest⟩ := List.cons.inj hslots
      rw [h.start before slot after hrest, List.map_cons, List.sum_cons, Nat.add_assoc]
  · rw [hused, Nat.add_sub_cancel_left]
  · have hsum := h.used
    simp only [List.map_cons, List.sum_cons]
    omega
  · intro hcount least hleast
    rw [List.length_append, List.length_singleton] at hcount hleast
    rw [Nat.min_eq_left hcount] at hshare
    have hfair : least ≤ share := hshare ▸ (Nat.le_div_iff_mul_le (by omega)).mpr hleast
    have hwhole := Nat.div_mul_le_self (hard - now) (left.length + 1)
    have hrest := Nat.mul_le_mul_right left.length hfair
    rw [← hshare, Nat.mul_succ] at hwhole
    exact List.forall_mem_cons.mpr
      ⟨Nat.add_le_add_left hfair now, h.fair (by omega) least (by omega)⟩

theorem terminateRecorded_shares (h : now < hard ∨ eligible ledger count = []) :
    Shares hard hooks now (eligible ledger count)
      (terminateRecorded hard hooks count ledger now).1 := by
  induction count generalizing ledger now with
  | zero => exact ⟨rfl, by simp [terminateRecorded], nofun, Nat.zero_le _, fun _ _ _ => nofun⟩
  | succ index ih =>
    simp only [terminateRecorded, eligible_succ] at h ⊢
    split at h
    next hnone =>
      rw [if_pos hnone, if_pos hnone, List.append_nil]
      exact ih (by simpa using h)
    next hsome =>
      have hlate : now < hard := by simpa using h
      rw [if_neg hsome, if_neg hsome, if_neg hlate.not_ge, List.length_append,
        List.length_singleton]
      have hnext : ∀ state now, now < hard ∨ eligible ledger index = [] →
          Shares hard hooks now (eligible ledger index)
            (terminateRecorded hard hooks index (terminationState ledger index state) now).1 := by
        intro state now hnow
        rw [← eligible_terminationState state] at hnow ⊢
        exact ih hnow
      refine .cons rfl rfl (hnext _ _ (or_iff_not_imp_right.mpr fun hmore => ?_)) hlate
      -- only the last hook may use all that is left
      have hmany := List.length_pos_iff.mpr hmore
      have hu32 : 2 ≤ u32Max := by decide
      have := Nat.div_lt_self (Nat.sub_pos_of_lt hlate)
        (show 1 < min ((eligible ledger index).length + 1) u32Max by omega)
      omega

/-- Every eligible hook is started when the one before it has stopped, with a deadline within the
capped one and at least the `k`-th part of the time that was left, as long as there are not more
hooks than the divisor can count. -/
theorem termination_shared (budget : QueueShutdownBudget) (deadline : Nat) (hooks : Nat → Hook)
    (ledger : DeliveryMiddlewareLedger) (now : Nat) (hnow : now < budget.cap deadline)
    (hcount : (eligible ledger ledger.length).length ≤ u32Max) :
    let hard := budget.cap deadline
    let hooked := eligible ledger ledger.length
    let slots := (terminateRecorded hard hooks ledger.length ledger now).1
    slots.map Slot.index = hooked.reverse ∧
      (∀ before slot after, slots = before ++ slot :: after →
        slot.start = now + (before.map Slot.used).sum) ∧
      (∀ slot ∈ slots, slot.divisor ≠ 0 ∧ slot.deadline ≤ hard ∧
        slot.start + (hard - now) / hooked.length ≤ slot.deadline ∧
        slot.used = min (hooks slot.index).duration (slot.deadline - slot.start)) ∧
      (slots.map Slot.used).sum ≤ hard - now := by
  intro hard hooked slots
  have h : Shares hard hooks now hooked slots := terminateRecorded_shares (.inl hnow)
  refine ⟨h.indices, h.start, fun slot hslot => ?_, h.used⟩
  obtain ⟨hdivisor, hdeadline, hused⟩ := h.each slot hslot
  exact ⟨hdivisor, hdeadline, h.fair hcount _ (Nat.div_mul_le_self _ _) slot hslot, hused⟩

/-- Three hooks that would take five each, in ten. -/
theorem termination_shared_three :
    let slots := (terminateRecorded 10 (fun _ => ⟨5, .completed, false⟩) 3 [{}, {}, {}] 0).1
    slots.map (fun slot => (slot.index, slot.start, slot.deadline)) =
        [(2, 0, 3), (1, 3, 6), (0, 6, 10)] ∧
      ∀ slot ∈ slots, slot.start + 10 / 3 ≤ slot.deadline :=
  ⟨by decide, fun slot hslot => ((termination_shared none 10 (fun _ => ⟨5, .completed, false⟩)
    [{}, {}, {}] 0 (by decide) (by decide)).2.2.1 slot hslot).2.2.1⟩

/-- Fresh hooks that never return. -/
def crowd (count hard : Nat) : List Slot :=
  (terminateRecorded hard (fun _ => ⟨hard, .completed, false⟩) count (List.replicate count {}) 0).1

theorem eligible_replicate (count : Nat) :
    eligible (List.replicate count {}) count = List.range count := by
  refine List.filter_eq_self.mpr fun entry hentry => ?_
  simp [eligibleTermination, List.mem_range.mp hentry]

theorem crowd_first (count : Nat) (h : 0 < hard) :
    ∃ first rest, crowd (count + 1) hard = first :: rest ∧
      first.deadline - first.start = hard / min (count + 1) u32Max := by
  simp only [crowd, terminateRecorded, eligible_replicate, List.length_range]
  simp [eligibleTermination, h.ne']

theorem exists_share_lt {count least : Nat} (hpositive : 0 < hard) (hleast : least ≤ hard)
    (h : hard < min hard (hard / min (count + 1) u32Max) + count * least) :
    ∃ slot ∈ crowd (count + 1) hard, slot.deadline < slot.start + least := by
  have hshares : Shares hard (fun _ => ⟨hard, .completed, false⟩) 0 (List.range (count + 1))
      (crowd (count + 1) hard) :=
    eligible_replicate (count + 1) ▸ terminateRecorded_shares (.inl hpositive)
  obtain ⟨first, rest, hslots, hfirst⟩ := crowd_first count hpositive
  rw [hslots] at hshares ⊢
  by_contra hall
  push Not at hall
  have hrest : ∀ used ∈ rest.map Slot.used, least ≤ used := by
    intro used hmem
    obtain ⟨slot, hslot, rfl⟩ := List.mem_map.mp hmem
    rw [(hshares.each slot (List.mem_cons_of_mem _ hslot)).2.2]
    exact Nat.le_min.mpr ⟨hleast, Nat.le_sub_of_add_le' (hall slot (List.mem_cons_of_mem _ hslot))⟩
  have hlength : rest.length = count := by simpa using congrArg List.length hshares.indices
  have hsum : count * least ≤ (rest.map Slot.used).sum := by
    simpa [hlength] using List.card_nsmul_le_sum _ _ hrest
  have hused := hshares.used
  simp only [List.map_cons, List.sum_cons, (hshares.each first List.mem_cons_self).2.2, hfirst]
    at hused
  omega

/-- With twice as many hooks as the divisor can count, the first takes twice its part, and so
another gets less than its own. -/
theorem share_lost : ∃ slot ∈ crowd (2 ^ 33) (2 ^ 67),
    slot.deadline + 1 < slot.start + 2 ^ 67 / 2 ^ 33 := by
  obtain ⟨slot, hslot, hlt⟩ : ∃ slot ∈ crowd (2 ^ 33 - 1 + 1) (2 ^ 67),
      slot.deadline < slot.start + (2 ^ 34 - 1) :=
    exists_share_lt (by decide) (by decide) (by decide)
  exact ⟨slot, hslot, by omega⟩

end Lily.Queue.Termination
