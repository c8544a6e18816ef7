import Mathlib.Data.Finset.Card
import Mathlib.Algebra.Order.Ring.Int

/-!
# Fair semaphores

A permit that is given back goes to the first of those who wait for one, and is free for anybody
only when nobody waits. Whoever is given a permit that way holds it before knowing of it, so to
stop waiting is to give back what one may have been given.
-/

namespace Transition

variable {ι : Type}

/-- A semaphore with its permits: who holds one, and who waits for one. -/
structure Semaphore (ι : Type) (permits : Nat) where
  holders : List ι
  waiters : List ι
  bounded : holders.length ≤ permits
  full : waiters ≠ [] → holders.length = permits
  distinct : (holders ++ waiters).Nodup

namespace Semaphore

variable {permits : Nat}

def new (permits : Nat) : Semaphore ι permits where
  holders := []
  waiters := []
  bounded := Nat.zero_le _
  full := fun h => absurd rfl h
  distinct := List.nodup_nil

def Free (s : Semaphore ι permits) : Prop := s.holders.length < permits

variable {s : Semaphore ι permits} {i : ι}

theorem full_of_not_free (h : ¬s.Free) : s.holders.length = permits :=
  Nat.le_antisymm s.bounded (Nat.le_of_not_lt h)

theorem not_mem_waiters_of_free (h : s.Free) (i : ι) : i ∉ s.waiters := by
  intro hi
  exact absurd (s.full (List.ne_nil_of_mem hi)) (Nat.ne_of_lt h)

theorem not_mem_waiters (h : i ∈ s.holders) : i ∉ s.waiters :=
  fun hi => (List.nodup_append.mp s.distinct).2.2 i h i hi rfl

/-- No more than the permits are held at a time. -/
theorem card_le (s : Semaphore ι permits) {parties : Finset ι} (h : ∀ i ∈ parties, i ∈ s.holders) :
    parties.card ≤ permits := by
  classical
  have hsub : parties ⊆ s.holders.toFinset := fun i hi => List.mem_toFinset.mpr (h i hi)
  exact ((Finset.card_le_card hsub).trans s.holders.toFinset_card_le).trans s.bounded

/-- With a permit to give, somebody holds one whenever somebody waits. -/
theorem exists_holder (hpermits : 0 < permits) (h : ¬s.Free) : ∃ i, i ∈ s.holders := by
  have hlength := full_of_not_free h
  exact List.exists_mem_of_length_pos (by omega)

theorem head_append_tail (l : List ι) : l.head?.toList ++ l.tail = l := by
  cases l <;> rfl

/-- What a party has to do with a semaphore. -/
inductive Claim where
  | none
  | asked
  | held
  deriving DecidableEq

def Standing (s : Semaphore ι permits) (i : ι) : Claim → Prop
  | .none => i ∉ s.holders ∧ i ∉ s.waiters
  | .asked => i ∈ s.holders ∨ i ∈ s.waiters
  | .held => i ∈ s.holders

theorem standing_new (i : ι) : (new permits : Semaphore ι permits).Standing i .none :=
  ⟨List.not_mem_nil, List.not_mem_nil⟩

/-- The standing of a party depends on its membership only. -/
theorem Standing.congr {s t : Semaphore ι permits} {i : ι} {claim : Claim}
    (h : s.Standing i claim) (hholders : claim ≠ .asked → (i ∈ t.holders ↔ i ∈ s.holders))
    (hboth : i ∈ t.holders ∨ i ∈ t.waiters ↔ i ∈ s.holders ∨ i ∈ s.waiters) :
    t.Standing i claim := by
  cases claim with
  | none => exact not_or.mp fun hmem => not_or.mpr h (hboth.mp hmem)
  | asked => exact hboth.mpr h
  | held => exact (hholders nofun).mpr h

/-- Only a party that has asked is among those that wait. -/
theorem Standing.asked_of_waits {claim : Claim} (h : s.Standing i claim) (hwaits : i ∈ s.waiters) :
    claim = .asked := by
  cases claim with
  | none => exact absurd hwaits h.2
  | asked => rfl
  | held => exact absurd hwaits (not_mem_waiters h)

section Operations

variable [DecidableEq ι]

/-- A party that has not asked yet asks for a permit. -/
def acquire (s : Semaphore ι permits) (i : ι) : Semaphore ι permits :=
  if hnew : i ∈ s.holders ++ s.waiters then s
  else if hfree : s.holders.length < permits then
    { holders := i :: s.holders
      waiters := s.waiters
      bounded := hfree
      full := fun h => absurd (s.full h) (Nat.ne_of_lt hfree)
      distinct := List.nodup_cons.mpr ⟨hnew, s.distinct⟩ }
  else
    { holders := s.holders
      waiters := s.waiters ++ [i]
      bounded := s.bounded
      full := fun _ => full_of_not_free hfree
      distinct := by
        rw [← List.append_assoc, ← List.concat_eq_append]
        exact s.distinct.concat hnew }

theorem handed_perm (holders waiters : List ι) (i : ι) :
    ((waiters.head?.toList ++ holders.erase i) ++ waiters.tail).Perm
      (holders.erase i ++ waiters) := by
  refine (List.perm_append_comm.append_right _).trans ?_
  rw [List.append_assoc, head_append_tail]

/-- A party gives back its permit, or stops waiting for one. -/
def release (s : Semaphore ι permits) (i : ι) : Semaphore ι permits :=
  if hheld : i ∈ s.holders then
    { holders := s.waiters.head?.toList ++ s.holders.erase i
      waiters := s.waiters.tail
      bounded := by
        have hlength := List.length_erase_of_mem hheld
        have hpos := List.length_pos_of_mem hheld
        have hbounded := s.bounded
        cases hwaiters : s.waiters with
        | nil => simp; omega
        | cons first rest => simp; omega
      full := fun h => by
        have hlength := List.length_erase_of_mem hheld
        have hpos := List.length_pos_of_mem hheld
        cases hwaiters : s.waiters with
        | nil => simp [hwaiters] at h
        | cons first rest =>
          have hfull := s.full (by simp [hwaiters])
          simp; omega
      distinct := (handed_perm s.holders s.waiters i).nodup_iff.mpr
        (s.distinct.sublist ((List.erase_sublist).append_right _)) }
  else
    { holders := s.holders
      waiters := s.waiters.erase i
      bounded := s.bounded
      full := fun h => s.full fun hnil => h (by rw [hnil]; rfl)
      distinct := s.distinct.sublist ((List.erase_sublist).append_left _) }

variable {s : Semaphore ι permits} {i j : ι}

theorem acquire_of_free (hnone : s.Standing i .none) (hfree : s.Free) :
    (s.acquire i).holders = i :: s.holders ∧ (s.acquire i).waiters = s.waiters := by
  have hnew : i ∉ s.holders ++ s.waiters := fun h => not_or.mpr hnone (List.mem_append.mp h)
  have hlength : s.holders.length < permits := hfree
  simp only [acquire, hnew, hlength, dite_true, dite_false, and_self]

theorem acquire_of_not_free (hnone : s.Standing i .none) (hfull : ¬s.Free) :
    (s.acquire i).holders = s.holders ∧ (s.acquire i).waiters = s.waiters ++ [i] := by
  have hnew : i ∉ s.holders ++ s.waiters := fun h => not_or.mpr hnone (List.mem_append.mp h)
  have hlength : ¬s.holders.length < permits := hfull
  simp only [acquire, hnew, hlength, dite_false, and_self]

theorem standing_acquire (hnone : s.Standing i .none) : (s.acquire i).Standing i .asked := by
  by_cases hfree : s.Free
  · exact .inl (by simp [(acquire_of_free hnone hfree).1])
  · exact .inr (by simp [(acquire_of_not_free hnone hfree).2])

theorem standing_acquire_other {claim : Claim} (hnone : s.Standing i .none) (hj : j ≠ i)
    (h : s.Standing j claim) : (s.acquire i).Standing j claim := by
  by_cases hfree : s.Free
  · obtain ⟨hholders, hwaiters⟩ := acquire_of_free hnone hfree
    exact h.congr (fun _ => by simp [hholders, hj]) (by simp [hholders, hwaiters, hj])
  · obtain ⟨hholders, hwaiters⟩ := acquire_of_not_free hnone hfree
    exact h.congr (fun _ => by simp [hholders]) (by simp [hholders, hwaiters, hj])

theorem release_of_held (h : i ∈ s.holders) :
    (s.release i).holders = s.waiters.head?.toList ++ s.holders.erase i ∧
      (s.release i).waiters = s.waiters.tail := by
  simp only [release, h, dite_true, and_self]

theorem release_of_not_held (h : i ∉ s.holders) :
    (s.release i).holders = s.holders ∧ (s.release i).waiters = s.waiters.erase i := by
  simp only [release, h, dite_false, and_self]

theorem mem_release : j ∈ (s.release i).holders ∨ j ∈ (s.release i).waiters ↔
    j ≠ i ∧ (j ∈ s.holders ∨ j ∈ s.waiters) := by
  obtain ⟨hholders, hwaiters, hdisjoint⟩ := List.nodup_append.mp s.distinct
  rw [← List.mem_append, ← List.mem_append]
  by_cases h : i ∈ s.holders
  · obtain ⟨hafter, hafter'⟩ := release_of_held h
    rw [hafter, hafter', (handed_perm s.holders s.waiters i).mem_iff, List.mem_append,
      hholders.mem_erase_iff, List.mem_append]
    constructor
    · rintro (⟨hne, hheld⟩ | hwaits)
      · exact ⟨hne, .inl hheld⟩
      · exact ⟨fun hji => hdisjoint i h j hwaits hji.symm, .inr hwaits⟩
    · rintro ⟨hne, hmem⟩
      exact hmem.imp (fun hheld => ⟨hne, hheld⟩) id
  · obtain ⟨hafter, hafter'⟩ := release_of_not_held h
    rw [hafter, hafter', List.mem_append, hwaiters.mem_erase_iff, List.mem_append]
    constructor
    · rintro (hheld | ⟨hne, hwaits⟩)
      · exact ⟨fun hji => h (hji ▸ hheld), .inl hheld⟩
      · exact ⟨hne, .inr hwaits⟩
    · rintro ⟨hne, hmem⟩
      exact hmem.imp id fun hwaits => ⟨hne, hwaits⟩

theorem standing_release (s : Semaphore ι permits) (i : ι) : (s.release i).Standing i .none :=
  not_or.mp fun h => (mem_release.mp h).1 rfl

theorem mem_holders_release_of_ne (hj : j ≠ i) (h : j ∈ s.holders) : j ∈ (s.release i).holders := by
  by_cases hheld : i ∈ s.holders
  · rw [(release_of_held hheld).1]
    exact List.mem_append_right _ ((List.mem_erase_of_ne hj).mpr h)
  · rw [(release_of_not_held hheld).1]
    exact h

theorem mem_waiters_of_release (h : j ∈ (s.release i).waiters) : j ∈ s.waiters := by
  by_cases hheld : i ∈ s.holders
  · rw [(release_of_held hheld).2] at h
    exact List.mem_of_mem_tail h
  · rw [(release_of_not_held hheld).2] at h
    exact List.mem_of_mem_erase h

theorem standing_release_other {claim : Claim} (hj : j ≠ i) (h : s.Standing j claim) :
    (s.release i).Standing j claim := by
  have hboth : j ∈ (s.release i).holders ∨ j ∈ (s.release i).waiters ↔
      j ∈ s.holders ∨ j ∈ s.waiters := mem_release.trans (and_iff_right hj)
  cases claim with
  | none => exact not_or.mp fun hmem => not_or.mpr h (hboth.mp hmem)
  | asked => exact hboth.mpr h
  | held => exact mem_holders_release_of_ne hj h

/-- A permit that is given back is free, or it has a new holder. -/
theorem release_passes (h : i ∈ s.holders) :
    (s.release i).Free ∨ ∃ j ∈ s.waiters, j ∈ (s.release i).holders := by
  cases hwaiters : s.waiters with
  | nil =>
    left
    have hlength := List.length_erase_of_mem h
    have hpos := List.length_pos_of_mem h
    have hbounded := s.bounded
    rw [Free, (release_of_held h).1, hwaiters]
    simp
    omega
  | cons first rest =>
    right
    refine ⟨first, List.mem_cons_self, ?_⟩
    rw [(release_of_held h).1, hwaiters]
    exact List.mem_cons_self

theorem free_release (h : s.Free) : (s.release i).Free := by
  by_cases hheld : i ∈ s.holders
  · rcases release_passes hheld with hfree | ⟨j, hwaits, -⟩
    · exact hfree
    · exact absurd hwaits (not_mem_waiters_of_free h j)
  · rw [Free, (release_of_not_held hheld).1]
    exact h

end Operations

end Semaphore

end Transition
