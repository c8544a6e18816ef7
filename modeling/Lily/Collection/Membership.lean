import Lily.Collection.Index
import Lily.Collection.Total

/-!
# How many entries a value is in

The number of the keys under which an index has a value. A new member makes it one larger for that
value alone, and a removal makes it no larger for any.
-/

namespace Collection

variable {κ α : Type} [DecidableEq α] {index : AList fun _ : κ => Finset α} {k : κ} {a b : α}

/-- The number of entries with the value. -/
def memberships (index : AList fun _ : κ => Finset α) (a : α) : Nat :=
  index.entries.countP fun entry => a ∈ entry.2

/-- An entry counts once if it has the value. -/
def counts (a : α) (_ : κ) (members : Finset α) : Nat := if a ∈ members then 1 else 0

theorem memberships_eq_total : memberships index a = total (counts a) index := by
  unfold memberships total
  induction index.entries with
  | nil => rfl
  | cons entry rest ih =>
    rw [List.countP_cons, ih, List.map_cons, List.sum_cons, Nat.add_comm]
    simp [counts]

variable [DecidableEq κ]

theorem memberships_insert (members : Finset α) :
    memberships (index.insert k members) a =
      counts a k members + memberships (index.erase k) a := by
  rw [memberships_eq_total, memberships_eq_total, ← total_insert_erase]
  refine total_congr _ fun k' => ?_
  simp only [lookup_insert_ite, lookup_erase_ite]
  split <;> rfl

theorem memberships_eq_part_add (index : AList fun _ : κ => Finset α) (k : κ) :
    memberships index a = part (counts a) index k + memberships (index.erase k) a := by
  rw [memberships_eq_total, total_eq_part_add (counts a) k, memberships_eq_total]

theorem memberships_addMember (b : α) :
    memberships (addMember index k a) b =
      memberships index b +
        if b = a ∧ ∀ members, index.lookup k = some members → a ∉ members then 1 else 0 := by
  unfold addMember
  rw [memberships_insert, memberships_eq_part_add index k, part]
  cases hlookup : index.lookup k with
  | none =>
    by_cases hb : b = a
    · simp [counts, hb, Nat.add_comm]
    · simp [counts, hb]
  | some members =>
    by_cases hb : b = a
    · by_cases ha : a ∈ members
      · simp [counts, hb, ha]
      · simp [counts, hb, ha, Nat.add_comm]
    · simp [counts, hb]

theorem memberships_removeMember_le (b : α) :
    memberships (removeMember index k a) b ≤ memberships index b := by
  unfold removeMember
  split
  next => exact le_rfl
  next members hlookup =>
    rw [memberships_eq_part_add index k, part_of_lookup _ hlookup]
    split
    · exact Nat.le_add_left _ _
    · rw [memberships_insert]
      refine Nat.add_le_add_right ?_ _
      simp only [counts, Finset.mem_erase]
      split_ifs <;> simp_all

theorem memberships_withdrawMember_le (b : α) :
    memberships (withdrawMember index a) b ≤ memberships index b := by
  unfold withdrawMember
  induction index.keys generalizing index with
  | nil => exact le_rfl
  | cons k rest ih => exact ih.trans (memberships_removeMember_le b)

end Collection
