import Lily.Collection.Lookup
import Mathlib.Data.Finset.Insert
import Mathlib.Data.Finset.Erase

/-!
# Indexes

An index stores a relation between keys and values as a finite map from keys to sets of values. It
has no entry for a key without values, so an entry is removed with its last value.
-/

namespace Collection

variable {κ α : Type} [DecidableEq κ]

/-- The index stores the relation. -/
structure Indexes (index : AList fun _ : κ => Finset α) (R : κ → α → Prop) : Prop where
  members : ∀ k a, (∃ members, index.lookup k = some members ∧ a ∈ members) ↔ R k a
  nonempty : ∀ k, index.lookup k ≠ some ∅

namespace Indexes

variable {index : AList fun _ : κ => Finset α} {R R' : κ → α → Prop}

theorem empty (h : ∀ k a, ¬R k a) : Indexes (∅ : AList fun _ : κ => Finset α) R :=
  ⟨fun k a => by simp [h], fun k => by simp⟩

theorem congr (h : Indexes index R) (hR : ∀ k a, R' k a ↔ R k a) : Indexes index R' :=
  ⟨fun k a => (h.members k a).trans (hR k a).symm, h.nonempty⟩

end Indexes

variable [DecidableEq α]

def addMember (index : AList fun _ : κ => Finset α) (k : κ) (a : α) : AList fun _ : κ => Finset α :=
  index.insert k (insert a ((index.lookup k).getD ∅))

def removeMember (index : AList fun _ : κ => Finset α) (k : κ) (a : α) :
    AList fun _ : κ => Finset α :=
  match index.lookup k with
  | none => index
  | some members =>
    if members.erase a = ∅ then index.erase k else index.insert k (members.erase a)

/-- A value is removed from all entries. -/
def withdrawMember (index : AList fun _ : κ => Finset α) (a : α) : AList fun _ : κ => Finset α :=
  index.keys.foldl (fun index k => removeMember index k a) index

namespace Indexes

variable {index : AList fun _ : κ => Finset α} {R R' : κ → α → Prop} {k : κ} {a : α}

theorem addMember (h : Indexes index R) (hR : ∀ k' a', R' k' a' ↔ R k' a' ∨ k' = k ∧ a' = a) :
    Indexes (addMember index k a) R' := by
  refine ⟨fun k' a' => ?_, fun k' => ?_⟩
  · rw [hR, ← h.members]
    by_cases hk : k' = k
    · subst hk
      cases hlookup : index.lookup k' <;>
        simp [Collection.addMember, hlookup, or_comm]
    · simp [Collection.addMember, hk]
  · by_cases hk : k' = k
    · simp [Collection.addMember, lookup_insert_ite, hk]
    · simpa [Collection.addMember, lookup_insert_ite, hk] using h.nonempty k'

theorem removeMember (h : Indexes index R) (hR : ∀ k' a', R' k' a' ↔ R k' a' ∧ ¬(k' = k ∧ a' = a)) :
    Indexes (removeMember index k a) R' := by
  unfold Collection.removeMember
  split
  next hnone =>
    refine h.congr fun k' a' => ?_
    rw [hR, and_iff_left_iff_imp, ← h.members]
    rintro ⟨members, hlookup, -⟩ ⟨rfl, -⟩
    cases hnone.symm.trans hlookup
  next members hsome =>
    -- The key is looked up as the old set without the value, or not at all.
    have hkey : ∀ a', (a' ∈ members.erase a ↔ R' k a') := by
      intro a'
      rw [hR, ← h.members, Finset.mem_erase]
      simp [hsome, and_comm]
    have hother : ∀ k' a', k' ≠ k → (R' k' a' ↔ R k' a') := by
      intro k' a' hk
      rw [hR]
      simp [hk]
    split
    next hempty =>
      refine ⟨fun k' a' => ?_, fun k' => ?_⟩
      · by_cases hk : k' = k
        · subst hk
          simp [← hkey, hempty]
        · simp [hk, hother, h.members]
      · by_cases hk : k' = k
        · simp [lookup_erase_ite, hk]
        · simpa [lookup_erase_ite, hk] using h.nonempty k'
    next hrest =>
      refine ⟨fun k' a' => ?_, fun k' => ?_⟩
      · by_cases hk : k' = k
        · subst hk
          simp [← hkey]
        · simp [hk, hother, h.members]
      · by_cases hk : k' = k
        · simpa [lookup_insert_ite, hk] using hrest
        · simpa [lookup_insert_ite, hk] using h.nonempty k'

theorem withdrawMember (h : Indexes index R) (hR : ∀ k' a', R' k' a' ↔ R k' a' ∧ a' ≠ a) :
    Indexes (withdrawMember index a) R' := by
  have hfold (ks : List κ) (index : AList fun _ : κ => Finset α) (R : κ → α → Prop)
      (h : Indexes index R) :
      Indexes (ks.foldl (fun index k => Collection.removeMember index k a) index)
        fun k' a' => R k' a' ∧ ¬(k' ∈ ks ∧ a' = a) := by
    induction ks generalizing index R with
    | nil => exact h.congr fun k' a' => by simp
    | cons k rest ih =>
      refine (ih _ _ (h.removeMember fun _ _ => Iff.rfl)).congr fun k' a' => ?_
      simp only [List.mem_cons]
      tauto
  refine (hfold index.keys index R h).congr fun k' a' => ?_
  rw [hR]
  refine and_congr_right fun hmember => not_congr ⟨fun heq => ⟨?_, heq⟩, fun hboth => hboth.2⟩
  obtain ⟨members, hlookup, -⟩ := (h.members k' a').mpr hmember
  exact AList.mem_keys.mp (AList.lookup_isSome.mp (Option.isSome_of_eq_some hlookup))

end Indexes

end Collection
