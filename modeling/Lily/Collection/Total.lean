import Mathlib.Data.List.AList
import Mathlib.Algebra.BigOperators.Group.List.Basic
import Mathlib.Algebra.Order.Ring.Int

/-!
# Totals over finite maps

A finite map is an association list without repeated keys. The total of a weight over
its entries depends on the lookups alone, so it can be computed key by key: split off
the part of one key, or of a list of keys, and keep the total of what is left.
-/

namespace Collection

variable {κ β : Type} [DecidableEq κ] (f : κ → β → Nat)

/-- The sum of a weight over all entries. -/
def total (t : AList fun _ : κ => β) : Nat := (t.entries.map fun entry => f entry.1 entry.2).sum

/-- The part of one key, which is nothing when the key is absent. -/
def part (t : AList fun _ : κ => β) (k : κ) : Nat := (t.lookup k).elim 0 (f k)

variable {t t' : AList fun _ : κ => β} {k : κ} {v : β}

theorem entries_perm (h : ∀ k, t.lookup k = t'.lookup k) : t.entries.Perm t'.entries :=
  List.lookup_ext t.nodupKeys t'.nodupKeys fun k v => by
    rw [show t.entries.dlookup k = t'.entries.dlookup k from h k]

theorem total_congr (h : ∀ k, t.lookup k = t'.lookup k) : total f t = total f t' :=
  ((entries_perm h).map _).sum_eq

theorem part_congr (h : t.lookup k = t'.lookup k) : part f t k = part f t' k := by
  rw [part, part, h]

theorem part_of_lookup (h : t.lookup k = some v) : part f t k = f k v := by
  rw [part, h]
  rfl

theorem total_insert_erase : total f ((t.erase k).insert k v) = f k v + total f (t.erase k) := by
  have hfresh : k ∉ t.erase k := by simp
  rw [total, AList.entries_insert_of_notMem hfresh, List.map_cons, List.sum_cons, total]

theorem total_eq_part_add (k : κ) : total f t = part f t k + total f (t.erase k) := by
  cases hlookup : t.lookup k with
  | some v =>
    rw [part_of_lookup f hlookup, ← total_insert_erase]
    refine total_congr f fun k' => ?_
    by_cases hk : k' = k
    · subst hk
      rw [hlookup, AList.lookup_insert]
    · rw [AList.lookup_insert_ne hk, AList.lookup_erase_ne hk]
  | none =>
    have hpart : part f t k = 0 := by rw [part, hlookup]; rfl
    rw [hpart, Nat.zero_add]
    refine total_congr f fun k' => ?_
    by_cases hk : k' = k
    · subst hk
      rw [hlookup, AList.lookup_erase]
    · rw [AList.lookup_erase_ne hk]

/-- Remove several keys. -/
def eraseAll (t : AList fun _ : κ => β) (ks : List κ) : AList fun _ : κ => β :=
  ks.foldl (fun t k => t.erase k) t

theorem lookup_eraseAll (ks : List κ) (k : κ) :
    (eraseAll t ks).lookup k = if k ∈ ks then none else t.lookup k := by
  induction ks generalizing t with
  | nil => simp [eraseAll]
  | cons key rest ih =>
    rw [eraseAll, List.foldl_cons, ← eraseAll, ih]
    by_cases hrest : k ∈ rest
    · simp [hrest]
    · obtain rfl | hkey := eq_or_ne k key
      · simp [hrest]
      · simp [hrest, hkey, AList.lookup_erase_ne hkey]

/-- The total splits into the parts of some keys and the total over the others. -/
theorem total_eq_parts_add {ks : List κ} (hnodup : ks.Nodup) :
    total f t = (ks.map (part f t)).sum + total f (eraseAll t ks) := by
  induction ks generalizing t with
  | nil => simp [eraseAll]
  | cons key rest ih =>
    rw [List.nodup_cons] at hnodup
    have hparts : rest.map (part f (t.erase key)) = rest.map (part f t) := by
      refine List.map_congr_left fun k hk => part_congr f ?_
      exact AList.lookup_erase_ne fun heq => hnodup.1 (heq ▸ hk)
    rw [total_eq_part_add f key, ih hnodup.2, hparts, List.map_cons, List.sum_cons, eraseAll,
      eraseAll, List.foldl_cons, Nat.add_assoc]

theorem forall_entries_iff {P : κ → β → Prop} :
    (∀ entry ∈ t.entries, P entry.1 entry.2) ↔ ∀ k v, t.lookup k = some v → P k v := by
  constructor
  · intro h k v hlookup
    exact h ⟨k, v⟩ (AList.mem_lookup_iff.mp hlookup)
  · rintro h ⟨k, v⟩ hmem
    exact h k v (AList.mem_lookup_iff.mpr hmem)

end Collection
