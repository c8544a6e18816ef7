import Lily.Control.Validation
import Mathlib.Data.Finmap

/-!
# Maps from their entries

A loop that puts entries into a map and stops at a key it has seen, or when the map is full, gives
back a map from its entries in any order.
-/

namespace Collection

variable {α : Type} {β : α → Type} {ε : Type}

theorem card_keys (s : Finmap β) : s.keys.card = s.entries.card := by
  induction s using Finmap.induction_on with
  | H s =>
    show (s.keys : Multiset α).card = (s.entries : Multiset (Sigma β)).card
    rw [Multiset.coe_card, Multiset.coe_card]
    exact List.length_map _

variable [DecidableEq α]

/-- The key of an entry that comes later is not there yet. -/
theorem notMem_of_entries {m s : Finmap β} {done rest : List (Sigma β)} {e : Sigma β}
    (hm : ((done ++ e :: rest : List (Sigma β)) : Multiset (Sigma β)) = m.entries)
    (hs : s.entries = done) : e.1 ∉ s := by
  intro hmem
  obtain ⟨b, hb⟩ := Finmap.mem_iff.mp hmem
  have hdone : (⟨e.1, b⟩ : Sigma β) ∈ done := by
    have hentry := Finmap.mem_lookup_iff.mp (Option.mem_def.mpr hb)
    rwa [hs, Multiset.mem_coe] at hentry
  have hnodup : ((done ++ e :: rest).map Sigma.fst).Nodup := by
    have hkeys := m.nodupKeys
    rw [← hm, Multiset.coe_nodupKeys] at hkeys
    exact hkeys
  rw [List.map_append, List.nodup_append] at hnodup
  exact hnodup.2.2 e.1 (List.mem_map.mpr ⟨_, hdone, rfl⟩) e.1 (by simp) rfl

/-- A loop over the entries of a map that accepts every new key while there is room. -/
theorem foldlM_entries (step : Finmap β → Sigma β → Except ε (Finmap β)) {limit : Nat}
    {m : Finmap β} {entries : List (Sigma β)}
    (hentries : (entries : Multiset (Sigma β)) = m.entries)
    (hlimit : m.keys.card ≤ limit) (hstep : ∀ s e, e ∈ m.entries → e.1 ∉ s → s.keys.card < limit →
      step s e = .ok (s.insert e.1 e.2)) : entries.foldlM step ∅ = .ok m := by
  have hloop : ∃ final, entries.foldlM step ∅ = .ok final ∧ final.entries = entries := by
    refine Validation.foldlM_total
      (P := fun (done : List (Sigma β)) (s : Finmap β) => s.entries = done) rfl
      fun done e rest s hsplit hs => ?_
    subst hsplit
    have hnew := notMem_of_entries hentries hs
    have hroom : s.keys.card < limit := by
      rw [card_keys] at hlimit ⊢
      rw [← hentries, Multiset.coe_card, List.length_append, List.length_cons] at hlimit
      rw [hs, Multiset.coe_card]
      omega
    refine ⟨s.insert e.1 e.2, hstep s e ?_ hnew hroom, ?_⟩
    · rw [← hentries, Multiset.mem_coe]
      simp
    · rw [Finmap.entries_insert_of_notMem hnew, hs, Multiset.cons_coe, Multiset.coe_eq_coe]
      exact (List.perm_append_singleton e done).symm
  obtain ⟨final, hfinal, hdone⟩ := hloop
  rw [hfinal, Finmap.ext (hdone.trans hentries)]

end Collection
