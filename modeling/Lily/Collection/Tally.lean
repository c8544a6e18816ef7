import Mathlib.Data.Finset.Card
import Mathlib.Algebra.Order.Ring.Int

/-!
# Tallies

A tally is a number that says how many values have a property. It follows the property through
single changes: one value more, one value less.
-/

namespace Collection

variable {α : Type}

/-- Exactly `n` values have the property. -/
def Tally (p : α → Prop) (n : Nat) : Prop :=
  ∃ members : Finset α, (∀ a, a ∈ members ↔ p a) ∧ members.card = n

namespace Tally

variable {p q : α → Prop} {n : Nat} {a b : α}

theorem empty (h : ∀ a, ¬p a) : Tally p 0 :=
  ⟨∅, fun a => by simp [h a], Finset.card_empty⟩

theorem congr (h : Tally p n) (hq : ∀ a, q a ↔ p a) : Tally q n := by
  obtain ⟨members, hmembers, hcard⟩ := h
  exact ⟨members, fun a => (hmembers a).trans (hq a).symm, hcard⟩

theorem insert (h : Tally p n) (ha : ¬p a) (hq : ∀ b, q b ↔ b = a ∨ p b) : Tally q (n + 1) := by
  classical
  obtain ⟨members, hmembers, hcard⟩ := h
  refine ⟨Insert.insert a members, fun b => ?_, ?_⟩
  · rw [Finset.mem_insert, hmembers, hq]
  · rw [Finset.card_insert_of_notMem (by rwa [hmembers]), hcard]

theorem erase (h : Tally p n) (ha : p a) (hq : ∀ b, q b ↔ b ≠ a ∧ p b) : Tally q (n - 1) := by
  classical
  obtain ⟨members, hmembers, hcard⟩ := h
  refine ⟨members.erase a, fun b => ?_, ?_⟩
  · rw [Finset.mem_erase, hmembers, hq]
  · rw [Finset.card_erase_of_mem ((hmembers a).mpr ha), hcard]

theorem pos (h : Tally p n) (ha : p a) : 0 < n := by
  obtain ⟨members, hmembers, hcard⟩ := h
  rw [← hcard]
  exact Finset.card_pos.mpr ⟨a, (hmembers a).mpr ha⟩

theorem none (h : Tally p 0) (a : α) : ¬p a :=
  fun ha => absurd (h.pos ha) (Nat.lt_irrefl 0)

theorem only (h : Tally p 1) (ha : p a) (hb : p b) : b = a := by
  obtain ⟨members, hmembers, hcard⟩ := h
  obtain ⟨member, rfl⟩ := Finset.card_eq_one.mp hcard
  have hfirst := (hmembers a).mpr ha
  have hsecond := (hmembers b).mpr hb
  rw [Finset.mem_singleton] at hfirst hsecond
  rw [hfirst, hsecond]

/-- A property that is one of two, never both, is tallied by both. -/
theorem split {r : α → Prop} (h : Tally p n) (hp : ∀ a, p a ↔ q a ∨ r a)
    (hdisjoint : ∀ a, q a → ¬r a) : ∃ m k, Tally q m ∧ Tally r k ∧ n = m + k := by
  classical
  obtain ⟨members, hmembers, hcard⟩ := h
  refine ⟨_, _, ⟨members.filter q, fun a => ?_, rfl⟩,
    ⟨members.filter fun a => ¬q a, fun a => ?_, rfl⟩, ?_⟩
  · rw [Finset.mem_filter, hmembers, hp]
    exact ⟨And.right, fun hq => ⟨.inl hq, hq⟩⟩
  · rw [Finset.mem_filter, hmembers, hp]
    exact ⟨fun ha => ha.1.resolve_left ha.2, fun hr => ⟨.inr hr, fun hq => hdisjoint a hq hr⟩⟩
  · rw [← hcard, Finset.card_filter_add_card_filter_not]

end Tally

end Collection
