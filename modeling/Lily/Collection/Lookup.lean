import Mathlib.Data.List.AList
import Mathlib.Algebra.Order.Ring.Int

/-!
# Lookups in finite maps
-/

namespace Collection

variable {κ β : Type} [DecidableEq κ] {t : AList fun _ : κ => β} {k k' : κ} {v : β}

theorem lookup_insert_ite : (t.insert k v).lookup k' = if k' = k then some v else t.lookup k' := by
  split
  next h => rw [h, AList.lookup_insert]
  next h => rw [AList.lookup_insert_ne h]

theorem lookup_erase_ite : (t.erase k).lookup k' = if k' = k then none else t.lookup k' := by
  split
  next h => rw [h, AList.lookup_erase]
  next h => rw [AList.lookup_erase_ne h]

end Collection
