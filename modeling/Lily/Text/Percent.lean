import Mathlib.Data.List.Basic
import Mathlib.Algebra.Order.Ring.Int

/-!
# Percent encoding

A decoder is relied on only for texts in which every percent sign has its digits.
-/

namespace Percent

def hexValue (b : UInt8) : Option UInt8 :=
  if 48 ≤ b ∧ b ≤ 57 then some (b - 48)
  else if 65 ≤ b ∧ b ≤ 70 then some (b - 55)
  else if 97 ≤ b ∧ b ≤ 102 then some (b - 87)
  else none

/-- Two digits follow every percent sign. -/
def valid : List UInt8 → Bool
  | 37 :: high :: low :: raw => (hexValue high).isSome && (hexValue low).isSome && valid raw
  | 37 :: _ => false
  | _ :: raw => valid raw
  | [] => true

/-- The bytes on the left are an encoding of those on the right. -/
inductive Encodes : List UInt8 → List UInt8 → Prop where
  | nil : Encodes [] []
  | plain {b : UInt8} {raw text : List UInt8} (hb : b ≠ 37) (h : Encodes raw text) :
      Encodes (b :: raw) (b :: text)
  | escaped {high low h l : UInt8} {raw text : List UInt8} (hhigh : hexValue high = some h)
      (hlow : hexValue low = some l) (hrest : Encodes raw text) :
      Encodes (37 :: high :: low :: raw) ((h * 16 + l) :: text)

class Decoder where
  decode : List UInt8 → List UInt8
  decode_of_encodes {raw text : List UInt8} (h : Encodes raw text) : decode raw = text

theorem exists_encodes {raw : List UInt8} (h : valid raw = true) : ∃ text, Encodes raw text := by
  fun_induction valid raw with
  | case1 high low raw ih =>
    rw [Bool.and_eq_true, Bool.and_eq_true] at h
    obtain ⟨⟨hhigh, hlow⟩, hraw⟩ := h
    obtain ⟨high', hhigh⟩ := Option.isSome_iff_exists.mp hhigh
    obtain ⟨low', hlow⟩ := Option.isSome_iff_exists.mp hlow
    obtain ⟨text, htext⟩ := ih hraw
    exact ⟨_, .escaped hhigh hlow htext⟩
  | case2 => cases h
  | case3 b raw hlong hne ih =>
    obtain ⟨text, htext⟩ := ih h
    exact ⟨_, .plain hne htext⟩
  | case4 => exact ⟨[], .nil⟩

variable {raw text : List UInt8}

theorem Encodes.valid (h : Encodes raw text) : valid raw = true := by
  induction h with
  | nil => rfl
  | @plain b raw text hb h ih =>
    rw [Percent.valid]
    · exact ih
    all_goals simp [hb]
  | escaped hhigh hlow h ih =>
    rw [Percent.valid, hhigh, hlow, ih]
    rfl

theorem encodes_iff [Decoder] :
    Encodes raw text ↔ valid raw = true ∧ Decoder.decode raw = text := by
  constructor
  · exact fun h => ⟨h.valid, Decoder.decode_of_encodes h⟩
  · rintro ⟨hvalid, rfl⟩
    obtain ⟨text, htext⟩ := exists_encodes hvalid
    rwa [Decoder.decode_of_encodes htext]

theorem Encodes.length_le (h : Encodes raw text) : text.length ≤ raw.length := by
  induction h with
  | nil => exact le_rfl
  | plain hb h ih => exact Nat.succ_le_succ ih
  | escaped hhigh hlow h ih =>
    simp only [List.length_cons]
    omega

namespace Lenient

/-- A percent sign that no two digits follow stands for itself. -/
def decode : List UInt8 → List UInt8
  | 37 :: high :: low :: raw =>
    match hexValue high, hexValue low with
    | some h, some l => (h * 16 + l) :: decode raw
    | _, _ => 37 :: decode (high :: low :: raw)
  | b :: raw => b :: decode raw
  | [] => []

scoped instance : Decoder where
  decode
  decode_of_encodes h := by
    induction h with
    | nil => rfl
    | plain hb h ih =>
      rw [decode, ih]
      simp [hb]
    | escaped hhigh hlow h ih => rw [decode, hhigh, hlow, ih]

end Lenient

end Percent
