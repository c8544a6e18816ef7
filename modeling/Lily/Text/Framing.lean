import Mathlib.Data.List.Basic
import Mathlib.Algebra.Order.Ring.Int

/-!
# Byte frames

Numbers as big-endian bytes of a fixed width, and texts with their length in front, so that what
follows a text cannot be taken for a part of it.
-/

namespace Framing

/-- The last `width` bytes of a number, the highest first. -/
def bigEndian : Nat → Nat → List UInt8
  | 0, _ => []
  | width + 1, n => bigEndian width (n / 256) ++ [UInt8.ofNat n]

theorem length_bigEndian (width n : Nat) : (bigEndian width n).length = width := by
  induction width generalizing n with
  | zero => rfl
  | succ width ih => rw [bigEndian, List.length_append, ih, List.length_singleton]

theorem bigEndian_inj {width m n : Nat} (hm : m < 256 ^ width) (hn : n < 256 ^ width)
    (h : bigEndian width m = bigEndian width n) : m = n := by
  induction width generalizing m n with
  | zero =>
    rw [Nat.pow_zero] at hm hn
    omega
  | succ width ih =>
    rw [Nat.pow_succ] at hm hn
    obtain ⟨hhigh, hlow⟩ := List.append_inj h (by rw [length_bigEndian, length_bigEndian])
    have hdiv : m / 256 = n / 256 := ih (by omega) (by omega) hhigh
    have hbyte := congrArg UInt8.toNat (List.cons.inj hlow).1
    rw [UInt8.toNat_ofNat', UInt8.toNat_ofNat'] at hbyte
    omega

/-- A text with its length in front. -/
def frame (width : Nat) (bytes : List UInt8) : List UInt8 :=
  bigEndian width bytes.length ++ bytes

theorem frame_append_inj {width : Nat} {bytes bytes' rest rest' : List UInt8}
    (hlength : bytes.length < 256 ^ width) (hlength' : bytes'.length < 256 ^ width)
    (h : frame width bytes ++ rest = frame width bytes' ++ rest') :
    bytes = bytes' ∧ rest = rest' := by
  rw [frame, frame, List.append_assoc, List.append_assoc] at h
  obtain ⟨hcount, htail⟩ := List.append_inj h (by rw [length_bigEndian, length_bigEndian])
  exact List.append_inj htail (bigEndian_inj hlength hlength' hcount)

end Framing
