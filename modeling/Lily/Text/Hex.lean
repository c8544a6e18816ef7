import Lily.Text.Utf8

/-!
# Hexadecimal numerals of a fixed width
-/

namespace Hex

/-- The last digits of a number, the highest first. -/
def digits : Nat → Nat → List Nat
  | 0, _ => []
  | width + 1, n => digits width (n / 16) ++ [n % 16]

def value (ds : List Nat) : Nat := ds.foldl (fun n d => n * 16 + d) 0

def digitChar (d : Nat) : Char := if d < 10 then Char.ofNat (48 + d) else Char.ofNat (87 + d)

def charDigit (c : Char) : Nat := if c.toNat < 58 then c.toNat - 48 else c.toNat - 87

variable (width n : Nat)

def text : String := String.ofList ((digits width n).map digitChar)

theorem length_digits : (digits width n).length = width := by
  induction width generalizing n with
  | zero => rfl
  | succ width ih => rw [digits, List.length_append, ih, List.length_singleton]

theorem digits_lt {width n d : Nat} (h : d ∈ digits width n) : d < 16 := by
  induction width generalizing n with
  | zero => cases h
  | succ width ih =>
    rw [digits, List.mem_append, List.mem_singleton] at h
    rcases h with h | rfl
    · exact ih h
    · exact Nat.mod_lt n (by decide)

/-- A numeral is two numerals. -/
theorem digits_append (high low n : Nat) :
    digits (high + low) n = digits high (n / 16 ^ low) ++ digits low n := by
  induction low generalizing n with
  | zero => rw [Nat.pow_zero, Nat.div_one, digits, List.append_nil, Nat.add_zero]
  | succ low ih =>
    rw [← Nat.add_assoc, digits, digits, ih, Nat.div_div_eq_div_mul, Nat.pow_succ',
      List.append_assoc]

theorem value_digits : value (digits width n) = n % 16 ^ width := by
  induction width generalizing n with
  | zero => rw [Nat.pow_zero, Nat.mod_one, digits, value, List.foldl_nil]
  | succ width ih =>
    have hprefix : (digits width (n / 16)).foldl (fun n d => n * 16 + d) 0 =
        n / 16 % 16 ^ width := ih (n / 16)
    rw [digits, value, List.foldl_append, hprefix, List.foldl_cons, List.foldl_nil, Nat.pow_succ',
      Nat.mod_mul]
    omega

theorem utf8Size_digitChar : ∀ d < 16, (digitChar d).utf8Size = 1 := by
  decide

theorem charDigit_digitChar : ∀ d < 16, charDigit (digitChar d) = d := by
  decide

theorem digitChar_ne_dash : ∀ d < 16, digitChar d ≠ '-' := by
  decide

theorem utf8ByteSize_text : (text width n).utf8ByteSize = width := by
  rw [text, String.utf8ByteSize_ofList, Utf8.utf8Len_eq_length, List.length_map, length_digits]
  intro c hc
  obtain ⟨d, hd, rfl⟩ := List.mem_map.mp hc
  exact utf8Size_digitChar d (digits_lt hd)

theorem charDigit_text : (text width n).toList.map charDigit = digits width n := by
  rw [text, String.toList_ofList, List.map_map]
  refine (List.map_congr_left fun d hd => ?_).trans (List.map_id _)
  exact charDigit_digitChar d (digits_lt hd)

theorem dash_notMem_text : '-' ∉ (text width n).toList := by
  rw [text, String.toList_ofList, List.mem_map]
  rintro ⟨d, hd, heq⟩
  exact digitChar_ne_dash d (digits_lt hd) heq

end Hex
