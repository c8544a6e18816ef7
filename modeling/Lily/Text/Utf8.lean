import Mathlib.Data.String.Basic
import Mathlib.Algebra.Order.Ring.Int

/-!
# The bytes of a text
-/

namespace Utf8

def bytes (text : List Char) : List UInt8 := text.flatMap String.utf8EncodeChar

theorem bytes_append (text text' : List Char) : bytes (text ++ text') = bytes text ++ bytes text' :=
  List.flatMap_append

def decode (encoded : List UInt8) : Option (List Char) :=
  encoded.toByteArray.utf8Decode?.map Array.toList

theorem decode_bytes (text : List Char) : decode (bytes text) = some text := by
  have h : (bytes text).toByteArray = text.utf8Encode := rfl
  rw [decode, h, List.utf8Decode?_utf8Encode]
  rfl

theorem decode_eq_some_iff {encoded : List UInt8} {text : List Char} :
    decode encoded = some text ↔ encoded = bytes text := by
  refine ⟨fun h => ?_, fun h => h ▸ decode_bytes text⟩
  obtain ⟨chars, hchars, rfl⟩ := Option.map_eq_some_iff.mp h
  have hsome : encoded.toByteArray.utf8Decode?.isSome := by rw [hchars]; rfl
  have hencode := ByteArray.utf8Encode_get_utf8Decode? (h := hsome)
  simp only [hchars, Option.get_some] at hencode
  have hbytes : (bytes chars.toList).toByteArray = encoded.toByteArray := hencode
  rw [← @List.toList_data_toByteArray encoded, ← hbytes, List.toList_data_toByteArray]

/-- A byte is the code of an ASCII character, or above all of them. -/
theorem mem_utf8EncodeChar {b : UInt8} {c : Char} (h : b ∈ String.utf8EncodeChar c) :
    b.toNat = c.toNat ∧ c.toNat < 128 ∨ 128 ≤ b.toNat := by
  have hval : c.val.toNat = c.toNat := rfl
  simp only [String.utf8EncodeChar] at h
  split_ifs at h
  all_goals simp only [List.mem_cons, List.not_mem_nil, or_false] at h
  · left
    subst h
    simp
    omega
  · right
    rcases h with h | h <;> subst h <;> simp <;> omega
  · right
    rcases h with h | h | h <;> subst h <;> simp <;> omega
  · right
    rcases h with h | h | h | h <;> subst h <;> simp <;> omega

theorem utf8EncodeChar_ascii {c : Char} (h : c.toNat < 128) :
    String.utf8EncodeChar c = [UInt8.ofNat c.toNat] := by
  have hval : c.val.toNat = c.toNat := rfl
  rw [String.utf8EncodeChar, if_pos (by omega)]
  rfl

theorem utf8Len_eq_length {text : List Char} (h : ∀ c ∈ text, c.utf8Size = 1) :
    String.utf8Len text = text.length := by
  induction text with
  | nil => rfl
  | cons c rest ih =>
    rw [String.utf8Len_cons, h c List.mem_cons_self,
      ih fun d hd => h d (List.mem_cons_of_mem c hd), List.length_cons]

end Utf8
