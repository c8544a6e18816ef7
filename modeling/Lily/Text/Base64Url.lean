import Mathlib.Data.String.Basic
import Mathlib.Algebra.Order.Ring.Int

/-!
# Base64 for URLs, without padding

An engine is given by what its users rely on. One is the alphabet of RFC 4648 with a strict decoder:
the bits of the last character that no byte takes are zero.
-/

namespace Base64Url

class Engine where
  encode : List UInt8 → List Char
  decode : List Char → Option (List UInt8)
  decode_encode (bytes : List UInt8) : decode (encode bytes) = some bytes
  length_encode (bytes : List UInt8) : (encode bytes).length = (bytes.length * 4 + 2) / 3
  mem_encode {bytes : List UInt8} {c : Char} (h : c ∈ encode bytes) : c ≠ '.' ∧ c.utf8Size = 1

namespace Rfc4648

def symbol (sextet : Nat) : Char :=
  if sextet < 26 then Char.ofNat (65 + sextet)
  else if sextet < 52 then Char.ofNat (71 + sextet)
  else if sextet < 62 then Char.ofNat (sextet - 4)
  else if sextet = 62 then '-'
  else '_'

def sextet (symbol : Char) : Option Nat :=
  if 'A' ≤ symbol ∧ symbol ≤ 'Z' then some (symbol.toNat - 65)
  else if 'a' ≤ symbol ∧ symbol ≤ 'z' then some (symbol.toNat - 71)
  else if '0' ≤ symbol ∧ symbol ≤ '9' then some (symbol.toNat + 4)
  else if symbol = '-' then some 62
  else if symbol = '_' then some 63
  else none

def encode : List UInt8 → List Char
  | [] => []
  | [a] => [symbol (a.toNat / 4), symbol (a.toNat % 4 * 16)]
  | [a, b] =>
    [symbol (a.toNat / 4), symbol (a.toNat % 4 * 16 + b.toNat / 16),
      symbol (b.toNat % 16 * 4)]
  | a :: b :: c :: rest =>
    symbol (a.toNat / 4) :: symbol (a.toNat % 4 * 16 + b.toNat / 16) ::
      symbol (b.toNat % 16 * 4 + c.toNat / 64) :: symbol (c.toNat % 64) :: encode rest

def decode : List Char → Option (List UInt8)
  | [] => some []
  | [_] => none
  | [w, x] => do
    let w ← sextet w
    let x ← sextet x
    if x % 16 = 0 then some [UInt8.ofNat (w * 4 + x / 16)] else none
  | [w, x, y] => do
    let w ← sextet w
    let x ← sextet x
    let y ← sextet y
    if y % 4 = 0 then
      some [UInt8.ofNat (w * 4 + x / 16), UInt8.ofNat (x % 16 * 16 + y / 4)]
    else none
  | w :: x :: y :: z :: rest => do
    let w ← sextet w
    let x ← sextet x
    let y ← sextet y
    let z ← sextet z
    let rest ← decode rest
    some (UInt8.ofNat (w * 4 + x / 16) :: UInt8.ofNat (x % 16 * 16 + y / 4) ::
      UInt8.ofNat (y % 4 * 64 + z) :: rest)

theorem sextet_symbol : ∀ v < 64, sextet (symbol v) = some v := by
  decide

theorem symbol_ne_dot : ∀ v < 64, symbol v ≠ '.' := by
  decide

theorem utf8Size_symbol : ∀ v < 64, (symbol v).utf8Size = 1 := by
  decide

theorem mem_encode {bytes : List UInt8} {c : Char} (h : c ∈ encode bytes) :
    ∃ v < 64, c = symbol v := by
  fun_induction encode bytes with
  | case1 => exact absurd h List.not_mem_nil
  | case2 a =>
    have ha := a.toNat_lt
    simp only [List.mem_cons, List.not_mem_nil, or_false] at h
    rcases h with rfl | rfl <;> exact ⟨_, by omega, rfl⟩
  | case3 a b =>
    have ha := a.toNat_lt
    have hb := b.toNat_lt
    simp only [List.mem_cons, List.not_mem_nil, or_false] at h
    rcases h with rfl | rfl | rfl <;> exact ⟨_, by omega, rfl⟩
  | case4 a b c rest ih =>
    have ha := a.toNat_lt
    have hb := b.toNat_lt
    have hc := c.toNat_lt
    simp only [List.mem_cons] at h
    rcases h with rfl | rfl | rfl | rfl | h
    · exact ⟨_, by omega, rfl⟩
    · exact ⟨_, by omega, rfl⟩
    · exact ⟨_, by omega, rfl⟩
    · exact ⟨_, by omega, rfl⟩
    · exact ih h

theorem length_encode (bytes : List UInt8) :
    (encode bytes).length = (bytes.length * 4 + 2) / 3 := by
  fun_induction encode bytes with
  | case1 => rfl
  | case2 a | case3 a b => simp
  | case4 a b c rest ih =>
    simp only [List.length_cons, ih]
    omega

theorem ofNat_eq {a : UInt8} {n : Nat} (h : n = a.toNat) : UInt8.ofNat n = a := by
  rw [h, UInt8.ofNat_toNat]

theorem decode_encode (bytes : List UInt8) : decode (encode bytes) = some bytes := by
  fun_induction encode bytes with
  | case1 => rfl
  | case2 a =>
    have ha := a.toNat_lt
    rw [decode, sextet_symbol _ (by omega), sextet_symbol _ (by omega)]
    have hbits : a.toNat % 4 * 16 % 16 = 0 := by omega
    simp only [Option.bind_eq_bind, Option.bind_some, hbits, if_true]
    rw [ofNat_eq (a := a) (by omega)]
  | case3 a b =>
    have ha := a.toNat_lt
    have hb := b.toNat_lt
    rw [decode, sextet_symbol _ (by omega), sextet_symbol _ (by omega),
      sextet_symbol _ (by omega)]
    have hbits : b.toNat % 16 * 4 % 4 = 0 := by omega
    simp only [Option.bind_eq_bind, Option.bind_some, hbits, if_true]
    rw [ofNat_eq (a := a) (by omega), ofNat_eq (a := b) (by omega)]
  | case4 a b c rest ih =>
    have ha := a.toNat_lt
    have hb := b.toNat_lt
    have hc := c.toNat_lt
    rw [decode, sextet_symbol _ (by omega), sextet_symbol _ (by omega),
      sextet_symbol _ (by omega), sextet_symbol _ (by omega), ih]
    simp only [Option.bind_eq_bind, Option.bind_some]
    rw [ofNat_eq (a := a) (by omega), ofNat_eq (a := b) (by omega),
      ofNat_eq (a := c) (by omega)]

scoped instance : Engine where
  encode
  decode
  decode_encode
  length_encode
  mem_encode h := by
    obtain ⟨v, hv, rfl⟩ := mem_encode h
    exact ⟨symbol_ne_dot v hv, utf8Size_symbol v hv⟩

end Rfc4648

end Base64Url
