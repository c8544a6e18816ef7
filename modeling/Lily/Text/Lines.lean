import Lily.Text.Utf8

/-!
# Lines that end with CR, LF or both
-/

namespace Lines

variable {α : Type} {cr lf : α}

theorem intercalate_nil_cons {ls : List (List α)} (h : ls ≠ []) :
    [lf].intercalate ([] :: ls) = lf :: [lf].intercalate ls := by
  rw [List.intercalate_cons_of_ne_nil h]
  rfl

theorem intercalate_modifyHead {ls : List (List α)} (h : ls ≠ []) (a : α) :
    [lf].intercalate (ls.modifyHead (a :: ·)) = a :: [lf].intercalate ls := by
  obtain ⟨first, others, rfl⟩ := List.exists_cons_of_ne_nil h
  cases others with
  | nil | cons second others => simp

variable [DecidableEq α]

/-- The lines of a text; what follows the last end of a line is a line too. -/
def lines (cr lf : α) : List α → List (List α)
  | [] => [[]]
  | [a] => if a = cr ∨ a = lf then [[], []] else [[a]]
  | a :: b :: rest =>
    if a = cr ∧ b = lf then [] :: lines cr lf rest
    else if a = cr ∨ a = lf then [] :: lines cr lf (b :: rest)
    else (lines cr lf (b :: rest)).modifyHead (a :: ·)

/-- Every end of a line becomes one LF. -/
def normalize (cr lf : α) : List α → List α
  | [] => []
  | [a] => if a = cr then [lf] else [a]
  | a :: b :: rest =>
    if a = cr ∧ b = lf then lf :: normalize cr lf rest
    else if a = cr then lf :: normalize cr lf (b :: rest)
    else a :: normalize cr lf (b :: rest)

theorem lines_ne_nil (cr lf : α) (text : List α) : lines cr lf text ≠ [] := by
  fun_induction lines cr lf text with
  | case1 | case2 | case3 | case4 | case5 => simp
  | case6 a b rest hpair hend ih =>
    obtain ⟨first, others, hlines⟩ := List.exists_cons_of_ne_nil ih
    simp [hlines]

theorem notMem_of_mem_lines {text line : List α} (h : line ∈ lines cr lf text) :
    cr ∉ line ∧ lf ∉ line := by
  fun_induction lines cr lf text generalizing line with
  | case1 | case2 => simp_all
  | case3 a hend =>
    obtain rfl := List.mem_singleton.mp h
    simp_all [eq_comm]
  | case4 a b rest hpair ih | case5 a b rest hpair hend ih =>
    rcases List.mem_cons.mp h with rfl | h
    · simp
    · exact ih h
  | case6 a b rest hpair hend ih =>
    obtain ⟨first, others, hlines⟩ := List.exists_cons_of_ne_nil (lines_ne_nil cr lf (b :: rest))
    rw [hlines, List.modifyHead_cons] at h
    rcases List.mem_cons.mp h with rfl | h
    · have := ih (hlines ▸ List.mem_cons_self)
      simp_all [eq_comm]
    · exact ih (hlines ▸ List.mem_cons_of_mem _ h)

theorem intercalate_lines (text : List α) :
    [lf].intercalate (lines cr lf text) = normalize cr lf text := by
  fun_induction lines cr lf text with
  | case1 => rfl
  | case2 a hend =>
    rcases hend with rfl | rfl
    · simp [normalize]
    · by_cases hcr : a = cr <;> simp [normalize, hcr]
  | case3 a hend => simp [normalize, (not_or.mp hend).1]
  | case4 a b rest hpair ih =>
    rw [intercalate_nil_cons (lines_ne_nil cr lf rest), ih, normalize, if_pos hpair]
  | case5 a b rest hpair hend ih =>
    rw [intercalate_nil_cons (lines_ne_nil cr lf _), ih, normalize, if_neg hpair]
    by_cases hcr : a = cr
    · rw [if_pos hcr]
    · rw [if_neg hcr, hend.resolve_left hcr]
  | case6 a b rest hpair hend ih =>
    rw [intercalate_modifyHead (lines_ne_nil cr lf _), ih, normalize, if_neg hpair,
      if_neg (not_or.mp hend).1]

theorem lines_lf (hne : cr ≠ lf) (rest : List α) :
    lines cr lf (lf :: rest) = [] :: lines cr lf rest := by
  cases rest with
  | nil => simp [lines]
  | cons b rest => simp [lines, hne.symm]

theorem lines_cr {rest : List α} (h : rest.head? ≠ some lf) :
    lines cr lf (cr :: rest) = [] :: lines cr lf rest := by
  cases rest with
  | nil => simp [lines]
  | cons b rest => simp_all [lines]

/-- What holds no end of a line belongs to the first line after it. -/
theorem lines_free {start : List α} (hcr : cr ∉ start) (hlf : lf ∉ start) (rest : List α) :
    lines cr lf (start ++ rest) = (lines cr lf rest).modifyHead (start ++ ·) := by
  induction start with
  | nil => cases h : lines cr lf rest <;> simp [h]
  | cons a start ih =>
    simp only [List.mem_cons, not_or] at hcr hlf
    obtain ⟨first, others, hlines⟩ := List.exists_cons_of_ne_nil (lines_ne_nil cr lf rest)
    have ih := ih hcr.2 hlf.2
    rw [hlines, List.modifyHead_cons] at ih ⊢
    cases htail : start ++ rest with
    | nil =>
      rw [htail] at ih
      simp_all [lines, eq_comm]
    | cons b tail =>
      rw [List.cons_append, htail, lines, if_neg fun h => hcr.1 h.1.symm,
        if_neg fun h => h.elim (fun h => hcr.1 h.symm) fun h => hlf.1 h.symm, ← htail, ih]
      rfl

theorem lines_append (hne : cr ≠ lf) {line : List α} (hcr : cr ∉ line) (hlf : lf ∉ line)
    (rest : List α) : lines cr lf (line ++ lf :: rest) = line :: lines cr lf rest := by
  rw [lines_free hcr hlf, lines_lf hne, List.modifyHead_cons, List.append_nil]

/-! ## Lines of bytes -/

theorem notMem_utf8EncodeChar {c : Char} {b : UInt8} (hb : b.toNat < 128) (hc : c.toNat ≠ b.toNat) :
    b ∉ String.utf8EncodeChar c := by
  intro h
  rcases Utf8.mem_utf8EncodeChar h with hlow | hhigh
  · exact hc hlow.1.symm
  · omega

theorem head?_bytes_ne {text : List Char} (h : text.head? ≠ some '\n') :
    (Utf8.bytes text).head? ≠ some 10 := by
  cases text with
  | nil => simp [Utf8.bytes]
  | cons c text =>
    have hc : c.toNat ≠ '\n'.toNat := fun hc => h (congrArg some (Char.toNat_inj.mp hc))
    have hnone : String.utf8EncodeChar c ≠ [] := by
      rw [← List.length_pos_iff, String.length_utf8EncodeChar]
      exact c.utf8Size_pos
    rw [Utf8.bytes, List.flatMap_cons, List.head?_append_of_ne_nil _ hnone]
    exact fun hhead => notMem_utf8EncodeChar (by decide) hc (List.mem_of_mem_head? hhead)

theorem lines_bytes (text : List Char) :
    lines (13 : UInt8) 10 (Utf8.bytes text) = (lines '\r' '\n' text).map Utf8.bytes := by
  have hplain : ∀ c rest, ¬(c = '\r' ∨ c = '\n') → lines (13 : UInt8) 10 (Utf8.bytes (c :: rest)) =
      (lines 13 10 (Utf8.bytes rest)).modifyHead (String.utf8EncodeChar c ++ ·) := by
    intro c rest hc
    rw [not_or, ← Char.toNat_inj, ← Char.toNat_inj] at hc
    exact lines_free (notMem_utf8EncodeChar (by decide) hc.1)
      (notMem_utf8EncodeChar (by decide) hc.2) _
  fun_induction lines '\r' '\n' text with
  | case1 => rfl
  | case2 a hend => rcases hend with rfl | rfl <;> decide
  | case3 a hend =>
    rw [hplain a [] hend]
    rfl
  | case4 a b rest hpair ih =>
    obtain ⟨rfl, rfl⟩ := hpair
    have hbytes : Utf8.bytes ('\r' :: '\n' :: rest) = 13 :: 10 :: Utf8.bytes rest := rfl
    rw [hbytes, lines, if_pos ⟨rfl, rfl⟩, ih]
    rfl
  | case5 a b rest hpair hend ih =>
    rcases hend with rfl | rfl
    · have hbytes : Utf8.bytes ('\r' :: b :: rest) = 13 :: Utf8.bytes (b :: rest) := rfl
      have hb : (b :: rest).head? ≠ some '\n' := by simpa using hpair
      rw [hbytes, lines_cr (head?_bytes_ne hb), ih]
      rfl
    · have hbytes : Utf8.bytes ('\n' :: b :: rest) = 10 :: Utf8.bytes (b :: rest) := rfl
      rw [hbytes, lines_lf (by decide), ih]
      rfl
  | case6 a b rest hpair hend ih =>
    obtain ⟨first, others, hlines⟩ :=
      List.exists_cons_of_ne_nil (lines_ne_nil '\r' '\n' (b :: rest))
    rw [hplain a (b :: rest) hend, ih, hlines]
    rfl

end Lines
