import Lily.Websocket.BackplaneFrame

/-!
# The window of message ids that a backplane has seen

The window forgets from its old end only. So the accepted messages are a forgotten part followed by
the queue, and an entry is forgotten for a reason that stays true (`Gone`): enough time has passed
since, or enough other ids.
-/

namespace Lily.Websocket.Wire

/-- When a message was seen, in nanoseconds, and its id. -/
abbrev Seen := Nat × Uuid

def dedupeCapacity : Nat := 4096
def dedupeTtl : Nat := 60000000000

/-- The identifiers seen, oldest first, and again as a set. -/
structure DedupeWindow where
  order : List Seen := []
  ids : Finset Uuid := ∅

/-- The loop that takes entries from the front while a condition on the queue holds. -/
def popFront (drops : List Seen → Bool) : List Seen → Finset Uuid → DedupeWindow
  | [], ids => ⟨[], ids⟩
  | entry :: rest, ids =>
    if drops (entry :: rest) then popFront drops rest (ids.erase entry.2) else ⟨entry :: rest, ids⟩

def expired (now : Nat) (order : List Seen) : Bool :=
  order.head?.any fun entry => dedupeTtl ≤ now - entry.1

def full (order : List Seen) : Bool := dedupeCapacity ≤ order.length

def DedupeWindow.seenOrInsert (w : DedupeWindow) (messageId : Uuid) (now : Nat) :
    Bool × DedupeWindow :=
  let w := popFront (expired now) w.order w.ids
  if messageId ∈ w.ids then (true, w)
  else
    let w := popFront full w.order w.ids
    (false, ⟨w.order ++ [(now, messageId)], insert messageId w.ids⟩)

/-- The window after some insertions, and the insertions that were accepted. -/
def insertAll (insertions : List Seen) : DedupeWindow × List Seen :=
  insertions.foldl (fun state seen =>
    let result := state.1.seenOrInsert seen.2 seen.1
    (result.2, if result.1 then state.2 else state.2 ++ [seen])) ({}, [])

/-- An entry is too old, or too many other ids came after it. -/
def Gone (now : Nat) (entry : Seen) (after : List Seen) : Prop :=
  dedupeTtl ≤ now - entry.1 ∨ dedupeCapacity ≤ ((after.map Prod.snd).toFinset.erase entry.2).card

/-- The queue is the end of what was accepted, and the rest of it is gone. -/
structure Holds (now : Nat) (accepted : List Seen) (w : DedupeWindow) : Prop where
  ids : w.ids = (w.order.map Prod.snd).toFinset
  nodup : (w.order.map Prod.snd).Nodup
  suffix : w.order <:+ accepted
  gone : ∀ entry after, entry :: after <:+ accepted → w.order.length ≤ after.length →
    Gone now entry after

section Holds

variable {now : Nat} {accepted order rest : List Seen} {w : DedupeWindow} {entry : Seen}
  {messageId : Uuid} {ids : Finset Uuid}

theorem Holds.pop (h : Holds now accepted ⟨entry :: rest, ids⟩) (hgone : Gone now entry rest) :
    Holds now accepted ⟨rest, ids.erase entry.2⟩ where
  ids := by
    obtain ⟨hfresh, -⟩ := List.nodup_cons.mp h.nodup
    exact (congrArg (Finset.erase · entry.2) (h.ids.trans List.toFinset_cons)).trans
      (Finset.erase_insert (List.mem_toFinset.not.mpr hfresh))
  nodup := h.nodup.of_cons
  suffix := (List.suffix_cons entry rest).trans h.suffix
  gone other after hsuffix hlength := by
    rcases hlength.eq_or_lt with heq | hlt
    · have hlengths : (other :: after).length = (entry :: rest).length := congrArg Nat.succ heq.symm
      have hsame := List.suffix_of_suffix_length_le hsuffix h.suffix hlengths.le
      obtain ⟨rfl, rfl⟩ := List.cons.inj (hsame.eq_of_length hlengths)
      exact hgone
    · exact h.gone other after hsuffix hlt

theorem Holds.push (h : Holds now accepted w) (hfresh : messageId ∉ w.ids) :
    Holds now (accepted ++ [(now, messageId)])
      ⟨w.order ++ [(now, messageId)], insert messageId w.ids⟩ where
  ids := by
    ext other
    simp [h.ids]
  nodup := by
    rw [h.ids, List.mem_toFinset] at hfresh
    simpa using h.nodup.concat hfresh
  suffix := by
    obtain ⟨before, rfl⟩ := h.suffix
    exact ⟨before, (List.append_assoc ..).symm⟩
  gone entry after hsuffix hlength := by
    rcases List.suffix_concat_iff.mp hsuffix with hnil | ⟨init, hsplit, hinit⟩
    · cases hnil
    · cases init with
      | nil => simp_all
      | cons first init =>
        rw [List.cons_append] at hsplit
        obtain ⟨rfl, rfl⟩ := List.cons.inj hsplit
        refine (h.gone entry init hinit (by simpa using hlength)).imp_right fun hmany => ?_
        refine hmany.trans (Finset.card_le_card (Finset.erase_subset_erase _ ?_))
        rw [List.map_append, List.toFinset_append]
        exact Finset.subset_union_left

/-- The first loop drops what is too old, down to an entry that is not. -/
theorem Holds.expire (h : Holds now accepted ⟨order, ids⟩) :
    Holds now accepted (popFront (expired now) order ids) ∧
    (popFront (expired now) order ids).order.length ≤ order.length ∧
    expired now (popFront (expired now) order ids).order = false := by
  induction order generalizing ids with
  | nil => exact ⟨h, le_rfl, rfl⟩
  | cons entry rest ih =>
    rw [popFront]
    split_ifs with hexpired
    · obtain ⟨h', hsize, hfront⟩ := ih (h.pop (.inl (by simpa [expired] using hexpired)))
      exact ⟨h', Nat.le_succ_of_le hsize, hfront⟩
    · exact ⟨h, le_rfl, by simpa using hexpired⟩

/-- The second loop drops at most one entry, for which the new one is one too many. -/
theorem Holds.admit (h : Holds now accepted w) (hsize : w.order.length ≤ dedupeCapacity)
    (hfresh : messageId ∉ w.ids) :
    Holds now (accepted ++ [(now, messageId)])
      ⟨(popFront full w.order w.ids).order ++ [(now, messageId)],
        insert messageId (popFront full w.order w.ids).ids⟩ ∧
    (popFront full w.order w.ids).order.length < dedupeCapacity := by
  obtain ⟨order, ids⟩ := w
  have hpushed := h.push hfresh
  cases order with
  | nil => exact ⟨hpushed, Nat.succ_pos 4095⟩
  | cons entry rest =>
    dsimp only
    rw [popFront]
    split_ifs with hfull
    · have hlength : rest.length + 1 = dedupeCapacity :=
        le_antisymm hsize (by simpa [full] using hfull)
      have hstop : popFront full rest (ids.erase entry.2) = ⟨rest, ids.erase entry.2⟩ := by
        cases rest with
        | nil => rfl
        | cons => rw [popFront, if_neg (by simp [full, ← hlength])]
      have hnodup : ((entry :: (rest ++ [(now, messageId)])).map Prod.snd).Nodup := hpushed.nodup
      rw [List.map_cons, List.nodup_cons, ← List.mem_toFinset] at hnodup
      have hne : messageId ≠ entry.2 := fun heq => hnodup.1 (by simp [heq])
      have hgone : Gone now entry (rest ++ [(now, messageId)]) := by
        refine .inr ?_
        rw [Finset.erase_eq_of_notMem hnodup.1, List.toFinset_card_of_nodup hnodup.2]
        simp [← hlength]
      rw [hstop, ← Finset.erase_insert_of_ne hne]
      exact ⟨hpushed.pop hgone, hlength.le⟩
    · exact ⟨hpushed, by simpa [full] using hfull⟩

/-- What is left after the first loop is what is not gone. -/
theorem Holds.mem_ids_iff (h : Holds now accepted w) (hsize : w.order.length ≤ dedupeCapacity)
    (hsorted : (accepted.map Prod.fst).Pairwise (· ≤ ·)) (hfront : expired now w.order = false) :
    messageId ∈ w.ids ↔ ∃ before at' after, accepted = before ++ (at', messageId) :: after ∧
      ¬ Gone now (at', messageId) after := by
  obtain ⟨dropped, haccepted⟩ := h.suffix
  have hyoung : ∀ entry ∈ w.order, now - entry.1 < dedupeTtl := by
    replace hsorted := hsorted.sublist (h.suffix.sublist.map Prod.fst)
    cases horder : w.order with
    | nil => simp
    | cons first rest =>
      rw [horder] at hsorted hfront
      have hfirst : now - first.1 < dedupeTtl := by simpa [expired] using hfront
      refine List.forall_mem_cons.mpr ⟨hfirst, fun entry hmem => ?_⟩
      have hle := List.rel_of_pairwise_cons hsorted (List.mem_map_of_mem hmem)
      exact (Nat.sub_le_sub_left hle now).trans_lt hfirst
  rw [h.ids, List.mem_toFinset, List.mem_map]
  constructor
  · rintro ⟨⟨at', _⟩, hmem, rfl⟩
    obtain ⟨before, after, hsplit⟩ := List.append_of_mem hmem
    rw [hsplit] at haccepted hsize
    refine ⟨dropped ++ before, at', after, by simp [← haccepted],
      not_or.mpr ⟨not_le.mpr (hyoung _ hmem), not_le.mpr ?_⟩⟩
    refine (Finset.card_erase_le.trans (List.toFinset_card_le _)).trans_lt ?_
    simp only [List.length_append, List.length_cons, List.length_map] at hsize ⊢
    omega
  · rintro ⟨before, at', after, rfl, hgone⟩
    have hsuffix := List.suffix_append before ((at', messageId) :: after)
    have hlength := not_le.mp fun hle => hgone (h.gone _ after hsuffix hle)
    have hmem := List.suffix_of_suffix_length_le hsuffix h.suffix hlength
    exact ⟨(at', messageId), hmem.subset List.mem_cons_self, rfl⟩

theorem Holds.seenOrInsert (h : Holds now accepted w) (hsize : w.order.length ≤ dedupeCapacity)
    (hsorted : (accepted.map Prod.fst).Pairwise (· ≤ ·)) (messageId : Uuid) :
    let result := w.seenOrInsert messageId now
    Holds now (if result.1 then accepted else accepted ++ [(now, messageId)]) result.2 ∧
    result.2.order.length ≤ dedupeCapacity ∧
    (result.1 = true ↔ ∃ before at' after, accepted = before ++ (at', messageId) :: after ∧
      ¬ Gone now (at', messageId) after) := by
  obtain ⟨h', hshorter, hfront⟩ := h.expire
  have hsize' := hshorter.trans hsize
  rw [← h'.mem_ids_iff hsize' hsorted hfront, DedupeWindow.seenOrInsert]
  dsimp only
  by_cases hmem : messageId ∈ (popFront (expired now) w.order w.ids).ids
  · rw [if_pos hmem]
    exact ⟨h', hsize', iff_of_true rfl hmem⟩
  · rw [if_neg hmem]
    obtain ⟨h'', hroom⟩ := h'.admit hsize' hmem
    exact ⟨h'', (List.length_append ..).trans_le hroom, iff_of_false nofun hmem⟩

end Holds

theorem insertAll_holds {insertions : List Seen} {now : Nat}
    (hsorted : (insertions.map Prod.fst ++ [now]).Pairwise (· ≤ ·)) :
    Holds now (insertAll insertions).2 (insertAll insertions).1 ∧
    (insertAll insertions).1.order.length ≤ dedupeCapacity ∧
    (insertAll insertions).2.Sublist insertions := by
  induction insertions using List.reverseRecOn generalizing now with
  | nil =>
    exact ⟨⟨rfl, List.nodup_nil, List.suffix_rfl, by simp [insertAll]⟩, Nat.zero_le _, .slnil⟩
  | append_singleton earlier last ih =>
    rw [List.map_append] at hsorted
    obtain ⟨hearlier, -, hlast⟩ := List.pairwise_append.mp hsorted
    obtain ⟨h, hsize, hsub⟩ := ih hearlier
    obtain ⟨h', hsize', -⟩ := h.seenOrInsert hsize
      ((List.pairwise_append.mp hearlier).1.sublist (hsub.map Prod.fst)) last.2
    rw [insertAll, List.foldl_append]
    refine ⟨{ h' with gone := fun entry after hsuffix hlength => ?_ }, hsize', ?_⟩
    · -- Time passes until the next insertion.
      have hnow : last.1 ≤ now := hlast last.1 (by simp) now (by simp)
      exact (h'.gone entry after hsuffix hlength).imp_left
        fun hold => hold.trans (Nat.sub_le_sub_right hnow _)
    · simp only [List.foldl_cons, List.foldl_nil]
      split_ifs
      · exact hsub.trans (List.sublist_append_left _ _)
      · exact hsub.append (.refl _)

/-- Insertions at non-decreasing times keep the set and the queue in step, and report as
duplicates exactly the ids that were accepted recently, with few other ids since. -/
theorem dedupe_window_exact (insertions : List Seen) (now : Nat) (messageId : Uuid)
    (hsorted : ((insertions ++ [(now, messageId)]).map Prod.fst).Pairwise (· ≤ ·)) :
    let w := (insertAll insertions).1
    w.ids = (w.order.map Prod.snd).toFinset ∧ (w.order.map Prod.snd).Nodup ∧
    (w.order.map Prod.fst).Pairwise (· ≤ ·) ∧ w.order.length ≤ dedupeCapacity ∧
    ((w.seenOrInsert messageId now).1 = true ↔ ∃ before at' after,
      (insertAll insertions).2 = before ++ (at', messageId) :: after ∧ now - at' < dedupeTtl ∧
        ((after.map Prod.snd).toFinset.erase messageId).card < dedupeCapacity) := by
  intro w
  rw [List.map_append] at hsorted
  obtain ⟨h, hsize, hsub⟩ := insertAll_holds hsorted
  have htimes := (List.pairwise_append.mp hsorted).1.sublist (hsub.map Prod.fst)
  have hduplicate := (h.seenOrInsert hsize htimes messageId).2.2
  simp only [Gone, not_or, not_le] at hduplicate
  exact ⟨h.ids, h.nodup, htimes.sublist (h.suffix.sublist.map Prod.fst), hsize, hduplicate⟩

theorem dedupe_window_exact_repeated :
    ((insertAll [(0, 7), (1, 8)]).1.seenOrInsert 7 59999999999).1 = true :=
  (dedupe_window_exact [(0, 7), (1, 8)] 59999999999 7 (by decide)).2.2.2.2.mpr
    ⟨[], 0, [(1, 8)], by decide, by decide, by decide⟩

end Lily.Websocket.Wire
