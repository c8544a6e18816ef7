import Lily.Transaction.Server

/-!
# Work that commits once per key

The invariant of a server of transactions: whatever steps are made, no commit for a key
falls between another one and the removal of its document, and what a transaction has
performed is committed as a whole or not at all.
-/

namespace Once

variable {κ ρ τ ω : Type}

section Sound

variable [DecidableEq κ] [DecidableEq τ] {finished : ρ → Bool} {s s' : Server κ ρ τ ω}
  {log : List (Mark κ τ ω)} {t : τ} {tx : Tx κ ρ ω}

/-- What is known of a transaction under way. -/
structure Tx.Sound (finished : ρ → Bool) (s : Server κ ρ τ ω) (log : List (Mark κ τ ω)) (t : τ)
    (tx : Tx κ ρ ω) : Prop where
  begun : t ∈ s.begun
  uncommitted : ¬ Committed t log
  performed : performed t log = tx.effects
  held : tx.doc ≠ none → s.writer tx.key = some t ∧ s.done finished tx.key = false
  empty : tx.doc = none → tx.effects = []
  ready : tx.requested = true → ∀ doc ∈ tx.doc, finished doc = true

/-- How the server stands to what was committed. -/
structure Sound (finished : ρ → Bool) (s : Server κ ρ τ ω) (log : List (Mark κ τ ω)) : Prop where
  live : ∀ t tx, s.live t = some tx → tx.Sound finished s log t
  fresh : ∀ t ∉ s.begun, performed t log = [] ∧ ¬ Committed t log
  done : ∀ key, s.done finished key = completed key log
  exclusive : Exclusive log
  all : ∀ t, Committed t log → s.effectsOf t = performed t log
  nothing : ∀ t, ¬ Committed t log → s.effectsOf t = []

theorem Sound.initial (docs : κ → Option ρ) (h : ∀ key, (docs key).any finished = false) :
    Sound (τ := τ) (ω := ω) finished ⟨docs, fun _ => none, fun _ => none, [], []⟩ [] where
  live _ _ hlive := by cases hlive
  fresh _ _ := ⟨rfl, by simp [Committed]⟩
  done key := h key
  exclusive := by simp [Exclusive]
  all t h := by simp [Committed] at h
  nothing _ _ := rfl

omit [DecidableEq κ] in
/-- A step of another transaction. -/
theorem Tx.Sound.frame {log' : List (Mark κ τ ω)} (h : tx.Sound finished s log t)
    (begun : s.begun ⊆ s'.begun) (uncommitted : ¬ Committed t log')
    (same : Once.performed t log' = Once.performed t log)
    (held : tx.doc ≠ none → s'.writer tx.key = s.writer tx.key ∧
      s'.done finished tx.key = s.done finished tx.key) : tx.Sound finished s' log' t where
  begun := begun h.begun
  uncommitted := uncommitted
  performed := same.trans h.performed
  held hdoc := by
    obtain ⟨hwriter, hdone⟩ := held hdoc
    rw [hwriter, hdone]
    exact h.held hdoc
  empty := h.empty
  ready := h.ready

variable (h : Sound finished s log)

include h

/-- Two transactions never hold the same key. -/
theorem Sound.key_ne {u : τ} {other : Tx κ ρ ω} (hother : s.live u = some other)
    (hdoc : other.doc ≠ none) {key : κ} (hwriter : s.writer key ≠ some u) : other.key ≠ key := by
  rintro rfl
  exact hwriter ((h.live u other hother).held hdoc).1

theorem Sound.begin {key : κ} (fresh : t ∉ s.begun) : Sound finished (s.begin t key) log := by
  refine { h with live := fun u other hother => ?_, fresh := fun u hu => ?_ }
  · obtain rfl | hut := eq_or_ne u t
    · obtain rfl : ⟨key, none, [], false⟩ = other := by simpa [Server.begin] using hother
      obtain ⟨hperformed, huncommitted⟩ := h.fresh u fresh
      exact ⟨List.mem_cons_self, huncommitted, hperformed, by simp, fun _ => rfl, by simp⟩
    · have hlive : s.live u = some other := by simpa [Server.begin, hut] using hother
      have hsound := h.live u other hlive
      exact hsound.frame (List.subset_cons_self _ _) hsound.uncommitted rfl fun _ => ⟨rfl, rfl⟩
  · exact h.fresh u fun hmem => hu (List.mem_cons_of_mem _ hmem)

theorem Sound.write (doc : ρ) (live : s.live t = some tx) (unrequested : tx.requested = false)
    (free : s.writer tx.key = none ∨ s.writer tx.key = some t)
    (unfinished : s.done finished tx.key = false) : Sound finished (s.write t tx doc) log := by
  refine { h with live := fun u other hother => ?_ }
  obtain rfl | hut := eq_or_ne u t
  · obtain rfl : { tx with doc := some doc } = other := by simpa [Server.write] using hother
    have hsound := h.live u tx live
    exact ⟨hsound.begun, hsound.uncommitted, hsound.performed,
      fun _ => ⟨by simp [Server.write], unfinished⟩, by simp, by simp [unrequested]⟩
  · have hlive : s.live u = some other := by simpa [Server.write, hut] using hother
    have hsound := h.live u other hlive
    refine hsound.frame (List.Subset.refl _) hsound.uncommitted rfl fun hdoc => ⟨?_, rfl⟩
    have hwriter : s.writer tx.key ≠ some u := by
      rcases free with hnone | hself
      · simp [hnone]
      · simpa [hself] using Ne.symm hut
    simp [Server.write, h.key_ne hlive hdoc hwriter]

theorem Sound.request (live : s.live t = some tx)
    (ready : ∀ doc ∈ tx.doc, finished doc = true) : Sound finished (s.request t tx) log := by
  refine { h with live := fun u other hother => ?_ }
  obtain rfl | hut := eq_or_ne u t
  · obtain rfl : { tx with requested := true } = other := by simpa [Server.request] using hother
    exact { h.live u tx live with ready := fun _ => ready }
  · have hlive : s.live u = some other := by simpa [Server.request, hut] using hother
    have hsound := h.live u other hlive
    exact hsound.frame (List.Subset.refl _) hsound.uncommitted rfl fun _ => ⟨rfl, rfl⟩

theorem Sound.rollback : Sound finished (s.release t) log := by
  refine { h with live := fun u other hother => ?_ }
  by_cases hut : u = t
  · simp [Server.release, hut] at hother
  · have hlive : s.live u = some other := by simpa [Server.release, hut] using hother
    have hsound := h.live u other hlive
    refine hsound.frame (List.Subset.refl _) hsound.uncommitted rfl fun hdoc => ⟨?_, rfl⟩
    simp [Server.release, (hsound.held hdoc).1, hut]

theorem Sound.perform (effect : ω) (live : s.live t = some tx) (unrequested : tx.requested = false)
    (held : tx.doc ≠ none) :
    Sound finished (s.perform t tx effect) (log ++ [.performed t effect]) := by
  have hcommitted : ∀ u, Committed u (log ++ [.performed t effect]) ↔ Committed u log := by
    simp [Committed]
  have hperformed : ∀ u, u ≠ t → performed u (log ++ [.performed t effect]) = performed u log := by
    intro u hut
    simp [performed, Ne.symm hut]
  have hsound := h.live t tx live
  refine ⟨fun u other hother => ?_, fun u hu => ?_, fun key => ?_, ?_, fun u hu => ?_,
    fun u hu => ?_⟩
  · obtain rfl | hut := eq_or_ne u t
    · obtain rfl : { tx with effects := tx.effects ++ [effect] } = other := by
        simpa [Server.perform] using hother
      refine ⟨hsound.begun, (hcommitted u).not.mpr hsound.uncommitted, ?_, hsound.held,
        fun hnone => absurd hnone held, by simp [unrequested]⟩
      rw [performed_append, hsound.performed]
      simp [performed]
    · have hlive : s.live u = some other := by simpa [Server.perform, hut] using hother
      have hother := h.live u other hlive
      exact hother.frame (List.Subset.refl _) ((hcommitted u).not.mpr hother.uncommitted)
        (hperformed u hut) fun _ => ⟨rfl, rfl⟩
  · have hut : u ≠ t := fun heq => hu (heq ▸ hsound.begun)
    rw [hperformed u hut, hcommitted]
    exact h.fresh u hu
  · rw [completed_append]
    exact h.done key
  · exact h.exclusive.concat (by simp)
  · have hold := (hcommitted u).mp hu
    have hut : u ≠ t := fun heq => hsound.uncommitted (heq ▸ hold)
    rw [hperformed u hut]
    exact h.all u hold
  · exact h.nothing u ((hcommitted u).not.mp hu)

theorem Sound.remove {key : κ} (done : s.done finished key = true) :
    Sound finished (s.remove key) (log ++ [.removed key]) := by
  have hcommitted : ∀ u, Committed u (log ++ [.removed key]) ↔ Committed u log := by
    simp [Committed]
  have hperformed : ∀ u, performed u (log ++ [.removed key]) = performed u log := by
    simp [performed]
  refine ⟨fun u other hother => ?_, fun u hu => ?_, fun k => ?_, ?_, fun u hu => ?_,
    fun u hu => ?_⟩
  · have hsound := h.live u other hother
    refine hsound.frame (List.Subset.refl _) ((hcommitted u).not.mpr hsound.uncommitted)
      (hperformed u) fun hdoc => ⟨rfl, ?_⟩
    have hne : other.key ≠ key := by
      rintro rfl
      simp [(hsound.held hdoc).2] at done
    simp [Server.remove, Server.done, hne]
  · rw [hperformed, hcommitted]
    exact h.fresh u hu
  · by_cases hk : k = key
    · simp [completed_append, Mark.apply, Server.remove, Server.done, hk]
    · have hdone := h.done k
      simp only [completed_append, List.foldl_cons, List.foldl_nil, Mark.apply, Ne.symm hk,
        if_false]
      simpa [Server.remove, Server.done, hk] using hdone
  · exact h.exclusive.concat (by simp)
  · rw [hperformed]
    exact h.all u ((hcommitted u).mp hu)
  · exact h.nothing u ((hcommitted u).not.mp hu)

omit h in
theorem effectsOf_commit (u : τ) :
    (s.commit t tx).effectsOf u = s.effectsOf u ++ if u = t then tx.effects else [] := by
  have htag : (tx.effects.map (Prod.mk t)).filterMap
      (fun entry => if entry.1 = u then some entry.2 else none) =
        if u = t then tx.effects else [] := by
    by_cases hut : u = t
    · simp [List.filterMap_map, hut]
    · simp [List.filterMap_map, hut, Ne.symm hut]
  simp only [Server.effectsOf, Server.commit, List.filterMap_append, htag]

theorem Sound.commit (live : s.live t = some tx)
    (requested : tx.requested = true) : Sound finished (s.commit t tx) (log ++ tx.marks t) := by
  have hsound := h.live t tx live
  cases hdoc : tx.doc with
  | none =>
    -- Without a document there are no effects either: the commit changes nothing.
    have heq : s.commit t tx = s.release t := by
      simp [Server.commit, hdoc, hsound.empty hdoc, Server.release]
    simpa [heq, Tx.marks, hdoc] using h.rollback
  | some doc =>
    have hfinished : finished doc = true := hsound.ready requested doc hdoc
    obtain ⟨hwriter, hunfinished⟩ := hsound.held (by simp [hdoc])
    have hcommitted : ∀ u, Committed u (log ++ tx.marks t) ↔ Committed u log ∨ u = t := by
      simp [Committed, Tx.marks, hdoc, exists_or]
    have hperformed : ∀ u, performed u (log ++ tx.marks t) = performed u log := by
      simp [performed, Tx.marks, hdoc]
    refine ⟨fun u other hother => ?_, fun u hu => ?_, fun key => ?_, ?_, fun u hu => ?_,
      fun u hu => ?_⟩
    · by_cases hut : u = t
      · simp [Server.commit, Server.release, hut] at hother
      · have hlive : s.live u = some other := by
          simpa [Server.commit, Server.release, hut] using hother
        have hsame := h.live u other hlive
        refine hsame.frame (List.Subset.refl _) (by simp [hcommitted, hsame.uncommitted, hut])
          (hperformed u) fun hheld => ⟨?_, ?_⟩
        · simp [Server.commit, Server.release, (hsame.held hheld).1, hut]
        · have hne : other.key ≠ tx.key :=
            h.key_ne hlive hheld (by simpa [hwriter] using Ne.symm hut)
          simp [Server.commit, Server.done, hdoc, hne]
    · have hut : u ≠ t := fun heq => hu (heq ▸ hsound.begun)
      rw [hperformed]
      simpa [hcommitted, hut] using h.fresh u hu
    · by_cases hkey : key = tx.key
      · simp [Server.commit, Server.done, hdoc, completed_append, Tx.marks, Mark.apply, hkey,
          hfinished]
      · have hdone := h.done key
        simp only [Tx.marks, hdoc, completed_append, List.foldl_cons, List.foldl_nil, Mark.apply,
          Ne.symm hkey, if_false]
        simpa [Server.commit, Server.done, hdoc, hkey] using hdone
    · simp only [Tx.marks, hdoc]
      refine h.exclusive.concat fun u key hmark => ?_
      cases hmark
      rw [← h.done]
      exact hunfinished
    · rw [effectsOf_commit, hperformed]
      rcases (hcommitted u).mp hu with hold | rfl
      · have hut : u ≠ t := fun heq => hsound.uncommitted (heq ▸ hold)
        simpa [hut] using h.all u hold
      · simp [h.nothing u hsound.uncommitted, hsound.performed]
    · have hut := not_or.mp ((hcommitted u).not.mp hu)
      rw [effectsOf_commit]
      simpa [hut.2] using h.nothing u hut.1

/-- Every step keeps effects and commits together. -/
theorem Sound.step {added : List (Mark κ τ ω)}
    (hstep : Step finished t s added s') : Sound finished s' (log ++ added) := by
  cases hstep with
  | begin key fresh => simpa using h.begin fresh
  | claim doc live unrequested free unfinished =>
    simpa using h.write doc live unrequested (.inl free) unfinished
  | @amend tx doc live unrequested held =>
    obtain ⟨hwriter, hunfinished⟩ := (h.live t tx live).held held
    simpa using h.write doc live unrequested (.inr hwriter) hunfinished
  | perform effect live unrequested held => exact h.perform effect live unrequested held
  | request live ready => simpa using h.request live ready
  | commit live requested => exact h.commit live requested
  | rollback => simpa using h.rollback
  | remove key done => exact h.remove done

theorem Sound.steps {added : List (Mark κ τ ω)}
    (hsteps : Steps finished t s added s') : Sound finished s' (log ++ added) := by
  induction hsteps generalizing log with
  | refl s => simpa using h
  | head hstep hsteps ih =>
    rw [← List.append_assoc]
    exact ih (h.step hstep)

omit h

/-! ## What the log says -/

section Log

variable {ι ν : Type} {entries before middle after : List (ι × Entry κ τ ω ν)} {i j : ι} {u : τ}
  {key : κ}

theorem Sound.removed (h : Sound finished s (marksOf entries))
    (hsplit : entries = before ++ (i, .marked (.committed t key)) ::
      (middle ++ (j, .marked (.committed u key)) :: after)) :
    ∃ k, (k, .marked (.removed key)) ∈ middle := by
  have hmarks : marksOf entries = marksOf before ++ .committed t key ::
      (marksOf middle ++ .committed u key :: marksOf after) := by
    rw [hsplit, marksOf_split, marksOf_split]
  exact mem_marksOf.mp (h.exclusive.removed_between hmarks)

theorem Sound.kept (h : Sound finished s (marksOf entries))
    (hsplit : entries = before ++ (i, .marked (.committed t key)) :: after)
    (hkept : ∀ k, (k, .marked (.removed key)) ∉ after) :
    ∃ doc, s.docs key = some doc ∧ finished doc = true := by
  have hdone : s.done finished key = true := by
    rw [h.done, hsplit, marksOf_split]
    refine completed_of_committed fun hmem => ?_
    obtain ⟨k, hk⟩ := mem_marksOf.mp hmem
    exact hkept k hk
  cases hdoc : s.docs key with
  | none => simp [Server.done, hdoc] at hdone
  | some doc => exact ⟨doc, rfl, by simpa [Server.done, hdoc] using hdone⟩

omit [DecidableEq κ] [DecidableEq τ] in
theorem committed_marksOf :
    Committed t (marksOf entries) ↔ ∃ i key, (i, .marked (.committed t key)) ∈ entries := by
  simp only [Committed, mem_marksOf]
  exact exists_comm

/-- The effects of a transaction are committed as a whole, or not at all. -/
theorem Sound.whole (h : Sound finished s (marksOf entries)) (t : τ) :
    ((∃ i key, (i, .marked (.committed t key)) ∈ entries) →
      s.effectsOf t = performed t (marksOf entries)) ∧
    ((∀ i key, (i, .marked (.committed t key)) ∉ entries) → s.effectsOf t = []) := by
  refine ⟨fun hsome => h.all t (committed_marksOf.mpr hsome), fun hnone => h.nothing t ?_⟩
  rw [committed_marksOf]
  rintro ⟨i, key, hmem⟩
  exact hnone i key hmem

end Log

end Sound

end Once
