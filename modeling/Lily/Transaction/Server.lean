import Lily.Collection.Position
import Mathlib.Data.List.Induction

/-!
# Transactions on a table of documents

There is one document for each key. A transaction first writes the document of its key,
which makes it the only writer there, and may perform effects only after that. A commit
makes the document and all effects visible together, and is only requested when the
document says that the work is finished.

`Step` is everything that may happen on such a server: to transactions whose clients are
gone as much as to the others, and with commits that nobody learns of.
-/

namespace Once

open Function

variable {κ ρ τ ω : Type}

/-- A transaction on one key, with what it will leave behind once it commits. -/
structure Tx (κ ρ ω : Type) where
  key : κ
  doc : Option ρ := none
  effects : List ω := []
  requested : Bool := false

/-- The documents and effects that are committed, and the transactions under way. -/
structure Server (κ ρ τ ω : Type) where
  docs : κ → Option ρ
  writer : κ → Option τ
  live : τ → Option (Tx κ ρ ω)
  begun : List τ
  effects : List (τ × ω)

inductive Mark (κ τ ω : Type) where
  | performed (t : τ) (effect : ω)
  | committed (t : τ) (key : κ)
  | removed (key : κ)

/-! ## The server -/

namespace Server

variable [DecidableEq τ]

variable (s : Server κ ρ τ ω) (t : τ) (tx : Tx κ ρ ω) (effect : ω)

def begin (key : κ) : Server κ ρ τ ω :=
  { s with
    live := update s.live t (some ⟨key, none, [], false⟩)
    begun := t :: s.begun }

def write [DecidableEq κ] (s : Server κ ρ τ ω) (t : τ) (tx : Tx κ ρ ω) (doc : ρ) : Server κ ρ τ ω :=
  { s with
    live := update s.live t (some { tx with doc := some doc })
    writer := update s.writer tx.key (some t) }

def perform : Server κ ρ τ ω :=
  { s with live := update s.live t (some { tx with effects := tx.effects ++ [effect] }) }

def request : Server κ ρ τ ω :=
  { s with live := update s.live t (some { tx with requested := true }) }

/-- The end of a transaction, with the locks it held. -/
def release : Server κ ρ τ ω :=
  { s with
    live := update s.live t none
    writer := fun key => if s.writer key = some t then none else s.writer key }

def commit [DecidableEq κ] (s : Server κ ρ τ ω) (t : τ) (tx : Tx κ ρ ω) : Server κ ρ τ ω :=
  { s.release t with
    docs := match tx.doc with
      | none => s.docs
      | some doc => update s.docs tx.key (some doc)
    effects := s.effects ++ tx.effects.map (Prod.mk t) }

def remove [DecidableEq κ] (s : Server κ ρ τ ω) (key : κ) : Server κ ρ τ ω :=
  { s with docs := update s.docs key none }

section Live

variable (s : Server κ ρ τ ω) (t : τ) (tx : Tx κ ρ ω) (key : κ) (doc : ρ) (effect : ω)

@[simp] theorem live_begin : (s.begin t key).live t = some ⟨key, none, [], false⟩ :=
  update_self ..

@[simp] theorem live_write [DecidableEq κ] :
    (s.write t tx doc).live t = some { tx with doc := some doc } :=
  update_self ..

@[simp] theorem live_perform :
    (s.perform t tx effect).live t = some { tx with effects := tx.effects ++ [effect] } :=
  update_self ..

@[simp] theorem live_request : (s.request t tx).live t = some { tx with requested := true } :=
  update_self ..

@[simp] theorem live_release : (s.release t).live t = none :=
  update_self ..

@[simp] theorem live_commit [DecidableEq κ] : (s.commit t tx).live t = none :=
  update_self ..

end Live

/-- The committed effects of one transaction. -/
def effectsOf (s : Server κ ρ τ ω) (t : τ) : List ω :=
  s.effects.filterMap fun entry => if entry.1 = t then some entry.2 else none

end Server

def Server.done (finished : ρ → Bool) (s : Server κ ρ τ ω) (key : κ) : Bool :=
  (s.docs key).any finished

/-- What a commit leaves behind. -/
def Tx.marks (t : τ) (tx : Tx κ ρ ω) : List (Mark κ τ ω) :=
  match tx.doc with
  | none => []
  | some _ => [.committed t tx.key]

/-- Everything that may happen, by way of a transaction `t`. -/
inductive Step [DecidableEq κ] [DecidableEq τ] (finished : ρ → Bool) (t : τ)
    (s : Server κ ρ τ ω) : List (Mark κ τ ω) → Server κ ρ τ ω → Prop
  | begin (key : κ) (fresh : t ∉ s.begun) : Step finished t s [] (s.begin t key)
  | claim {tx : Tx κ ρ ω} (doc : ρ) (live : s.live t = some tx)
      (unrequested : tx.requested = false) (free : s.writer tx.key = none)
      (unfinished : s.done finished tx.key = false) : Step finished t s [] (s.write t tx doc)
  | amend {tx : Tx κ ρ ω} (doc : ρ) (live : s.live t = some tx)
      (unrequested : tx.requested = false) (held : tx.doc ≠ none) :
      Step finished t s [] (s.write t tx doc)
  | perform {tx : Tx κ ρ ω} (effect : ω) (live : s.live t = some tx)
      (unrequested : tx.requested = false) (held : tx.doc ≠ none) :
      Step finished t s [.performed t effect] (s.perform t tx effect)
  | request {tx : Tx κ ρ ω} (live : s.live t = some tx)
      (ready : ∀ doc ∈ tx.doc, finished doc = true) : Step finished t s [] (s.request t tx)
  | commit {tx : Tx κ ρ ω} (live : s.live t = some tx) (requested : tx.requested = true) :
      Step finished t s (tx.marks t) (s.commit t tx)
  | rollback : Step finished t s [] (s.release t)
  | remove (key : κ) (done : s.done finished key = true) :
      Step finished t s [.removed key] (s.remove key)

/-- Some steps in a row, with all their marks. -/
inductive Steps [DecidableEq κ] [DecidableEq τ] (finished : ρ → Bool) (t : τ) :
    Server κ ρ τ ω → List (Mark κ τ ω) → Server κ ρ τ ω → Prop
  | refl (s : Server κ ρ τ ω) : Steps finished t s [] s
  | head {marks added : List (Mark κ τ ω)} {s s' s'' : Server κ ρ τ ω}
      (hstep : Step finished t s added s') (h : Steps finished t s' marks s'') :
      Steps finished t s (added ++ marks) s''

section Actor

variable [DecidableEq κ] [DecidableEq τ] {finished : ρ → Bool} {t u : τ} {s s' : Server κ ρ τ ω}
  {marks : List (Mark κ τ ω)} (h : Step finished t s marks s')

include h

theorem Step.steps : Steps finished t s marks s' := by
  simpa using Steps.head h (.refl s')

theorem Step.live_of_ne (hne : u ≠ t) : s'.live u = s.live u := by
  cases h <;> simp [Server.begin, Server.write, Server.perform, Server.request, Server.commit,
    Server.release, Server.remove, hne]

theorem Step.begun_of_ne (hne : u ≠ t) : u ∈ s'.begun ↔ u ∈ s.begun := by
  cases h <;> simp [Server.begin, Server.write, Server.perform, Server.request, Server.commit,
    Server.release, Server.remove, hne]

theorem Step.actor {key : κ} (hmark : .committed u key ∈ marks) : u = t := by
  cases h with
  | @commit tx live requested =>
    cases hdoc : tx.doc <;> simp_all [Tx.marks]
  | _ => simp at hmark
omit h

theorem Steps.live_of_ne (h : Steps finished t s marks s') (hne : u ≠ t) :
    s'.live u = s.live u := by
  induction h with
  | refl s => rfl
  | head hstep h ih => exact ih.trans (hstep.live_of_ne hne)

theorem Steps.begun_of_ne (h : Steps finished t s marks s') (hne : u ≠ t) :
    u ∈ s'.begun ↔ u ∈ s.begun := by
  induction h with
  | refl s => exact Iff.rfl
  | head hstep h ih => exact ih.trans (hstep.begun_of_ne hne)

theorem Steps.actor (h : Steps finished t s marks s') {key : κ}
    (hmark : .committed u key ∈ marks) : u = t := by
  induction h with
  | refl s => simp at hmark
  | head hstep h ih =>
    rcases List.mem_append.mp hmark with hfirst | hrest
    · exact hstep.actor hfirst
    · exact ih hrest

end Actor

/-! ## Reading the marks -/

/-- What a transaction has performed, committed or not. -/
def performed [DecidableEq τ] (t : τ) (log : List (Mark κ τ ω)) : List ω :=
  log.filterMap fun
    | .performed u effect => if u = t then some effect else none
    | _ => none

theorem performed_append [DecidableEq τ] (t : τ) (log added : List (Mark κ τ ω)) :
    performed t (log ++ added) = performed t log ++ performed t added :=
  List.filterMap_append

def Committed (t : τ) (log : List (Mark κ τ ω)) : Prop := ∃ key, .committed t key ∈ log

section Completed

variable [DecidableEq κ]

def Mark.apply (key : κ) (done : Bool) : Mark κ τ ω → Bool
  | .performed _ _ => done
  | .committed _ k => if k = key then true else done
  | .removed k => if k = key then false else done

/-- Whether the work for a key has been committed, and not been removed since. -/
def completed (key : κ) (log : List (Mark κ τ ω)) : Bool :=
  log.foldl (Mark.apply key) false

theorem completed_append (key : κ) (log added : List (Mark κ τ ω)) :
    completed key (log ++ added) = added.foldl (Mark.apply key) (completed key log) :=
  List.foldl_append

/-- Only a removal undoes a commit. -/
theorem foldl_apply_true {key : κ} {added : List (Mark κ τ ω)} (h : .removed key ∉ added) :
    added.foldl (Mark.apply key) true = true := by
  induction added with
  | nil => rfl
  | cons mark rest ih =>
    have hhead : Mark.apply key true mark = true := by
      cases mark with
      | performed t effect => rfl
      | committed t k => simp [Mark.apply]
      | removed k =>
        have hne : k ≠ key := fun heq => h (heq ▸ List.mem_cons_self)
        simp [Mark.apply, hne]
    rw [List.foldl_cons, hhead]
    exact ih fun hmem => h (List.mem_cons_of_mem _ hmem)

theorem completed_of_committed {key : κ} {t : τ} {before after : List (Mark κ τ ω)}
    (h : .removed key ∉ after) : completed key (before ++ .committed t key :: after) = true := by
  rw [completed_append, List.foldl_cons]
  simp only [Mark.apply, if_true]
  exact foldl_apply_true h

theorem exists_committed {key : κ} {log : List (Mark κ τ ω)} (h : completed key log = true) :
    ∃ t, .committed t key ∈ log := by
  induction log using List.reverseRecOn with
  | nil => simp [completed] at h
  | append_singleton log mark ih =>
    rw [completed_append, List.foldl_cons, List.foldl_nil] at h
    have hlog : completed key log = true → ∃ t, .committed t key ∈ log ++ [mark] := by
      intro hlog
      obtain ⟨t, ht⟩ := ih hlog
      exact ⟨t, List.mem_append_left _ ht⟩
    cases mark with
    | performed t effect => exact hlog h
    | committed t k =>
      by_cases hk : k = key
      · exact ⟨t, by simp [hk]⟩
      · exact hlog (by simpa [Mark.apply, hk] using h)
    | removed k =>
      by_cases hk : k = key
      · simp [Mark.apply, hk] at h
      · exact hlog (by simpa [Mark.apply, hk] using h)

/-- No commit for a key whose work is completed. -/
def Exclusive (log : List (Mark κ τ ω)) : Prop :=
  ∀ before t key after, log = before ++ .committed t key :: after → completed key before = false

theorem Exclusive.concat {log : List (Mark κ τ ω)} {mark : Mark κ τ ω} (h : Exclusive log)
    (hmark : ∀ t key, mark = .committed t key → completed key log = false) :
    Exclusive (log ++ [mark]) := by
  intro before t key after hsplit
  rcases Position.concat_split hsplit with ⟨rest, hlog, -⟩ | ⟨rfl, hlast, -⟩
  · exact h before t key rest hlog
  · exact hmark t key hlast.symm

theorem Exclusive.removed_between {log before middle after : List (Mark κ τ ω)} {t u : τ} {key : κ}
    (h : Exclusive log)
    (hsplit : log = before ++ .committed t key :: (middle ++ .committed u key :: after)) :
    .removed key ∈ middle := by
  by_contra hmem
  have hfalse := h (before ++ .committed t key :: middle) u key after (by simpa using hsplit)
  rw [completed_of_committed hmem] at hfalse
  cases hfalse

end Completed

/-! ## Logs with other entries -/

/-- A log of the clients holds the marks of the server among their own notes. -/
inductive Entry (κ τ ω ν : Type) where
  | marked (mark : Mark κ τ ω)
  | noted (note : ν)

section Log

variable {ι ν : Type}

@[simp] def Entry.mark? : Entry κ τ ω ν → Option (Mark κ τ ω)
  | .marked mark => some mark
  | .noted _ => none

variable (i : ι) (log : List (ι × Entry κ τ ω ν)) (emitted : List (Entry κ τ ω ν))

def marksOf : List (Mark κ τ ω) :=
  log.filterMap fun entry => entry.2.mark?

theorem marksOf_append (log added : List (ι × Entry κ τ ω ν)) :
    marksOf (log ++ added) = marksOf log ++ marksOf added :=
  List.filterMap_append

theorem marksOf_emitted : marksOf (emitted.map (Prod.mk i)) = emitted.filterMap Entry.mark? :=
  List.filterMap_map

theorem marksOf_move :
    marksOf (log ++ emitted.map (Prod.mk i)) = marksOf log ++ emitted.filterMap Entry.mark? := by
  rw [marksOf_append, marksOf_emitted]

theorem mem_move {i j : ι} {log : List (ι × Entry κ τ ω ν)} {entry : Entry κ τ ω ν}
    {emitted : List (Entry κ τ ω ν)} :
    (j, entry) ∈ log ++ emitted.map (Prod.mk i) ↔
      (j, entry) ∈ log ∨ j = i ∧ entry ∈ emitted := by
  simp only [List.mem_append, List.mem_map, Prod.mk.injEq]
  constructor
  · rintro (hold | ⟨found, hfound, rfl, rfl⟩)
    · exact .inl hold
    · exact .inr ⟨rfl, hfound⟩
  · rintro (hold | ⟨rfl, hentry⟩)
    · exact .inl hold
    · exact .inr ⟨entry, hentry, rfl, rfl⟩

theorem mem_marksOf {log : List (ι × Entry κ τ ω ν)} {mark : Mark κ τ ω} :
    mark ∈ marksOf log ↔ ∃ i, (i, .marked mark) ∈ log := by
  simp only [marksOf, List.mem_filterMap]
  constructor
  · rintro ⟨⟨i, entry⟩, hentry, hmark⟩
    cases entry with
    | marked found =>
      obtain rfl : found = mark := Option.some.inj hmark
      exact ⟨i, hentry⟩
    | noted note => cases hmark
  · rintro ⟨i, hentry⟩
    exact ⟨_, hentry, rfl⟩

theorem filterMap_marked (marks : List (Mark κ τ ω)) :
    (marks.map (Entry.marked (ν := ν))).filterMap Entry.mark? = marks := by
  rw [List.filterMap_map]
  exact List.filterMap_some

theorem filterMap_marked_noted (marks : List (Mark κ τ ω)) (note : ν) :
    (marks.map Entry.marked ++ [Entry.noted note]).filterMap Entry.mark? = marks := by
  rw [List.filterMap_append, filterMap_marked]
  exact List.append_nil _

/-- A position in the log is a position among the marks. -/
theorem marksOf_split {before after : List (ι × Entry κ τ ω ν)} {i : ι} {mark : Mark κ τ ω} :
    marksOf (before ++ (i, .marked mark) :: after) = marksOf before ++ mark :: marksOf after := by
  rw [marksOf_append]
  rfl

end Log

end Once
