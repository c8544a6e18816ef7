import Lily.Csrf.Synchronizer
import Lily.Transition.Precedence

/-!
# What a synchronizer token stands for

Everything is read off the log of the calls. The record that the store has for a key is the last
one that the log has written for it and not removed since, and a call has its actions in the order
of its code. So an accepted token was written for the session by a call that issues tokens, and
since the last call that replaced or removed one.
-/

namespace Lily.Csrf

open Transition (Justified Machine Turn World)
open Csrf.Action

section Engine

variable [Base64Url.Engine] {ι : Type} {hmac : Hmac} {synchronizer : CompiledSynchronizer}
  {orders : ι → Order}

/-! ## What a call knows when it calls the store -/

/-- What is known of a call that is under way. -/
def Prepared (synchronizer : CompiledSynchronizer) (order : Order) (clock : Option UInt64) :
    Pending → Prop
  | .loadOrInsert _ _ => order.operation = .issue
  | .replace _ => order.operation = .rotate
  | .revoke => order.operation = .clear
  | .load requestToken now =>
    order.operation = .enforce ∧ clock = some now ∧
      extractRequestToken order.request synchronizer.tokenHeader synchronizer.formField =
        .ok requestToken

variable {clock : Option UInt64} {pending : Pending} {outcome : Outcome}

/-! ## The store as the log has it -/

section Log

variable (hmac synchronizer orders)

/-- What one entry of the log leaves under a key. -/
def entryContent (key : CsrfStoreKey) (current : Option StoredCsrfToken) (entry : ι × Action) :
    Option StoredCsrfToken :=
  if keyOf hmac synchronizer orders entry.1 = some key then
    match entry.2 with
    | .wrote record => some record
    | .removed => none
    | _ => current
  else current

def content (log : List (ι × Action)) (key : CsrfStoreKey) : Option StoredCsrfToken :=
  log.foldl (entryContent hmac synchronizer orders key) none

/-- What an action of a call needs of the log before it. -/
def Permitted (before : List (ι × Action)) (entry : ι × Action) : Prop :=
  match entry.2 with
  | .began _ => ∀ action, (entry.1, action) ∉ before
  | .wrote _ =>
    ((orders entry.1).operation = .issue ∨ (orders entry.1).operation = .rotate) ∧
      ∃ clock, (entry.1, began clock) ∈ before
  | .removed =>
    (orders entry.1).operation = .clear ∧ ∃ clock, (entry.1, began clock) ∈ before
  | .read found =>
    ∃ key, keyOf hmac synchronizer orders entry.1 = some key ∧
      content hmac synchronizer orders before key = found
  | .returned .accepted =>
    ∃ now requestToken record,
      extractRequestToken (orders entry.1).request synchronizer.tokenHeader
          synchronizer.formField = .ok requestToken ∧
        (entry.1, began (some now)) ∈ before ∧
        (entry.1, read (some record)) ∈ before ∧
        record.token = requestToken ∧ now < record.expires
  | .returned (.issued _) =>
    (orders entry.1).operation = .rotate → ∃ record, (entry.1, wrote record) ∈ before
  | .returned .cleared => (entry.1, removed) ∈ before
  | .returned _ => True

def Staged (i : ι) (log : List (ι × Action)) : Stage → Prop
  | .idle => ∀ action, (i, action) ∉ log
  | .calling pending =>
    ∃ clock, Prepared synchronizer (orders i) clock pending ∧ (i, began clock) ∈ log
  | .answered pending found =>
    (∃ clock, Prepared synchronizer (orders i) clock pending ∧ (i, began clock) ∈ log) ∧
      match pending with
      | .loadOrInsert _ _ => True
      | .replace replacement => (i, wrote replacement) ∈ log
      | .revoke => (i, removed) ∈ log
      | .load _ _ => (i, read found) ∈ log
  | .returned => True

end Log

theorem content_append (log added : List (ι × Action)) (key : CsrfStoreKey) :
    content hmac synchronizer orders (log ++ added) key =
      added.foldl (entryContent hmac synchronizer orders key)
        (content hmac synchronizer orders log key) :=
  List.foldl_append

/-- The actions of the other calls do not change the stage of a call. -/
theorem Staged.append {i : ι} {log added : List (ι × Action)} {stage : Stage}
    (h : Staged synchronizer orders i log stage) (hadded : ∀ action, (i, action) ∉ added) :
    Staged synchronizer orders i (log ++ added) stage := by
  have hmono : ∀ {action : Action}, (i, action) ∈ log → (i, action) ∈ log ++ added :=
    fun hmem => List.mem_append_left added hmem
  cases stage with
  | idle => exact fun action hmem => (List.mem_append.mp hmem).elim (h action) (hadded action)
  | calling pending =>
    obtain ⟨clock, hprepared, hbegan⟩ := h
    exact ⟨clock, hprepared, hmono hbegan⟩
  | answered pending found =>
    obtain ⟨⟨clock, hprepared, hbegan⟩, hanswered⟩ := h
    refine ⟨⟨clock, hprepared, hmono hbegan⟩, ?_⟩
    cases pending with
    | loadOrInsert candidate now => trivial
    | replace replacement | revoke | load requestToken now => exact hmono hanswered
  | returned => trivial

/-- What is kept by every move. -/
structure Kept (hmac : Hmac) (synchronizer : CompiledSynchronizer) (orders : ι → Order)
    (w : World ι Store Stage Action) : Prop where
  justified : Justified (Permitted hmac synchronizer orders) w.log
  stored : ∀ key, w.shared key = content hmac synchronizer orders w.log key
  staged : ∀ i, Staged synchronizer orders i w.log (w.locals i)

/-- What a call has to guarantee with a move: its actions are permitted, the store is as they say,
and the call has reached its stage. -/
structure Advance (hmac : Hmac) (synchronizer : CompiledSynchronizer) (orders : ι → Order)
    (log : List (ι × Action)) (i : ι) (turn : Turn Store Stage Action) : Prop where
  justified : Justified (Permitted hmac synchronizer orders) (log ++ turn.emitted.map (Prod.mk i))
  stored : ∀ key, turn.shared key =
    content hmac synchronizer orders (log ++ turn.emitted.map (Prod.mk i)) key
  staged : Staged synchronizer orders i (log ++ turn.emitted.map (Prod.mk i)) turn.own

section Advance

variable {log : List (ι × Action)} {i : ι} {store : Store} {stage : Stage}

/-- A call that fails before it calls the store neither issues nor clears nor accepts. -/
theorem prepare_outcome (clock : Option UInt64) (random : Option Nonce) :
    Validation.Outcome (Prepared synchronizer (orders i) clock)
      (fun outcome => Permitted hmac synchronizer orders log (i, .returned outcome))
      (synchronizer.prepare (orders i) clock random) := by
  unfold CompiledSynchronizer.prepare
  split
  next hissue =>
    exact .mapError (.bind (.self fun _ => trivial) fun _ _ => .bind (.self fun _ => trivial)
      fun _ _ => .bind (.self fun _ => trivial) fun _ _ => hissue)
  next hrotate =>
    exact .mapError (.bind (.self fun _ => trivial) fun _ _ => .bind (.self fun _ => trivial)
      fun _ _ => .bind (.self fun _ => trivial) fun _ _ => hrotate)
  next hclear => exact .mapError (.bind (.self fun _ => trivial) fun _ _ => hclear)
  next henforce =>
    refine .mapError (.bind (.self fun _ => trivial) fun now hnow => .bind (.self fun _ => trivial)
      fun _ _ => .bind (.self fun _ => trivial) fun requestToken htoken => ?_)
    split
    next =>
      cases clock with
      | none => nomatch hnow
      | some time => exact ⟨henforce, congrArg some (Except.ok.inj hnow), htoken⟩
    next => trivial

theorem permitted_fail (error : CsrfTokenStoreError) (pending : Pending) :
    Permitted hmac synchronizer orders log (i, .returned (pending.fail error)) := by
  cases pending <;> trivial

theorem live_eq_some {now : UInt64} {current : Option StoredCsrfToken} {record : StoredCsrfToken}
    (h : Pending.live now current = some record) : current = some record :=
  (Option.filter_eq_some_iff.mp h).1

theorem permitted_conclude {found : Option StoredCsrfToken}
    (h : Staged synchronizer orders i log (.answered pending found)) :
    Permitted hmac synchronizer orders log (i, .returned (pending.conclude found)) := by
  obtain ⟨⟨clock, hprepared, hbegan⟩, hanswered⟩ := h
  fun_cases pending.conclude found with
  | case3 => exact fun hrotate => absurd (hprepared.symm.trans hrotate) nofun
  | case4 => exact fun _ => ⟨_, hanswered⟩
  | case5 => exact hanswered
  | case8 now record hexpires =>
    obtain ⟨-, rfl, hextract⟩ := hprepared
    exact ⟨now, _, record, hextract, hbegan, hanswered, rfl, UInt64.not_le.mp hexpires⟩
  | _ => trivial

variable (hjustified : Justified (Permitted hmac synchronizer orders) log)
  (hstored : ∀ key, store key = content hmac synchronizer orders log key)

include hjustified hstored

theorem Advance.still (hstaged : Staged synchronizer orders i log stage) :
    Advance hmac synchronizer orders log i ⟨store, stage, []⟩ := by
  constructor
  all_goals
    rw [List.map_nil, List.append_nil]
    assumption

theorem Advance.quiet {action : Action} (hquiet : ∀ key current,
      entryContent hmac synchronizer orders key current (i, action) = current)
    (hpermitted : Permitted hmac synchronizer orders log (i, action))
    (hstaged : Staged synchronizer orders i (log ++ [(i, action)]) stage) :
    Advance hmac synchronizer orders log i ⟨store, stage, [action]⟩ where
  justified := hjustified.snoc hpermitted
  stored := fun key =>
    (hstored key).trans ((hquiet key _).symm.trans (content_append log [(i, action)] key).symm)
  staged := hstaged

theorem Advance.returned (h : Permitted hmac synchronizer orders log (i, .returned outcome)) :
    Advance hmac synchronizer orders log i ⟨store, .returned, [.returned outcome]⟩ :=
  .quiet hjustified hstored (fun _ _ => ite_self _) h trivial

theorem Advance.performed {key : CsrfStoreKey} (hkey : keyOf hmac synchronizer orders i = some key)
    (hcalling : Staged synchronizer orders i log (.calling pending)) :
    Advance hmac synchronizer orders log i (performed key store pending) := by
  obtain ⟨clock, hprepared, hbegan⟩ := hcalling
  have hbegan' : ∀ added, (i, began clock) ∈ log ++ added := fun added =>
    List.mem_append_left added hbegan
  have hlast : ∀ action : Action, (i, action) ∈ log ++ [(i, action)] := fun action =>
    List.mem_append_right log List.mem_cons_self
  have hpermitted : Permitted hmac synchronizer orders log (i, pending.action (store key)) := by
    cases pending with
    | loadOrInsert candidate now =>
      cases hlive : Pending.live now (store key) with
      | none =>
        simp only [Pending.action, hlive]
        exact ⟨.inl hprepared, clock, hbegan⟩
      | some record =>
        simp only [Pending.action, hlive]
        exact ⟨key, hkey, (hstored key).symm.trans (live_eq_some hlive)⟩
    | replace replacement => exact ⟨.inr hprepared, clock, hbegan⟩
    | revoke => exact ⟨hprepared, clock, hbegan⟩
    | load requestToken now => exact ⟨key, hkey, (hstored key).symm⟩
  refine ⟨hjustified.snoc hpermitted, fun key' => ?_, ⟨clock, hprepared, hbegan' _⟩, ?_⟩
  · change Function.update store key (pending.stored (store key)) key' =
      content hmac synchronizer orders (log ++ [(i, pending.action (store key))]) key'
    rw [content_append, ← hstored key']
    by_cases hsame : key' = key
    · subst hsame
      rw [Function.update_self]
      cases pending with
      | loadOrInsert candidate now =>
        cases hlive : Pending.live now (store key') with
        | none => simp [entryContent, hkey, Pending.action, Pending.stored, hlive]
        | some record =>
          simp only [Pending.stored, Pending.action, hlive, Option.getD_some]
          exact (live_eq_some hlive).symm.trans (ite_self _).symm
      | replace replacement | revoke => simp [entryContent, hkey, Pending.action, Pending.stored]
      | load requestToken now => simp [entryContent, Pending.action, Pending.stored]
    · have hother : keyOf hmac synchronizer orders i ≠ some key' := by
        rw [hkey]
        exact fun heq => hsame (Option.some.inj heq).symm
      rw [Function.update_of_ne hsame]
      simp [entryContent, hother]
  · cases pending with
    | loadOrInsert candidate now => trivial
    | replace replacement | revoke | load requestToken now => exact hlast _

theorem callTurn_advance (event : Event) (hstaged : Staged synchronizer orders i log stage) :
    Advance hmac synchronizer orders log i
      (callTurn hmac synchronizer orders i event store stage) := by
  unfold callTurn
  split
  next clock random =>
    have hprepare := @prepare_outcome _ ι hmac synchronizer orders (log ++ [(i, began clock)]) i
      clock random
    split
    next outcome herror =>
      have hbegin : Advance hmac synchronizer orders log i ⟨store, .returned, [.began clock]⟩ :=
        .quiet hjustified hstored (fun _ _ => ite_self _) hstaged trivial
      have hreturn := Advance.returned hbegin.justified hbegin.stored (hprepare.of_error herror)
      exact ⟨by simpa using hreturn.justified, by simpa using hreturn.stored, trivial⟩
    next pending hpending =>
      exact .quiet hjustified hstored (fun _ _ => ite_self _) hstaged
        ⟨clock, hprepare.of_ok hpending, List.mem_append_right log List.mem_cons_self⟩
  next pending =>
    split
    next => exact .still hjustified hstored hstaged
    next key hkey => exact .performed hjustified hstored hkey hstaged
  next pending error => exact .returned hjustified hstored (permitted_fail error pending)
  next pending found error =>
    exact .returned hjustified hstored (permitted_fail error pending)
  next pending found => exact .returned hjustified hstored (permitted_conclude hstaged)
  next => exact .still hjustified hstored hstaged

end Advance

variable (hmac synchronizer orders) in
def synchronizerAfter [DecidableEq ι] (moves : List (ι × Event)) : World ι Store Stage Action :=
  (synchronizerMachine hmac synchronizer orders).run synchronizerStart moves

theorem synchronizer_kept [DecidableEq ι] (moves : List (ι × Event)) :
    Kept hmac synchronizer orders (synchronizerAfter hmac synchronizer orders moves) := by
  refine (synchronizerMachine hmac synchronizer orders).run_induct ?_ ?_ moves
  · exact ⟨Justified.nil, fun _ => rfl, fun i action => List.not_mem_nil⟩
  · intro w i event h
    have hadvance := callTurn_advance h.justified h.stored event (h.staged i)
    refine ⟨hadvance.justified, hadvance.stored, fun j => ?_⟩
    refine Machine.step_each _ j (I := fun j stage _ => Staged synchronizer orders j _ stage)
      hadvance.staged fun j hj => (h.staged j).append fun action hmem => ?_
    obtain ⟨other, -, heq⟩ := List.mem_map.mp hmem
    exact hj (congrArg Prod.fst heq).symm

/-! ## Where a record comes from -/

def Changes (hmac : Hmac) (synchronizer : CompiledSynchronizer) (orders : ι → Order)
    (key : CsrfStoreKey) (entry : ι × Action) : Prop :=
  keyOf hmac synchronizer orders entry.1 = some key ∧
    ((∃ record, entry.2 = .wrote record) ∨ entry.2 = .removed)

theorem entryContent_of_not_changes {key : CsrfStoreKey} {current : Option StoredCsrfToken}
    {entry : ι × Action} (h : ¬Changes hmac synchronizer orders key entry) :
    entryContent hmac synchronizer orders key current entry = current := by
  obtain ⟨i, action⟩ := entry
  unfold entryContent
  split
  next hkey =>
    cases action with
    | wrote record => exact absurd ⟨hkey, .inl ⟨record, rfl⟩⟩ h
    | removed => exact absurd ⟨hkey, .inr rfl⟩ h
    | _ => rfl
  next => rfl

theorem content_some {log : List (ι × Action)} {key : CsrfStoreKey} {record : StoredCsrfToken}
    (h : content hmac synchronizer orders log key = some record) :
    ∃ before j after, log = before ++ (j, .wrote record) :: after ∧
      keyOf hmac synchronizer orders j = some key ∧
      ∀ entry ∈ after, ¬Changes hmac synchronizer orders key entry := by
  induction log using List.reverseRecOn with
  | nil => nomatch h
  | append_singleton log entry ih =>
    rw [content_append] at h
    by_cases hchanges : Changes hmac synchronizer orders key entry
    · obtain ⟨i, action⟩ := entry
      obtain ⟨hkey, ⟨written, rfl⟩ | rfl⟩ := hchanges
      · have hwritten : some written = some record := by
          simpa [entryContent, hkey] using h
        obtain rfl := Option.some.inj hwritten
        exact ⟨log, i, [], rfl, hkey, nofun⟩
      · simp [entryContent, hkey] at h
    · have hbefore : content hmac synchronizer orders log key = some record :=
        (entryContent_of_not_changes hchanges).symm.trans h
      obtain ⟨before, j, after, rfl, hkey, hafter⟩ := ih hbefore
      refine ⟨before, j, after ++ [entry], by simp, hkey, fun other hother => ?_⟩
      rcases List.mem_append.mp hother with hmem | hmem
      · exact hafter other hmem
      · rwa [List.mem_singleton.mp hmem]

section Justified

variable {log : List (ι × Action)}

/-- An accepted token was read from the store, where a call that issues tokens had put it. -/
theorem accepted_from (h : Justified (Permitted hmac synchronizer orders) log)
    {before after : List (ι × Action)} {i : ι}
    (hlog : log = before ++ (i, .returned .accepted) :: after) :
    ∃ key now requestToken record earlier later j, keyOf hmac synchronizer orders i = some key ∧
      extractRequestToken (orders i).request synchronizer.tokenHeader synchronizer.formField =
        .ok requestToken ∧
      (i, began (some now)) ∈ before ∧
      before = earlier ++ (i, .read (some record)) :: later ∧
      record.token = requestToken ∧ now < record.expires ∧
      (j, wrote record) ∈ earlier ∧ keyOf hmac synchronizer orders j = some key ∧
      ((orders j).operation = .issue ∨ (orders j).operation = .rotate) := by
  obtain ⟨now, requestToken, record, hextract, hbegan, hread, htoken, hexpires⟩ :=
    h before (i, .returned .accepted) after hlog
  obtain ⟨earlier, later, rfl⟩ := List.append_of_mem hread
  obtain ⟨key, hkey, hcontent⟩ := h earlier (i, .read (some record))
    (later ++ (i, .returned .accepted) :: after) (by rw [hlog]; simp)
  obtain ⟨first, j, rest, rfl, hwriter, -⟩ := content_some hcontent
  have hwrote := h first (j, .wrote record)
    (rest ++ (i, .read (some record)) :: (later ++ (i, .returned .accepted) :: after))
    (by rw [hlog]; simp)
  exact ⟨key, now, requestToken, record, _, later, j, hkey, hextract, hbegan, rfl, htoken, hexpires,
    List.mem_append_right first List.mem_cons_self, hwriter, hwrote.1⟩

/-- A rotation that returned a token, or a clear that returned. -/
def Renewed (orders : ι → Order) (r : ι) (outcome : Outcome) : Prop :=
  (orders r).operation = .rotate ∧ (∃ token, outcome = .issued token) ∨ outcome = .cleared

/-- What is read after a rotation or a clear has returned was written after it had begun. -/
theorem read_since_renewed (h : Justified (Permitted hmac synchronizer orders) log)
    {start during since rest : List (ι × Action)} {r i : ι} {record : StoredCsrfToken}
    {key : CsrfStoreKey} (hrenewed : Renewed orders r outcome)
    (hr : keyOf hmac synchronizer orders r = some key)
    (hi : keyOf hmac synchronizer orders i = some key)
    (hlog : log = (start ++ [(r, .began clock)]) ++ (during ++ (r, .returned outcome) :: since) ++
      (i, .read (some record)) :: rest) :
    ∃ j, (j, wrote record) ∈ during ++ (r, .returned outcome) :: since ∧
      keyOf hmac synchronizer orders j = some key := by
  have hfirst := h start (r, .began clock) (during ++ (r, .returned outcome) :: since ++
    (i, .read (some record)) :: rest) (by rw [hlog]; simp)
  -- the call has changed the key between its first action and its return
  have hchange : ∃ action, (r, action) ∈ during ∧
      Changes hmac synchronizer orders key (r, action) := by
    have hmem : ∃ action, (r, action) ∈ start ++ [(r, .began clock)] ++ during ∧
        ((∃ record, action = .wrote record) ∨ action = .removed) := by
      have hreturned := h (start ++ [(r, .began clock)] ++ during) (r, .returned outcome)
        (since ++ (i, .read (some record)) :: rest) (by rw [hlog]; simp)
      rcases hrenewed with ⟨hrotate, token, rfl⟩ | rfl
      · obtain ⟨written, hwritten⟩ := hreturned hrotate
        exact ⟨.wrote written, hwritten, .inl ⟨written, rfl⟩⟩
      · exact ⟨.removed, hreturned, .inr rfl⟩
    obtain ⟨action, haction, hkind⟩ := hmem
    refine ⟨action, ?_, hr, hkind⟩
    rcases List.mem_append.mp haction with hstart | hduring
    · rcases List.mem_append.mp hstart with hstart | hbegan
      · exact absurd hstart (hfirst action)
      · rw [List.mem_singleton] at hbegan
        obtain rfl : action = .began clock := congrArg Prod.snd hbegan
        rcases hkind with ⟨_, hkind⟩ | hkind <;> nomatch hkind
    · exact hduring
  obtain ⟨key', hkey', hcontent⟩ := h _ (i, .read (some record)) rest hlog
  obtain rfl : key' = key := Option.some.inj (hkey'.symm.trans hi)
  obtain ⟨before, j, after, hsplit, hj, hquiet⟩ := content_some hcontent
  refine ⟨j, ?_, hj⟩
  rcases List.append_eq_append_iff.mp hsplit with ⟨middle, rfl, hmiddle⟩ | ⟨middle, hstart, hmiddle⟩
  · rw [hmiddle]
    exact List.mem_append_right middle List.mem_cons_self
  · cases middle with
    | nil =>
      rw [← List.nil_append (during ++ _), ← hmiddle]
      exact List.mem_cons_self
    | cons first older =>
      -- the record is older than the call, which changes the key after it
      obtain ⟨action, hduring, hchanges⟩ := hchange
      obtain ⟨-, rfl⟩ := List.cons.inj hmiddle
      exact absurd hchanges (hquiet (r, action)
        (List.mem_append_right older (List.mem_append_left _ hduring)))

end Justified

/-! ## Sessions do not touch each other -/

section Isolation

variable {key : CsrfStoreKey} {store store' : Store} {i : ι}

theorem callTurn_other (stage : Stage) (event : Event)
    (h : keyOf hmac synchronizer orders i ≠ some key) :
    (callTurn hmac synchronizer orders i event store stage).shared key = store key := by
  fun_cases callTurn hmac synchronizer orders i event store stage with
  | case4 pending other hother =>
    refine Function.update_of_ne ?_ _ _
    rintro rfl
    exact h hother
  | _ => rfl

theorem callTurn_congr (stage : Stage) (event : Event)
    (h : keyOf hmac synchronizer orders i = some key) (hstore : store key = store' key) :
    (callTurn hmac synchronizer orders i event store stage).own =
        (callTurn hmac synchronizer orders i event store' stage).own ∧
      (callTurn hmac synchronizer orders i event store stage).emitted =
        (callTurn hmac synchronizer orders i event store' stage).emitted ∧
      (callTurn hmac synchronizer orders i event store stage).shared key =
        (callTurn hmac synchronizer orders i event store' stage).shared key := by
  cases stage with
  | idle =>
    cases event with
    | begin clock random =>
      simp only [callTurn]
      split <;> exact ⟨rfl, rfl, hstore⟩
    | _ => exact ⟨rfl, rfl, hstore⟩
  | calling pending =>
    cases event with
    | perform =>
      simp only [callTurn, h, performed, hstore, Function.update_self, and_self]
    | _ => exact ⟨rfl, rfl, hstore⟩
  | answered pending found => cases event <;> exact ⟨rfl, rfl, hstore⟩
  | returned => exact ⟨rfl, rfl, hstore⟩

/-- The two worlds are the same for one session: its calls, their actions and its record. -/
structure SameFor [DecidableEq ι] (synchronizer : CompiledSynchronizer) (orders : ι → Order)
    (session : CsrfSessionId) (key : CsrfStoreKey) (w w' : World ι Store Stage Action) : Prop where
  record : w.shared key = w'.shared key
  stages : ∀ i, synchronizer.session (orders i).request = some session →
    w.locals i = w'.locals i ∧ w.logOf i = w'.logOf i

/-- No two sessions of the calls have the same key. -/
def CollisionFree (hmac : Hmac) (synchronizer : CompiledSynchronizer) (orders : ι → Order) : Prop :=
  ∀ i j session session', synchronizer.session (orders i).request = some session →
    synchronizer.session (orders j).request = some session' →
    deriveStoreKey hmac synchronizer.keyDerivationSecret session =
      deriveStoreKey hmac synchronizer.keyDerivationSecret session' → session = session'

omit [Base64Url.Engine] in
theorem keyOf_eq_some {j : ι} :
    keyOf hmac synchronizer orders j = some key ↔
      ∃ session, synchronizer.session (orders j).request = some session ∧
        deriveStoreKey hmac synchronizer.keyDerivationSecret session = key :=
  Option.map_eq_some_iff

omit [Base64Url.Engine] in
theorem CollisionFree.session_eq (h : CollisionFree hmac synchronizer orders) {i j : ι}
    (hi : keyOf hmac synchronizer orders i = some key)
    (hj : keyOf hmac synchronizer orders j = some key) :
    synchronizer.session (orders j).request = synchronizer.session (orders i).request := by
  obtain ⟨session, hsession, hkey⟩ := keyOf_eq_some.mp hi
  obtain ⟨session', hsession', hkey'⟩ := keyOf_eq_some.mp hj
  rw [hsession, hsession', h i j session session' hsession hsession' (hkey.trans hkey'.symm)]

theorem sameFor_run [DecidableEq ι] (hfree : CollisionFree hmac synchronizer orders) {i : ι}
    {session : CsrfSessionId} (hi : synchronizer.session (orders i).request = some session)
    (moves : List (ι × Event)) :
    SameFor synchronizer orders session
      (deriveStoreKey hmac synchronizer.keyDerivationSecret session)
      (synchronizerAfter hmac synchronizer orders moves)
      (synchronizerAfter hmac synchronizer orders (moves.filter fun move =>
        decide (synchronizer.session (orders move.1).request = some session))) := by
  refine (synchronizerMachine hmac synchronizer orders).run_filter
    (p := fun j => decide (synchronizer.session (orders j).request = some session))
    (R := SameFor synchronizer orders session
      (deriveStoreKey hmac synchronizer.keyDerivationSecret session)) ?_ ?_ ?_ moves
  · intro w w' j event hj hsame
    have hsession := of_decide_eq_true hj
    obtain ⟨hstage, hlog⟩ := hsame.stages j hsession
    obtain ⟨hown, hemitted, hrecord⟩ := callTurn_congr (w.locals j) event
      (keyOf_eq_some.mpr ⟨session, hsession, rfl⟩) hsame.record
    rw [hstage] at hown hemitted hrecord
    refine ⟨?_, fun k hk => ?_⟩
    · rw [Machine.step_shared, Machine.step_shared, hstage]
      exact hrecord
    · obtain rfl | hkj := eq_or_ne k j
      · simp only [Machine.step_locals_self, Machine.step_logOf_self, hstage, hlog]
        exact ⟨hown, congrArg _ hemitted⟩
      · rw [Machine.step_locals_other _ _ _ _ _ hkj, Machine.step_locals_other _ _ _ _ _ hkj,
          Machine.step_logOf_other _ _ _ _ _ hkj, Machine.step_logOf_other _ _ _ _ _ hkj]
        exact hsame.stages k hk
  · intro w w' j event hj hsame
    have hsession := of_decide_eq_false hj
    have hkey : keyOf hmac synchronizer orders j ≠
        some (deriveStoreKey hmac synchronizer.keyDerivationSecret session) := fun hcollision =>
      hsession ((hfree.session_eq (keyOf_eq_some.mpr ⟨session, hi, rfl⟩) hcollision).trans hi)
    refine ⟨?_, fun k hk => ?_⟩
    · rw [Machine.step_shared]
      exact (callTurn_other (w.locals j) event hkey).trans hsame.record
    · have hkj : k ≠ j := by
        rintro rfl
        exact hsession hk
      rw [Machine.step_locals_other _ _ _ _ _ hkj, Machine.step_logOf_other _ _ _ _ _ hkj]
      exact hsame.stages k hk
  · exact ⟨rfl, fun _ _ => ⟨rfl, rfl⟩⟩

end Isolation

/-- An accepted token is the one that the store had for the session at the load, not expired at the
time the call began with, and put there by a call that issues tokens to the session. A load after a
rotation or a clear has returned finds only what was written after that had begun. The calls of a
session and what they accept are the same without the calls of the others. -/
theorem synchronizer_tokens_bound [DecidableEq ι] (hfree : CollisionFree hmac synchronizer orders)
    (moves : List (ι × Event)) :
    (∀ before i after, (synchronizerAfter hmac synchronizer orders moves).log =
        before ++ (i, .returned .accepted) :: after →
      ∃ session now requestToken record earlier later j,
        synchronizer.session (orders i).request = some session ∧
        extractRequestToken (orders i).request synchronizer.tokenHeader synchronizer.formField =
          .ok requestToken ∧
        (i, began (some now)) ∈ before ∧
        before = earlier ++ (i, .read (some record)) :: later ∧
        record.token = requestToken ∧ now < record.expires ∧
        (j, wrote record) ∈ earlier ∧
        ((orders j).operation = .issue ∨ (orders j).operation = .rotate) ∧
        synchronizer.session (orders j).request = some session) ∧
    (∀ start during since rest r i clock outcome record session, Renewed orders r outcome →
      synchronizer.session (orders r).request = some session →
      synchronizer.session (orders i).request = some session →
      (synchronizerAfter hmac synchronizer orders moves).log =
        (start ++ [(r, .began clock)]) ++ (during ++ (r, .returned outcome) :: since) ++
          (i, .read (some record)) :: rest →
      ∃ j, (j, wrote record) ∈ during ++ (r, .returned outcome) :: since ∧
        synchronizer.session (orders j).request = some session) ∧
    ∀ i session, synchronizer.session (orders i).request = some session →
      SameFor synchronizer orders session
        (deriveStoreKey hmac synchronizer.keyDerivationSecret session)
        (synchronizerAfter hmac synchronizer orders moves)
        (synchronizerAfter hmac synchronizer orders (moves.filter fun move =>
          decide (synchronizer.session (orders move.1).request = some session))) := by
  have hkept : Kept hmac synchronizer orders (synchronizerAfter hmac synchronizer orders moves) :=
    synchronizer_kept moves
  refine ⟨fun before i after hlog => ?_, ?_, fun i session hi => sameFor_run hfree hi moves⟩
  · obtain ⟨key, now, requestToken, record, earlier, later, j, hi, hextract, hbegan, hsplit, htoken,
      hexpires, hwrote, hj, hoperation⟩ := accepted_from hkept.justified hlog
    obtain ⟨session, hsession, -⟩ := keyOf_eq_some.mp hi
    exact ⟨session, now, requestToken, record, earlier, later, j, hsession, hextract, hbegan,
      hsplit, htoken, hexpires, hwrote, hoperation, (hfree.session_eq hi hj).trans hsession⟩
  · intro start during since rest r i clock outcome record session hrenewed hr hi hlog
    have hkey : keyOf hmac synchronizer orders r =
        some (deriveStoreKey hmac synchronizer.keyDerivationSecret session) :=
      keyOf_eq_some.mpr ⟨session, hr, rfl⟩
    obtain ⟨j, hwrote, hj⟩ := read_since_renewed hkept.justified hrenewed hkey
      (keyOf_eq_some.mpr ⟨session, hi, rfl⟩) hlog
    exact ⟨j, hwrote, (hfree.session_eq hkey hj).trans hr⟩

end Engine

/-! ## A check that overlaps a rotation -/

open scoped Base64Url.Rfc4648

/-- The last byte of the message, so the key of a session is as distinct as its last byte. -/
def sampleHmac : Hmac := fun _ message => ⟨List.replicate 31 0 ++ [message.getLastD 0], by simp⟩

/-- The session is that of the cookie of this name. -/
theorem sampleSecret_bounded :
    32 ≤ (List.replicate 32 (0 : UInt8)).length ∧ (List.replicate 32 (0 : UInt8)).length ≤ 128 := by
  decide

def sampleSession (name : UInt8) : CsrfSessionId := ⟨[name], by simp⟩

def sampleSynchronizer : CompiledSynchronizer where
  keyDerivationSecret := ⟨List.replicate 32 0, sampleSecret_bounded⟩
  binding request := .ok <| (request.cookie "session").toOption.join.bind fun session =>
    if session = "ada" then some (sampleSession 1)
    else if session = "grace" then some (sampleSession 2)
    else none
  tokenHeader := "x-csrf-token"
  formField := none
  ttl := 3600

def sampleNonce (last : UInt8) : Nonce := ⟨List.replicate 31 0 ++ [last], by simp⟩

def sampleRecord (last : UInt8) (h : validSynchronizerToken
    (String.ofList (Base64Url.Engine.encode (sampleNonce last).val)) = true) : StoredCsrfToken :=
  ⟨_, 3610, by decide, h⟩

def firstRecord : StoredCsrfToken := sampleRecord 0 (by decide)

def secondRecord : StoredCsrfToken := sampleRecord 1 (by decide)

/-- Three calls of one session: a token is issued, a request with that token is checked, and the
token is rotated. The fourth call issues a token to another session. -/
def sampleOrders (i : Fin 4) : Order where
  operation := if i = 1 then .enforce else if i = 2 then .rotate else .issue
  request :=
    { method := "POST", uriPath := some "/", headers := [⟨"X-CSRF-Token", firstRecord.token⟩],
      isForm := false, form := none,
      cookie := fun _ => .ok (some (if i = 3 then "grace" else "ada")) }

def sampleMoves : List (Fin 4 × Event) :=
  [(0, .begin (some 10) (some (sampleNonce 0))), (0, .perform), (0, .finish),
    (1, .begin (some 10) none), (1, .perform),
    (2, .begin (some 10) (some (sampleNonce 1))), (2, .perform), (2, .finish), (1, .finish)]

/-- The check has read the old token when the rotation comes, and accepts it when the rotation has
returned. -/
theorem old_token_accepted_after_rotation :
    (synchronizerAfter sampleHmac sampleSynchronizer sampleOrders sampleMoves).log =
      [(0, .began (some 10)), (0, .wrote firstRecord), (0, .returned (.issued firstRecord.token)),
        (1, .began (some 10)), (1, .read (some firstRecord)),
        (2, .began (some 10)), (2, .wrote secondRecord),
        (2, .returned (.issued secondRecord.token)), (1, .returned .accepted)] ∧
      firstRecord.token ≠ secondRecord.token := by
  decide

theorem sample_collisionFree : CollisionFree sampleHmac sampleSynchronizer sampleOrders := by
  intro i j session session' hi hj hkey
  have hlast : ∀ i j : Fin 4, (keyOf sampleHmac sampleSynchronizer sampleOrders i =
      keyOf sampleHmac sampleSynchronizer sampleOrders j ↔
        sampleSynchronizer.session (sampleOrders i).request =
          sampleSynchronizer.session (sampleOrders j).request) := by
    decide
  have hsame := (hlast i j).mp (by simp only [keyOf, hi, hj, Option.map_some, hkey])
  exact Option.some.inj (hi.symm.trans (hsame.trans hj))

/-- The same with a token of the other session issued before the check reads its own. -/
def interleavedMoves : List (Fin 4 × Event) :=
  sampleMoves.take 4 ++ [(3, .begin (some 10) (some (sampleNonce 2))), (3, .perform)] ++
    sampleMoves.drop 4

/-- The check finds the token that was issued to its own session, and all is as it would be without
the other one. -/
theorem sample_tokens_bound :
    CollisionFree sampleHmac sampleSynchronizer sampleOrders ∧
      (∃ record j, (j, wrote record) ∈ (synchronizerAfter sampleHmac sampleSynchronizer
          sampleOrders interleavedMoves).log ∧ record.token = firstRecord.token ∧
        sampleSynchronizer.session (sampleOrders j).request =
          sampleSynchronizer.session (sampleOrders 1).request) ∧
      (synchronizerAfter sampleHmac sampleSynchronizer sampleOrders interleavedMoves).logOf 1 =
        (synchronizerAfter sampleHmac sampleSynchronizer sampleOrders sampleMoves).logOf 1 := by
  obtain ⟨haccepted, -, hsame⟩ := synchronizer_tokens_bound sample_collisionFree interleavedMoves
  refine ⟨sample_collisionFree, ?_, ((hsame 1 _ rfl).stages 1 rfl).2⟩
  obtain ⟨_, _, requestToken, record, earlier, later, j, hsession, hextract, _, hsplit, htoken, _,
      hwrote, -, hj⟩ :=
    haccepted ((synchronizerAfter sampleHmac sampleSynchronizer sampleOrders
      interleavedMoves).log.take 10) 1 [] (by decide)
  have hpresented : extractRequestToken (sampleOrders 1).request sampleSynchronizer.tokenHeader
      sampleSynchronizer.formField = .ok firstRecord.token := by
    decide
  cases hextract.symm.trans hpresented
  refine ⟨record, j, List.mem_of_mem_take (i := 10) ?_, htoken, hj.trans hsession.symm⟩
  rw [hsplit]
  exact List.mem_append_left _ hwrote

end Lily.Csrf
