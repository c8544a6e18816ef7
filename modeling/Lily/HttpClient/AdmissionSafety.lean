import Lily.HttpClient.Admission

/-!
# What the permits of the HTTP client guarantee

The permits bound what is on the wire. They can be waited for in a circle: a request that is
redirected waits for its origin with a permit of the client in its hands, and a request that has
been given the origin waits for a permit of the client. The circle is closed by a request that asks
for its origin again when all the others that have a permit of the client already wait like it.
-/

namespace Lily.HttpClient.Admission

open Transition (Semaphore Machine World)
open Transition.Semaphore

section Moves

variable {ι : Type} {limit perOrigin : Nat}

/-! ## What the semaphores know of a request -/

/-- The semaphores agree with the stage of request `i`, and its origin's is the one on the list. -/
structure Sound (i : ι) (client : Client ι limit perOrigin) (call : Call) : Prop where
  global : client.admission.Standing i call.stage.globalClaim
  origin : ∀ h, (client.cells h).semaphore.Standing i (call.stage.claimAt h)
  owner : ∀ h, i ∈ (client.cells h).owners ↔ call.stage.handle = some h
  listed : ∀ h, call.stage.handle = some h →
    ∃ key, OriginKey.fromUrl call.url = .ok key ∧ client.origins key = some h
  fresh : ∀ key h, client.origins key = some h → h < client.next

variable {stage : Stage} {h : Nat}

theorem claimAt_of_handle (hhandle : stage.handle = some h) : stage.claimAt h = stage.originClaim :=
  if_pos hhandle

theorem claimAt_of_none (hhandle : stage.handle = none) (h : Nat) : stage.claimAt h = .none :=
  if_neg (by simp [hhandle])

theorem claimAt_congr {after : Stage} (hhandle : after.handle = stage.handle)
    (horigin : after.originClaim = stage.originClaim) (h : Nat) :
    after.claimAt h = stage.claimAt h := by
  simp only [Stage.claimAt, hhandle, horigin]

theorem claimAt_of_ne {h' : Nat} (hhandle : stage.handle = some h)
    (hne : h' ≠ h) : stage.claimAt h' = .none :=
  if_neg (by simpa [hhandle] using hne.symm)

theorem retained_eq_some {client : Client ι limit perOrigin} {key : OriginKey} :
    client.retained key = some h ↔ client.origins key = some h ∧ 0 < client.strongCount h := by
  simp [Client.retained, Option.filter_eq_some_iff]

variable {semaphore : Nat}

variable {i : ι} {client : Client ι limit perOrigin} {call : Call}

/-- A request keeps the semaphore of its origin alive, and on the list. -/
theorem Sound.retained (h : Sound i client call) (hhandle : call.stage.handle = some semaphore) :
    ∃ key, OriginKey.fromUrl call.url = .ok key ∧ client.retained key = some semaphore := by
  obtain ⟨key, hkey, horigin⟩ := h.listed semaphore hhandle
  have halive := Finset.card_pos.mpr ⟨i, (h.owner semaphore).mpr hhandle⟩
  exact ⟨key, hkey, retained_eq_some.mpr ⟨horigin, halive⟩⟩

theorem Sound.lt_next (h : Sound i client call) (hhandle : call.stage.handle = some semaphore) :
    semaphore < client.next := by
  obtain ⟨key, -, horigin⟩ := h.listed semaphore hhandle
  exact h.fresh key semaphore horigin

section Looking

variable {i j : ι} {client : Client ι limit perOrigin} {call after : Call} {key : OriginKey}

/-- A new state of one cell, as request `j` sees it. -/
theorem Sound.update (h : Sound j client call) {client' : Client ι limit perOrigin}
    {cell : Cell ι perOrigin} (hcells : client'.cells = Function.update client.cells semaphore cell)
    (hglobal : client'.admission.Standing j after.stage.globalClaim)
    (hsemaphore : cell.semaphore.Standing j (after.stage.claimAt semaphore))
    (howner : j ∈ cell.owners ↔ after.stage.handle = some semaphore)
    (hothers : ∀ h', h' ≠ semaphore → after.stage.claimAt h' = call.stage.claimAt h' ∧
      (after.stage.handle = some h' ↔ call.stage.handle = some h'))
    (hlisted : ∀ h', after.stage.handle = some h' →
      ∃ key, OriginKey.fromUrl after.url = .ok key ∧ client'.origins key = some h')
    (hfresh : ∀ key h, client'.origins key = some h → h < client'.next) :
    Sound j client' after := by
  refine ⟨hglobal, ?_, ?_, hlisted, hfresh⟩
  · rw [hcells, Function.forall_update_iff client.cells
      fun h' cell => cell.semaphore.Standing j (after.stage.claimAt h')]
    exact ⟨hsemaphore, fun h' hne => (hothers h' hne).1 ▸ h.origin h'⟩
  · rw [hcells, Function.forall_update_iff client.cells
      fun h' cell => j ∈ cell.owners ↔ after.stage.handle = some h']
    exact ⟨howner, fun h' hne => (h.owner h').trans (hothers h' hne).2.symm⟩

variable [DecidableEq ι]

/-- The two ways of looking up a semaphore. -/
theorem semaphore_cases (client : Client ι limit perOrigin) (i : ι) (key : OriginKey) :
    (∃ h, client.retained key = some h ∧ client.semaphore i key = (client.addOwner i h, h)) ∨
      (client.retained key = none ∧
        client.semaphore i key = (client.addOrigin i key, client.next)) := by
  unfold Client.semaphore
  split
  next h hkey => exact .inl ⟨h, hkey, rfl⟩
  next hkey => exact .inr ⟨hkey, rfl⟩

theorem semaphore_fresh (h : ∀ key h, client.origins key = some h → h < client.next)
    {key' : OriginKey} {h' : Nat} (horigin : (client.semaphore i key).1.origins key' = some h') :
    h' < (client.semaphore i key).1.next := by
  rcases semaphore_cases client i key with ⟨semaphore, -, heq⟩ | ⟨-, heq⟩
  · rw [heq] at horigin ⊢
    exact h key' h' (retained_eq_some.mp horigin).1
  · rw [heq] at horigin ⊢
    by_cases hsame : key' = key
    · simp only [Client.addOrigin, hsame, Function.update_self, Option.some.injEq] at horigin
      exact horigin ▸ Nat.lt_succ_self _
    · simp only [Client.addOrigin, Function.update_of_ne hsame] at horigin
      exact Nat.lt_succ_of_lt (h key' h' (retained_eq_some.mp horigin).1)

theorem Sound.addOwner_other (h : Sound j client call) (hj : j ≠ i) :
    Sound j (client.addOwner i semaphore) call :=
  h.update rfl h.global (h.origin semaphore) (by simpa [hj] using h.owner semaphore)
    (fun _ _ => ⟨rfl, Iff.rfl⟩) (fun _ => h.retained)
    fun key' h' horigin => h.fresh key' h' (retained_eq_some.mp horigin).1

omit [DecidableEq ι] in
/-- A semaphore that nobody had a handle of is new to everybody. -/
theorem Sound.addOrigin_other (h : Sound j client call) (hkey : client.retained key = none)
    (hfresh : ∀ key' h', (client.addOrigin i key).origins key' = some h' →
      h' < (client.addOrigin i key).next) (hj : j ≠ i) : Sound j (client.addOrigin i key) call := by
  have hunknown : call.stage.handle ≠ some client.next := fun hhandle =>
    absurd (h.lt_next hhandle) (Nat.lt_irrefl _)
  have hnone : call.stage.claimAt client.next = .none := if_neg hunknown
  refine h.update rfl h.global ?_ ?_ (fun _ _ => ⟨rfl, Iff.rfl⟩) (fun h' hhandle => ?_) hfresh
  · rw [hnone]
    exact standing_new j
  · simpa [hj] using hunknown
  · obtain ⟨key', hfrom, hretained⟩ := h.retained hhandle
    refine ⟨key', hfrom, ?_⟩
    have hne : key' ≠ key := by
      rintro rfl
      rw [hkey] at hretained
      nomatch hretained
    simpa [Client.addOrigin, hne] using hretained

theorem Sound.semaphore_other (h : Sound j client call) (hj : j ≠ i) :
    Sound j (client.semaphore i key).1 call := by
  have hfresh := @semaphore_fresh ι limit perOrigin i client key _ h.fresh
  rcases semaphore_cases client i key with ⟨semaphore, -, heq⟩ | ⟨hkey, heq⟩
  · rw [heq]
    exact h.addOwner_other hj
  · rw [heq] at hfresh ⊢
    exact h.addOrigin_other hkey (fun _ _ => hfresh) hj

theorem Sound.semaphore_own (h : Sound i client call) (hbefore : call.stage.handle = none)
    (hkey : OriginKey.fromUrl after.url = .ok key)
    (hafter : after.stage.handle = some (client.semaphore i key).2)
    (horigin : after.stage.originClaim = .none)
    (hglobal : after.stage.globalClaim = call.stage.globalClaim) :
    Sound i (client.semaphore i key).1 after := by
  have hclaim (h' : Nat) : after.stage.claimAt h' = .none := by
    simp [Stage.claimAt, horigin]
  have hothers (h' : Nat) (hne : h' ≠ (client.semaphore i key).2) :
      after.stage.claimAt h' = call.stage.claimAt h' ∧
        (after.stage.handle = some h' ↔ call.stage.handle = some h') := by
    rw [hclaim, claimAt_of_none hbefore, hafter, hbefore]
    simp [Ne.symm hne]
  have hfresh := @semaphore_fresh ι limit perOrigin i client key _ h.fresh
  rcases semaphore_cases client i key with ⟨semaphore, hretained, heq⟩ | ⟨hretained, heq⟩
  · rw [heq] at hafter hfresh hothers ⊢
    refine h.update rfl (hglobal ▸ h.global) ?_ (by simp [hafter]) hothers (fun h' hhandle => ?_)
      fun _ _ => hfresh
    · rw [hclaim, ← claimAt_of_none hbefore semaphore]
      exact h.origin semaphore
    · rw [hafter] at hhandle
      exact ⟨key, hkey, hretained.trans hhandle⟩
  · rw [heq] at hafter hfresh hothers ⊢
    refine h.update rfl (hglobal ▸ h.global) ?_ (by simp [hafter]) hothers (fun h' hhandle => ?_)
      fun _ _ => hfresh
    · rw [hclaim]
      exact standing_new i
    · rw [hafter] at hhandle
      exact ⟨key, hkey, by simpa [Client.addOrigin] using hhandle⟩

end Looking

section Permits

variable {i j : ι} {client : Client ι limit perOrigin} {call after : Call} {x : Nat}

/-- A new state of one cell, as a request sees it that did not make it. -/
theorem Sound.setCell_other (h : Sound j client call) {cell : Cell ι perOrigin}
    (hsemaphore : ∀ claim, (client.cells x).semaphore.Standing j claim →
      cell.semaphore.Standing j claim) (howner : j ∈ cell.owners ↔ j ∈ (client.cells x).owners) :
    Sound j { client with cells := Function.update client.cells x cell } call :=
  h.update rfl h.global (hsemaphore _ (h.origin x)) (howner.trans (h.owner x))
    (fun _ _ => ⟨rfl, Iff.rfl⟩) h.listed h.fresh

theorem Sound.setAdmission (h : Sound j client call) {admission : Semaphore ι limit}
    (hadmission : admission.Standing j stage.globalClaim)
    (hhandle : stage.handle = call.stage.handle)
    (horigin : stage.originClaim = call.stage.originClaim) :
    Sound j { client with admission := admission } { call with stage := stage } where
  global := hadmission
  origin := fun h' => claimAt_congr hhandle horigin h' ▸ h.origin h'
  owner := fun h' => (h.owner h').trans (by rw [hhandle])
  listed := fun h' hafter => h.listed h' (hhandle ▸ hafter)
  fresh := h.fresh

theorem Sound.standing_none (h : Sound i client call) (hhandle : call.stage.handle = some x)
    (horigin : call.stage.originClaim = .none) : (client.cells x).semaphore.Standing i .none := by
  have hstanding := h.origin x
  rw [claimAt_of_handle hhandle, horigin] at hstanding
  exact hstanding

/-- A request that is about to ask for its origin has nothing of it yet. -/
theorem claims_of_located (h : call.stage = .located x ∨ call.stage = .relocated x) :
    call.stage.handle = some x ∧ call.stage.originClaim = .none := by
  rcases h with hstage | hstage <;> rw [hstage] <;> exact ⟨rfl, rfl⟩

theorem Sound.standing_of_admitted (h : Sound i client call)
    (hstage : call.stage = .admitted x) : client.admission.Standing i .none := by
  have hstanding := h.global
  rw [hstage] at hstanding
  exact hstanding

variable [DecidableEq ι]

variable {event : Event} {client' : Client ι limit perOrigin}

/-- The request makes its own move. -/
theorem Effect.own (heffect : Effect i client call event client' after) (h : Sound i client call) :
    Sound i client' after := by
  cases heffect with
  | still => exact h
  | unlocated hbefore hafter hglobal =>
    refine ⟨hglobal ▸ h.global, fun h' => ?_, fun h' => ?_, fun h' hhandle => ?_, h.fresh⟩
    · rw [claimAt_of_none hafter, ← claimAt_of_none hbefore h']
      exact h.origin h'
    · rw [h.owner, hbefore, hafter]
    · rw [hafter] at hhandle
      nomatch hhandle
  | located hbefore hkey hafter horigin hglobal =>
    exact h.semaphore_own hbefore hkey hafter horigin hglobal
  | @askedOrigin stage x _ hbefore hafter horigin hglobal =>
    obtain ⟨hhandle, hclaim⟩ := claims_of_located hbefore
    refine h.update rfl (hglobal ▸ h.global) ?_ ?_ (fun h' hne => ⟨?_, ?_⟩)
      (fun h' hh => ?_) h.fresh
    · rw [claimAt_of_handle hafter, horigin]
      exact standing_acquire (h.standing_none hhandle hclaim)
    · rw [h.owner, hhandle, hafter]
    · rw [claimAt_of_ne hafter hne, claimAt_of_ne hhandle hne]
    · rw [hafter, hhandle]
    · exact h.listed h' (hhandle.trans (hafter.symm.trans hh))
  | @askedGlobal x hbefore =>
    exact h.setAdmission (standing_acquire (h.standing_of_admitted hbefore))
      (by rw [hbefore]; rfl) (by rw [hbefore]; rfl)
  | @gotOrigin stage x hbefore hmem hafter horigin hglobal =>
    refine ⟨hglobal ▸ h.global, fun h' => ?_, fun h' => ?_, fun h' hh => ?_, h.fresh⟩
    · by_cases hcell : h' = x
      · subst hcell
        rw [claimAt_of_handle hafter, horigin]
        exact hmem
      · rw [claimAt_of_ne hafter hcell, ← claimAt_of_ne hbefore hcell]
        exact h.origin h'
    · rw [h.owner, hbefore, hafter]
    · exact h.listed h' (hbefore.trans (hafter.symm.trans hh))
  | gotGlobal hbefore hmem =>
    exact h.setAdmission hmem (by rw [hbefore]; rfl) (by rw [hbefore]; rfl)
  | @releasedOrigin _ x hbefore hafter hglobal =>
    refine h.update rfl (hglobal ▸ h.global) ?_ ?_ (fun h' hne => ⟨?_, ?_⟩)
      (fun h' hh => ?_) h.fresh
    · rw [claimAt_of_none hafter]
      exact standing_release _ i
    · rw [hafter]
      exact ⟨fun hmem => absurd hmem (Finset.notMem_erase i _), nofun⟩
    · rw [claimAt_of_none hafter, claimAt_of_ne hbefore hne]
    · rw [hafter, hbefore]
      simpa using Ne.symm hne
    · rw [hafter] at hh
      nomatch hh
  | releasedGlobal hafter horigin hglobal =>
    exact h.setAdmission (hglobal ▸ standing_release _ i) hafter horigin

/-- The move of another request. -/
theorem Effect.other {mine : Call}
    (heffect : Effect i client call event client' after) (hj : j ≠ i) (h : Sound j client mine)
    (hi : Sound i client call) : Sound j client' mine := by
  cases heffect with
  | still | unlocated hbefore hafter hglobal | gotOrigin hbefore hmem hafter horigin hglobal =>
    exact h
  | located hbefore hkey hafter horigin hglobal => exact h.semaphore_other hj
  | @askedOrigin stage x _ hbefore hafter horigin hglobal =>
    obtain ⟨hhandle, hclaim⟩ := claims_of_located hbefore
    exact h.setCell_other
      (fun _ => standing_acquire_other (hi.standing_none hhandle hclaim) hj) Iff.rfl
  | @askedGlobal x hbefore =>
    have hnone := hi.standing_of_admitted hbefore
    exact h.setAdmission (standing_acquire_other hnone hj h.global) rfl rfl
  | gotGlobal hbefore hmem => exact h
  | @releasedOrigin _ x hbefore hafter hglobal =>
    exact h.setCell_other (fun _ => standing_release_other hj)
      (by rw [Finset.mem_erase, and_iff_right hj])
  | releasedGlobal hafter horigin hglobal =>
    exact h.setAdmission (standing_release_other hj h.global) rfl rfl

end Permits

/-! ## Requests on the wire -/

variable (w : World ι (Client ι limit perOrigin) Call Unit)

def OnWire (i : ι) : Prop :=
  ∃ h, (w.locals i).stage = .onWire h

/-- The origin that the current attempt of a request goes to. -/
def Targets (key : OriginKey) (i : ι) : Prop :=
  OriginKey.fromUrl (w.locals i).url = .ok key

theorem holds_origin_of_onWire {w : World ι (Client ι limit perOrigin) Call Unit} {i : ι}
    {key : OriginKey} (h : Sound i w.shared (w.locals i)) (hwire : OnWire w i)
    (hkey : Targets w key i) :
    ∃ x, w.shared.origins key = some x ∧ i ∈ (w.shared.cells x).semaphore.holders := by
  obtain ⟨x, hstage⟩ := hwire
  have hhandle : (w.locals i).stage.handle = some x := by
    rw [hstage]
    rfl
  obtain ⟨key', hkey', horigin⟩ := h.listed x hhandle
  have hsame : key' = key := Except.ok.inj (hkey'.symm.trans hkey)
  refine ⟨x, hsame ▸ horigin, ?_⟩
  have hstanding := h.origin x
  rw [claimAt_of_handle hhandle, hstage] at hstanding
  exact hstanding

/-! ## Waiting in a circle -/

section Waiting

variable {client : Client ι limit perOrigin}

def Client.AwaitsOrigin (client : Client ι limit perOrigin) (i : ι) : Prop :=
  ∃ h, i ∈ (client.cells h).semaphore.waiters

def Client.Holds (client : Client ι limit perOrigin) (i : ι) : Prop :=
  i ∈ client.admission.holders ∨ ∃ h, i ∈ (client.cells h).semaphore.holders

def Client.Waits (client : Client ι limit perOrigin) (i : ι) : Prop :=
  i ∈ client.admission.waiters ∨ client.AwaitsOrigin i

/-- Somebody holds a permit, and everybody who does waits for another one. -/
def Client.Stuck (client : Client ι limit perOrigin) : Prop :=
  (∃ i, client.Holds i) ∧ ∀ i, client.Holds i → client.Waits i

/-- A permit of the client is free, or one of its holders does not wait for an origin. -/
def Client.Live (client : Client ι limit perOrigin) : Prop :=
  client.admission.Free ∨ ∃ i ∈ client.admission.holders, ¬client.AwaitsOrigin i

/-- A request that asks for its origin again and has to wait leaves a permit of the client free, or
in the hands of another request that does not wait for an origin. -/
def Yielding (w : World ι (Client ι limit perOrigin) Call Unit) (move : ι × Event) : Prop :=
  ∀ h, (w.locals move.1).stage = .relocated h → move.2 = .ask →
    ¬(w.shared.cells h).semaphore.Free →
      w.shared.admission.Free ∨
        ∃ j ∈ w.shared.admission.holders, j ≠ move.1 ∧ ¬w.shared.AwaitsOrigin j

/-- Whoever has got all that was asked of the origins waits for none. -/
theorem Sound.not_awaitsOrigin {i : ι} {call : Call} (h : Sound i client call)
    (hclaim : call.stage.originClaim ≠ .asked) : ¬client.AwaitsOrigin i := by
  rintro ⟨x, hwaits⟩
  have hasked := (h.origin x).asked_of_waits hwaits
  by_cases hhandle : call.stage.handle = some x
  · exact hclaim (claimAt_of_handle hhandle ▸ hasked)
  · rw [Stage.claimAt, if_neg hhandle] at hasked
    cases hasked

theorem Sound.not_awaitsOrigin_of_waits {i : ι} {call : Call} (h : Sound i client call)
    (hwaits : i ∈ client.admission.waiters) : ¬client.AwaitsOrigin i := by
  refine h.not_awaitsOrigin ?_
  rw [Stage.held_of_asked (h.global.asked_of_waits hwaits)]
  exact nofun

variable {x : Nat}

theorem Sound.not_awaitsOrigin_of_holds {i : ι} {call : Call} (h : Sound i client call)
    (hholds : i ∈ (client.cells x).semaphore.holders) : ¬client.AwaitsOrigin i := by
  have hhandle : call.stage.handle = some x := by
    by_contra hhandle
    have hstanding := h.origin x
    rw [Stage.claimAt, if_neg hhandle] at hstanding
    exact hstanding.1 hholds
  rintro ⟨y, hwaits⟩
  by_cases hcell : y = x
  · rw [hcell] at hwaits
    exact not_mem_waiters hholds hwaits
  · have hstanding := h.origin y
    rw [claimAt_of_ne hhandle hcell] at hstanding
    exact hstanding.2 hwaits

variable {calls : ι → Call}

theorem Client.Live.not_stuck (hperOrigin : 0 < perOrigin)
    (hsound : ∀ i, Sound i client (calls i)) (hlive : client.Live) : ¬client.Stuck := by
  rintro ⟨⟨i, hholds⟩, hall⟩
  rcases hlive with hfree | ⟨j, hholder, hawaits⟩
  · -- nobody waits for the client, so a holder waits for an origin, whose holders wait for nothing
    rcases hall i hholds with hwaits | ⟨x, hwaits⟩
    · exact not_mem_waiters_of_free hfree i hwaits
    · have hfull : ¬(client.cells x).semaphore.Free := fun horigin =>
        not_mem_waiters_of_free horigin i hwaits
      obtain ⟨k, hk⟩ := exists_holder hperOrigin hfull
      rcases hall k (.inr ⟨x, hk⟩) with hwaits | hwaits
      · exact not_mem_waiters_of_free hfree k hwaits
      · exact (hsound k).not_awaitsOrigin_of_holds hk hwaits
  · rcases hall j (.inl hholder) with hwaits | hwaits
    · exact not_mem_waiters hholder hwaits
    · exact hawaits hwaits

theorem Client.exists_holder_of_waits (hlimit : 0 < limit) (hperOrigin : 0 < perOrigin) {i : ι}
    (hwaits : client.Waits i) : ∃ j, client.Holds j := by
  rcases hwaits with hwaits | ⟨x, hwaits⟩
  · obtain ⟨j, hj⟩ := exists_holder hlimit fun hfree =>
      not_mem_waiters_of_free hfree i hwaits
    exact ⟨j, .inl hj⟩
  · obtain ⟨j, hj⟩ := exists_holder hperOrigin fun hfree =>
      not_mem_waiters_of_free hfree i hwaits
    exact ⟨j, .inr ⟨x, hj⟩⟩

/-- Nobody begins to wait for an origin. -/
theorem Client.Live.mono {client' : Client ι limit perOrigin} (hlive : client.Live)
    (hadmission : client'.admission = client.admission)
    (hawaits : ∀ j, client'.AwaitsOrigin j → client.AwaitsOrigin j) : client'.Live := by
  rw [Client.Live, hadmission]
  exact hlive.imp id fun ⟨j, hholder, hfree⟩ => ⟨j, hholder, fun h => hfree (hawaits j h)⟩

variable [DecidableEq ι]

theorem awaitsOrigin_semaphore {i j : ι} {key : OriginKey}
    (h : (client.semaphore i key).1.AwaitsOrigin j) : client.AwaitsOrigin j := by
  obtain ⟨y, hwaits⟩ := h
  rcases semaphore_cases client i key with ⟨x, -, heq⟩ | ⟨-, heq⟩
  · rw [heq] at hwaits
    by_cases hcell : y = x
    · exact ⟨x, by simpa [Client.addOwner, hcell] using hwaits⟩
    · exact ⟨y, by simpa [Client.addOwner, hcell] using hwaits⟩
  · rw [heq] at hwaits
    by_cases hcell : y = client.next
    · simp [Client.addOrigin, hcell, new] at hwaits
    · exact ⟨y, by simpa [Client.addOrigin, hcell] using hwaits⟩

theorem awaitsOrigin_releaseOrigin {i j : ι}
    (h : (client.releaseOrigin i x).AwaitsOrigin j) : client.AwaitsOrigin j := by
  obtain ⟨y, hwaits⟩ := h
  obtain rfl | hcell := eq_or_ne y x
  · simp only [Client.releaseOrigin, Function.update_self] at hwaits
    exact ⟨y, mem_waiters_of_release hwaits⟩
  · exact ⟨y, by simpa [Client.releaseOrigin, hcell] using hwaits⟩

theorem awaitsOrigin_askOrigin {i j : ι} (hnone : (client.cells x).semaphore.Standing i .none)
    (h : (client.askOrigin i x).AwaitsOrigin j) :
    client.AwaitsOrigin j ∨ j = i ∧ ¬(client.cells x).semaphore.Free := by
  obtain ⟨y, hwaits⟩ := h
  obtain rfl | hcell := eq_or_ne y x
  · simp only [Client.askOrigin, Function.update_self] at hwaits
    by_cases hfree : (client.cells y).semaphore.Free
    · rw [(acquire_of_free hnone hfree).2] at hwaits
      exact .inl ⟨y, hwaits⟩
    · rw [(acquire_of_not_free hnone hfree).2, List.mem_append,
        List.mem_singleton] at hwaits
      exact hwaits.imp (fun hwaits => ⟨y, hwaits⟩) fun hji => ⟨hji, hfree⟩
  · exact .inl ⟨y, by simpa [Client.askOrigin, hcell] using hwaits⟩

end Waiting

variable [DecidableEq ι]

/-- A permit of the client passes to a request that waits for no origin. -/
theorem Client.Live.releaseGlobal {client : Client ι limit perOrigin} {calls : ι → Call} {i : ι}
    (hsound : ∀ i, Sound i client (calls i)) (hlive : client.Live) :
    (client.releaseGlobal i).Live := by
  rcases hlive with hfree | ⟨j, hholder, hawaits⟩
  · exact .inl (free_release hfree)
  · obtain rfl | hji := eq_or_ne j i
    · refine (release_passes hholder).imp id ?_
      rintro ⟨k, hwaits, hholds⟩
      exact ⟨k, hholds, (hsound k).not_awaitsOrigin_of_waits hwaits⟩
    · exact .inr ⟨j, mem_holders_release_of_ne hji hholder, hawaits⟩

theorem Client.Live.askGlobal {client : Client ι limit perOrigin} {call : Call} {i : ι}
    (hsound : Sound i client call) (hstage : call.stage = .admitted h) (hlive : client.Live) :
    (client.askGlobal i).Live := by
  have hnone := hsound.standing_of_admitted hstage
  by_cases hfree : client.admission.Free
  · refine .inr ⟨i, ?_, hsound.not_awaitsOrigin (by rw [hstage]; exact nofun)⟩
    simp [Client.askGlobal, (acquire_of_free hnone hfree).1]
  · obtain ⟨j, hholder, hawaits⟩ := hlive.resolve_left hfree
    refine .inr ⟨j, ?_, hawaits⟩
    simpa [Client.askGlobal, (acquire_of_not_free hnone hfree).1] using hholder

/-- A request that asks for its origin does not stop the client, unless it is redirected and all the
others with a permit of the client wait. -/
theorem Client.Live.askOrigin {client : Client ι limit perOrigin} {call : Call} {i : ι}
    (hsound : Sound i client call) (hstage : call.stage = .located h ∨ call.stage = .relocated h)
    (hyield : call.stage = .relocated h → ¬(client.cells h).semaphore.Free →
      client.admission.Free ∨
        ∃ j ∈ client.admission.holders, j ≠ i ∧ ¬client.AwaitsOrigin j)
    (hlive : client.Live) : (client.askOrigin i h).Live := by
  have hnone := hsound.standing_none (claims_of_located hstage).1 (claims_of_located hstage).2
  by_cases hfree : (client.cells h).semaphore.Free
  · refine hlive.mono rfl fun j hwaits => ?_
    exact (awaitsOrigin_askOrigin hnone hwaits).resolve_right fun hji => hji.2 hfree
  · have hother : client.admission.Free ∨
        ∃ j ∈ client.admission.holders, j ≠ i ∧ ¬client.AwaitsOrigin j := by
      rcases hstage with hstage | hstage
      · -- a first request has no permit of the client yet
        refine hlive.imp id fun ⟨j, hholder, hawaits⟩ => ⟨j, hholder, ?_, hawaits⟩
        rintro rfl
        have hstanding := hsound.global
        rw [hstage] at hstanding
        exact hstanding.1 hholder
      · exact hyield hstage hfree
    refine hother.imp id fun ⟨j, hholder, hji, hawaits⟩ => ⟨j, hholder, fun hwaits => ?_⟩
    exact hawaits ((awaitsOrigin_askOrigin hnone hwaits).resolve_right fun h => hji h.1)

theorem Effect.live {i : ι} {client client' : Client ι limit perOrigin} {call after : Call}
    {event : Event} {calls : ι → Call} (heffect : Effect i client call event client' after)
    (hsound : ∀ j, Sound j client (calls j)) (hcall : calls i = call)
    (hyield : ∀ h, call.stage = .relocated h → event = .ask →
      ¬(client.cells h).semaphore.Free →
        client.admission.Free ∨
          ∃ j ∈ client.admission.holders, j ≠ i ∧ ¬client.AwaitsOrigin j)
    (hlive : client.Live) : client'.Live := by
  have hown : Sound i client call := hcall ▸ hsound i
  cases heffect with
  | still | unlocated hbefore hafter hglobal | gotOrigin hbefore hmem hafter horigin hglobal =>
    exact hlive
  | @located _ key hbefore hkey hafter horigin hglobal =>
    refine hlive.mono ?_ fun j => awaitsOrigin_semaphore
    rcases semaphore_cases client i key with ⟨x, -, heq⟩ | ⟨-, heq⟩
    · rw [heq]
      rfl
    · rw [heq]
      rfl
  | @askedOrigin _ h hevent hbefore hafter horigin hglobal =>
    exact hlive.askOrigin hown hbefore fun hstage => hyield h hstage hevent
  | askedGlobal hbefore => exact hlive.askGlobal hown hbefore
  | gotGlobal hbefore hmem => exact hlive
  | releasedOrigin hbefore hafter hglobal =>
    exact hlive.mono rfl fun j => awaitsOrigin_releaseOrigin
  | releasedGlobal hafter horigin hglobal => exact hlive.releaseGlobal hsound

/-! ## Runs -/

variable (url : Url) (moves : List (ι × Event))

variable (ι limit perOrigin) in
def after : World ι (Client ι limit perOrigin) Call Unit :=
  (machine ι limit perOrigin).run (initial ι limit perOrigin url) moves

/-- In every run each call holds what its phase says. -/
theorem after_sound (i : ι) :
    Sound i (after ι limit perOrigin url moves).shared
      ((after ι limit perOrigin url moves).locals i) := by
  refine (machine ι limit perOrigin).run_each (I := fun i client call _ => Sound i client call)
    ?_ ?_ ?_ moves i
  · intro i
    exact ⟨standing_new i, fun h => standing_new i,
      fun h => ⟨fun hmem => absurd hmem (Finset.notMem_empty i), nofun⟩, nofun, nofun⟩
  · intro i event client call _ h
    exact (effect i client call event).own h
  · intro i j event client call _ call' _ hj h hi
    exact (effect j client call' event).other hj.symm h hi

theorem after_live (hlimit : 0 < limit) (url : Url) {moves : List (ι × Event)}
    (h : (machine ι limit perOrigin).Meets Yielding (initial ι limit perOrigin url) moves) :
    (after ι limit perOrigin url moves).shared.Live := by
  refine ((machine ι limit perOrigin).run_induct_meets
    (P := fun w => (∀ i, Sound i w.shared (w.locals i)) ∧ w.shared.Live) ?_ ?_ h).2
  · exact ⟨after_sound url [], .inl hlimit⟩
  · rintro w i event ⟨hsound, hlive⟩ hyield
    have heffect := effect i w.shared (w.locals i) event
    refine ⟨fun j => ?_, heffect.live hsound rfl hyield hlive⟩
    exact Machine.step_each _ j (I := fun j call _ => Sound j _ call) (heffect.own (hsound i))
      fun j hj => heffect.other hj (hsound j) (hsound i)

/-- The permits bound what is on the wire in every run. A run whose moves are all yielding never
comes to a state in which all who hold a permit wait, so that some holder can go on whenever
somebody waits. -/
theorem admission_bounded_and_live (hlimit : 0 < limit) (hperOrigin : 0 < perOrigin) (url : Url)
    (moves : List (ι × Event)) :
    (∀ requests : Finset ι, (∀ i ∈ requests, OnWire (after ι limit perOrigin url moves) i) →
      requests.card ≤ limit) ∧
    (∀ (key : OriginKey) (requests : Finset ι),
      (∀ i ∈ requests, OnWire (after ι limit perOrigin url moves) i ∧
        Targets (after ι limit perOrigin url moves) key i) → requests.card ≤ perOrigin) ∧
    ((machine ι limit perOrigin).Meets Yielding (initial ι limit perOrigin url) moves →
      ¬(after ι limit perOrigin url moves).shared.Stuck ∧
      ((∃ i, (after ι limit perOrigin url moves).shared.Waits i) →
        ∃ j, (after ι limit perOrigin url moves).shared.Holds j ∧
          ¬(after ι limit perOrigin url moves).shared.Waits j)) := by
  have hsound := @after_sound ι limit perOrigin _ url moves
  refine ⟨fun requests hwire => ?_, fun key requests hwire => ?_, fun hmeets => ?_⟩
  · refine card_le (after ι limit perOrigin url moves).shared.admission fun i hi => ?_
    obtain ⟨h, hstage⟩ := hwire i hi
    have hstanding := (hsound i).global
    rw [hstage] at hstanding
    exact hstanding
  · rcases requests.eq_empty_or_nonempty with rfl | ⟨first, hfirst⟩
    · exact Nat.zero_le _
    · obtain ⟨x, horigin, -⟩ :=
        holds_origin_of_onWire (hsound first) (hwire first hfirst).1 (hwire first hfirst).2
      refine card_le
        ((after ι limit perOrigin url moves).shared.cells x).semaphore fun i hi => ?_
      obtain ⟨y, hsame, hholds⟩ :=
        holds_origin_of_onWire (hsound i) (hwire i hi).1 (hwire i hi).2
      rw [horigin] at hsame
      exact Option.some.inj hsame ▸ hholds
  · have hfree := (after_live hlimit url hmeets).not_stuck hperOrigin hsound
    refine ⟨hfree, fun ⟨i, hwaits⟩ => ?_⟩
    by_contra hnone
    refine hfree ⟨Client.exists_holder_of_waits hlimit hperOrigin hwaits, fun j hholds => ?_⟩
    by_contra hfreely
    exact hnone ⟨j, hholds, hfreely⟩

end Moves

/-! ## Two requests to one origin -/

def hotUrl : Url :=
  { scheme := "https", hostStr := some "example.test", portOrKnownDefault := some 443 }

/-- The second request waits for the origin while the first is on the wire. A redirect of the first
hands the origin to the second, which then asks for the client; the first asks for the origin. -/
def redirectedRun : List (Bool × Event) :=
  [(true, .start hotUrl), (true, .ask), (true, .poll), (true, .ask), (true, .poll),
    (false, .start hotUrl), (false, .ask), (true, .redirect hotUrl), (false, .poll), (false, .ask),
    (true, .locate), (true, .ask)]

/-- With a second permit of the client, the second request is not in the way of the first: it
does not wait, and gives the origin back when it has been answered. -/
theorem admission_of_redirected_request :
    (0 < 2 ∧ 0 < 1) ∧
      (machine Bool 2 1).Meets Yielding (initial Bool 2 1 hotUrl) redirectedRun ∧
      (after Bool 2 1 hotUrl redirectedRun).shared.Waits true ∧
      ¬(after Bool 2 1 hotUrl redirectedRun).shared.Stuck ∧
      ∃ j, (after Bool 2 1 hotUrl redirectedRun).shared.Holds j ∧
        ¬(after Bool 2 1 hotUrl redirectedRun).shared.Waits j := by
  have hfirst {w : World Bool (Client Bool 2 1) Call Unit} {move : Bool × Event} {stage : Stage}
      (hstage : (w.locals move.1).stage = stage) (hne : ∀ h, stage ≠ .relocated h) :
      Yielding w move := fun h hrelocated => absurd (hstage.symm.trans hrelocated) (hne h)
  have hmeets : (machine Bool 2 1).Meets Yielding (initial Bool 2 1 hotUrl) redirectedRun := by
    refine ⟨nofun, hfirst (by decide : _ = Stage.located 0) nofun, nofun,
      hfirst (by decide : _ = Stage.admitted 0) nofun, nofun, nofun,
      hfirst (by decide : _ = Stage.located 0) nofun, nofun, nofun,
      hfirst (by decide : _ = Stage.admitted 0) nofun, nofun, fun h _ _ _ => ?_, trivial⟩
    -- the one move that asks again: the second request has both permits
    refine .inr ⟨false, by decide, by decide, ?_⟩
    exact (after_sound hotUrl redirectedRun.dropLast false).not_awaitsOrigin (by decide)
  have hwaits : (after Bool 2 1 hotUrl redirectedRun).shared.Waits true := .inr ⟨0, by decide⟩
  have hlive := (admission_bounded_and_live Nat.two_pos Nat.one_pos hotUrl redirectedRun).2.2 hmeets
  exact ⟨⟨Nat.two_pos, Nat.one_pos⟩, hmeets, hwaits, hlive.1, hlive.2 ⟨true, hwaits⟩⟩

/-- With one permit of the client each request waits for what the other one has. -/
theorem redirect_waits_in_a_circle :
    (after Bool 1 1 hotUrl redirectedRun).shared.Stuck := by
  refine ⟨⟨true, .inl (by decide)⟩, fun i _ => ?_⟩
  cases i with
  | false => exact .inl (by decide)
  | true => exact .inr ⟨0, by decide⟩

end Lily.HttpClient.Admission
