import Lily.Shutdown.State

/-!
# One transition, and who learns of it

The call whose exchange finds the flag lowered makes the transition. Three invariants describe what
the others see of it: the write-once cell is written before any exchange (`Timed`), everything that
is read or returned afterwards names the signal of that call (`Decided`), and a call that lost the
exchange answers from what it found in `initial_signal` (`Action.answer`). The last of these is
where an answer can be wrong, since the signal is stored after the exchange.
-/

namespace Lily.Shutdown

open Transition Function

variable {s s' : ShutdownState} {locals : Nat → Phase} {log : List Action} {i : Nat}

/-! ## The instant of the first request -/

/-- The thread runs the initializer of the cell. -/
def Phase.initializes : Phase → Bool
  | .initializing _ | .measured _ _ => true
  | _ => false

/-- The thread has read the cell. -/
def Phase.started : Phase → Bool
  | .exchanging _ | .won _ _ | .lost _ => true
  | _ => false

/-- One task at a time sets the start, and never to a later time. -/
structure Timed (s : ShutdownState) (locals : Nat → Phase) : Prop where
  alone : ∀ i j, (locals i).initializes = true → (locals j).initializes = true → i = j
  locked : ∀ i, (locals i).initializes = true → s.initiationStartedAt = .initializing
  measured : ∀ i signal t, locals i = .measured signal t → t ≤ s.now
  past : ∀ t, s.initiationStartedAt = .set t → t ≤ s.now
  started : ∀ i, (locals i).started = true → ∃ t, s.initiationStartedAt = .set t

namespace Timed

theorem initial (ready : Bool) : Timed (.new ready) fun _ => .idle :=
  ⟨nofun, nofun, nofun, nofun, nofun⟩

variable (h : Timed s locals)

include h

/-- A move of a thread that does not touch the cell. -/
theorem quiet {phase : Phase} (hcell : s'.initiationStartedAt = s.initiationStartedAt)
    (hnow : s.now ≤ s'.now) (hinitializes : phase.initializes = true → phase = locals i)
    (hstarted : phase.started = true → ∃ t, s.initiationStartedAt = .set t) :
    Timed s' (update locals i phase) := by
  have hkept : ∀ j, (update locals i phase j).initializes = true →
      update locals i phase j = locals j :=
    (forall_update_iff locals fun j p => p.initializes = true → p = locals j).mpr
      ⟨hinitializes, fun _ _ _ => rfl⟩
  refine ⟨?_, ?_, ?_, ?_, ?_⟩
  · intro j k hj hk
    refine h.alone j k ?_ ?_
    · rwa [← hkept j hj]
    · rwa [← hkept k hk]
  · intro j hj
    rw [hcell]
    exact h.locked j (by rwa [← hkept j hj])
  · intro j signal t hj
    have hold : locals j = .measured signal t := by rw [← hkept j (by rw [hj]; rfl), hj]
    exact Nat.le_trans (h.measured j signal t hold) hnow
  · intro t ht
    exact Nat.le_trans (h.past t (hcell ▸ ht)) hnow
  · rw [hcell]
    exact (forall_update_iff locals fun _ p => p.started = true → _).mpr
      ⟨hstarted, fun j _ => h.started j⟩

/-- One thread enters the initializer, and the others have none to run. -/
theorem enter (hempty : s.initiationStartedAt = .empty) (signal : ShutdownSignal) :
    Timed { s with initiationStartedAt := .initializing }
      (update locals i (.initializing signal)) := by
  have hnone : ∀ j, ¬ (locals j).initializes = true := by
    intro j hj
    cases hempty.symm.trans (h.locked j hj)
  have honly : ∀ j, (update locals i (.initializing signal) j).initializes = true → j = i :=
    (forall_update_iff locals fun j p => p.initializes = true → j = i).mpr
      ⟨fun _ => rfl, fun j _ hj => absurd hj (hnone j)⟩
  refine ⟨fun j k hj hk => (honly j hj).trans (honly k hk).symm, fun _ _ => rfl, ?_, nofun, ?_⟩
  · intro j signal' t hj
    obtain rfl := honly j (by rw [hj]; rfl)
    rw [update_self] at hj
    cases hj
  · refine (forall_update_iff locals fun _ p => p.started = true → _).mpr ⟨nofun, fun j _ hj => ?_⟩
    obtain ⟨t, ht⟩ := h.started j hj
    cases hempty.symm.trans ht

variable {signal : ShutdownSignal} {step : WinnerStep}

/-- The thread in the initializer reads the clock. -/
theorem measure (hphase : locals i = .initializing signal) :
    Timed s (update locals i (.measured signal s.now)) := by
  have hsame : ∀ j, (update locals i (.measured signal s.now) j).initializes =
      (locals j).initializes :=
    (forall_update_iff locals fun j p => p.initializes = (locals j).initializes).mpr
      ⟨by rw [hphase]; rfl, fun _ _ => rfl⟩
  refine ⟨?_, ?_, ?_, h.past, ?_⟩
  · intro j k hj hk
    rw [hsame] at hj hk
    exact h.alone j k hj hk
  · intro j hj
    rw [hsame] at hj
    exact h.locked j hj
  · refine (forall_update_iff locals fun _ p => ∀ signal t, p = .measured signal t → t ≤ s.now).mpr
      ⟨?_, fun j _ => h.measured j⟩
    rintro _ _ ⟨⟩
    exact le_rfl
  · exact (forall_update_iff locals fun _ p => p.started = true → _).mpr
      ⟨nofun, fun j _ => h.started j⟩

/-- The thread in the initializer fills the cell, which is then never filled again. -/
theorem fill {t : Nat} (hphase : locals i = .measured signal t) :
    Timed { s with initiationStartedAt := .set t }
      (update locals i (.exchanging signal)) := by
  have hnone : ∀ j, ¬ (update locals i (.exchanging signal) j).initializes = true :=
    (forall_update_iff locals fun _ p => ¬ p.initializes = true).mpr
      ⟨nofun, fun j hij hj => hij (h.alone j i hj (by rw [hphase]; rfl))⟩
  refine ⟨fun j _ hj => absurd hj (hnone j), fun j hj => absurd hj (hnone j), ?_, ?_,
    fun _ _ => ⟨t, rfl⟩⟩
  · intro j signal' t' hj
    exact absurd (by rw [hj]; rfl) (hnone j)
  · rintro t' ⟨⟩
    exact h.measured i signal t hphase

theorem perform (hphase : locals i = .won signal step) :
    Timed (step.perform signal s).shared
      (update locals i (step.perform signal s).own) := by
  have hset := h.started i (by rw [hphase]; rfl)
  cases step with
  | publish =>
    cases hforce : signal.isForce
    all_goals
      simp only [WinnerStep.perform, hforce]
      exact h.quiet rfl le_rfl nofun fun _ => hset
  | publishForce newlyRequested =>
    cases newlyRequested <;> exact h.quiet rfl le_rfl nofun fun _ => hset
  | storeSignal | lowerReadiness | closeAdmission | exchangeForce | closeForced | setForcePhase =>
    exact h.quiet rfl le_rfl nofun fun _ => hset

theorem advance :
    Timed ((locals i).advance s).shared
      (update locals i ((locals i).advance s).own) := by
  cases hphase : locals i with
  | idle | reading | lost signal => exact h.quiet rfl le_rfl nofun nofun
  | starting signal =>
    cases hcell : s.initiationStartedAt with
    | empty =>
      simp only [Phase.advance, hcell]
      exact h.enter hcell signal
    | initializing =>
      simp only [Phase.advance, hcell]
      exact h.quiet rfl le_rfl nofun nofun
    | set t =>
      simp only [Phase.advance, hcell]
      exact h.quiet rfl le_rfl nofun fun _ => ⟨t, hcell⟩
  | initializing signal => exact h.measure hphase
  | measured signal t => exact h.fill hphase
  | exchanging signal =>
    have hset := h.started i (by rw [hphase]; rfl)
    simp only [Phase.advance]
    split <;> exact h.quiet rfl le_rfl nofun fun _ => hset
  | won signal step => exact h.perform hphase
  | receiving | awaiting seen =>
    simp only [Phase.advance]
    split <;> exact h.quiet rfl le_rfl nofun nofun

/-- A thread that is in no call enters one. -/
theorem call {phase : Phase} (hinitializes : phase.initializes = false)
    (hstarted : phase.started = false) :
    Timed s (update locals i (if locals i = .idle then phase else locals i)) := by
  split
  · exact h.quiet rfl le_rfl (by simp [hinitializes]) (by simp [hstarted])
  · exact h.quiet rfl le_rfl (fun _ => rfl) (h.started i)

theorem act (event : Event) :
    Timed (act event s (locals i)).shared
      (update locals i (act event s (locals i)).own) := by
  cases event with
  | initiateShutdown signal | initialSignal | recv => exact h.call rfl rfl
  | advance => exact h.advance
  | disconnected =>
    simp only [Shutdown.act]
    split
    · exact h.quiet rfl le_rfl nofun nofun
    · exact h.quiet rfl le_rfl (fun _ => rfl) (h.started i)
  | tick elapsed => exact h.quiet rfl (Nat.le_add_right _ _) (fun _ => rfl) (h.started i)

end Timed

/-! ## The signal of the transition -/

/-- The thread has made the transition and has not returned. -/
def Phase.isWon : Phase → Bool
  | .won _ _ => true
  | _ => false

/-- The thread has made its exchange and has not returned. -/
def Phase.exchanged : Phase → Bool
  | .won _ _ | .lost _ => true
  | _ => false

def Action.isInitiated : Action → Bool
  | .returned (.initiated _) => true
  | _ => false

/-- What can be observed without a transition. -/
def Action.Early : Action → Prop
  | .readInitialSignal value => value = none
  | .receiveError => True
  | _ => False

/-- What is observed names the signal of the transition, if it names the initial signal at all. -/
def Action.Agrees (signal : ShutdownSignal) (t : Nat) : Action → Prop
  | .transitioned signal' t' => signal' = signal ∧ t' = t
  | .consulted found _ => ∀ signal', found = some signal' → signal' = signal
  | .returned (.initiated signal') => signal' = signal
  | .returned (.alreadyInitiated _ _) => True
  | .readInitialSignal value => ∀ signal', value = some signal' → signal' = signal
  | .received signal' => signal' = signal
  | .receiveError => True

/-- Nobody has won the exchange yet. -/
structure Undecided (s : ShutdownState) (locals : Nat → Phase) (log : List Action) : Prop where
  flag : s.shutdownInitiated = false
  unsigned : s.initialSignal = none
  unsent : s.shutdownTx.value = none
  nobody : ∀ i, (locals i).exchanged = false
  early : ∀ a ∈ log, a.Early

/-- One task has won, and all that is published is its signal. -/
structure Decided (winner : Nat) (signal : ShutdownSignal) (t : Nat) (s : ShutdownState)
    (locals : Nat → Phase) (log : List Action) : Prop where
  flag : s.shutdownInitiated = true
  began : ∃ t₀, s.initiationStartedAt = .set t₀ ∧ t₀ ≤ t
  signed : ∀ signal', s.initialSignal = some signal' → signal' = signal
  sent : ∀ signal', s.shutdownTx.value = some signal' → signal' = signal
  only : ∀ i signal' step, locals i = .won signal' step → i = winner ∧ signal' = signal
  counted : log.countP Action.isInitiated + (if (locals winner).isWon then 1 else 0) = 1
  settled : (locals winner).isWon = false →
    s.initialSignal = some signal ∧ s.shutdownTx.value = some signal
  stored : ∀ step, locals winner = .won signal step →
    step = .storeSignal ∨ s.initialSignal = some signal
  published : ∀ step, locals winner = .won signal step →
    step = .storeSignal ∨ step = .lowerReadiness ∨ step = .closeAdmission ∨ step = .publish ∨
      s.shutdownTx.value = some signal
  transitioned : .transitioned signal t ∈ log
  agrees : ∀ a ∈ log, a.Agrees signal t

theorem Undecided.initial (ready : Bool) : Undecided (.new ready) (fun _ => .idle) [] :=
  ⟨rfl, rfl, rfl, fun _ => rfl, by simp⟩

namespace Undecided

theorem quiet (h : Undecided s locals log) {phase : Phase} {emitted : List Action}
    (hflag : s'.shutdownInitiated = s.shutdownInitiated)
    (hsignal : s'.initialSignal = s.initialSignal) (htx : s'.shutdownTx = s.shutdownTx)
    (hphase : phase.exchanged = false) (hemitted : ∀ a ∈ emitted, a.Early) :
    Undecided s' (update locals i phase) (log ++ emitted) := by
  refine ⟨hflag.trans h.flag, hsignal.trans h.unsigned, htx ▸ h.unsent, ?_, ?_⟩
  · exact (forall_update_iff locals fun _ p => p.exchanged = false).mpr
      ⟨hphase, fun j _ => h.nobody j⟩
  · exact List.forall_mem_append.mpr ⟨h.early, hemitted⟩

theorem uncounted (h : Undecided s locals log) : log.countP Action.isInitiated = 0 := by
  refine List.countP_eq_zero.mpr fun a ha => ?_
  have hearly := h.early a ha
  cases a <;> simp_all [Action.Early, Action.isInitiated]

/-- The exchange that finds the flag lowered decides. -/
theorem transition (h : Undecided s locals log) (htimed : Timed s locals) {signal : ShutdownSignal}
    (hphase : locals i = .exchanging signal) :
    Decided i signal s.now { s with shutdownInitiated := true }
      (update locals i (.won signal .storeSignal))
      (log ++ [.transitioned signal s.now]) := by
  have hother : ∀ j signal' step, locals j ≠ .won signal' step := by
    intro j signal' step hj
    have hnobody := h.nobody j
    rw [hj] at hnobody
    cases hnobody
  obtain ⟨t₀, hset⟩ := htimed.started i (by rw [hphase]; rfl)
  refine ⟨rfl, ⟨t₀, hset, htimed.past t₀ hset⟩, ?_, ?_, ?_, ?_, ?_, ?_, ?_, by simp, ?_⟩
  · intro signal' hsignal
    exact absurd (h.unsigned.symm.trans hsignal) (by simp)
  · intro signal' hsignal
    exact absurd (h.unsent.symm.trans hsignal) (by simp)
  · refine (forall_update_iff locals fun j p => ∀ signal' step, p = .won signal' step →
      j = i ∧ signal' = signal).mpr ⟨?_, fun j _ signal' step hj => absurd hj (hother j _ _)⟩
    rintro _ _ ⟨⟩
    exact ⟨rfl, rfl⟩
  · simp [h.uncounted, Phase.isWon, Action.isInitiated]
  · intro hwon
    simp [Phase.isWon] at hwon
  iterate 2
    · intro step hstep
      rw [update_self] at hstep
      cases hstep
      exact .inl rfl
  · refine List.forall_mem_append.mpr ⟨fun a ha => ?_, List.forall_mem_singleton.mpr ⟨rfl, rfl⟩⟩
    have hearly := h.early a ha
    cases a <;> simp_all [Action.Early, Action.Agrees]

end Undecided

variable {phase : Phase}

theorem Phase.isWon_iff : phase.isWon = true ↔ ∃ signal step, phase = .won signal step := by
  cases phase <;> simp [Phase.isWon]

theorem Phase.isWon_congr {phase' : Phase}
    (h : ∀ signal step, phase = .won signal step ↔ phase' = .won signal step) :
    phase.isWon = phase'.isWon := by
  rw [Bool.eq_iff_iff, isWon_iff, isWon_iff]
  simp only [h]

namespace Decided

variable {winner : Nat} {signal : ShutdownSignal} {t : Nat}

/-- A move that is not one of the call that made the transition. -/
theorem quiet (h : Decided winner signal t s locals log) {emitted : List Action}
    (hflag : s'.shutdownInitiated = s.shutdownInitiated)
    (hcell : ∀ t₀, s.initiationStartedAt = .set t₀ → s'.initiationStartedAt = .set t₀)
    (hsignal : s'.initialSignal = s.initialSignal) (htx : s'.shutdownTx = s.shutdownTx)
    (hphase : ∀ signal step, phase = .won signal step ↔ locals i = .won signal step)
    (hemitted : ∀ a ∈ emitted, a.isInitiated = false ∧ a.Agrees signal t) :
    Decided winner signal t s' (update locals i phase) (log ++ emitted) := by
  have hwon : ∀ j signal step, update locals i phase j = .won signal step ↔
      locals j = .won signal step :=
    (forall_update_iff locals fun j p => ∀ signal step, p = .won signal step ↔
      locals j = .won signal step).mpr ⟨hphase, fun _ _ _ _ => Iff.rfl⟩
  have hisWon : (update locals i phase winner).isWon = (locals winner).isWon :=
    Phase.isWon_congr (hwon winner)
  have hcount : emitted.countP Action.isInitiated = 0 :=
    List.countP_eq_zero.mpr fun a ha => by rw [(hemitted a ha).1]; simp
  obtain ⟨t₀, hset, hle⟩ := h.began
  refine ⟨hflag.trans h.flag, ⟨t₀, hcell t₀ hset, hle⟩, hsignal ▸ h.signed, htx ▸ h.sent, ?_, ?_,
    ?_, ?_, ?_, List.mem_append_left _ h.transitioned, ?_⟩
  · intro j signal' step hj
    exact h.only j signal' step ((hwon j signal' step).mp hj)
  · rw [List.countP_append, hcount, hisWon]
    exact h.counted
  · rw [hisWon, hsignal, htx]
    exact h.settled
  · intro step hstep
    rw [hsignal]
    exact h.stored step ((hwon winner signal step).mp hstep)
  · intro step hstep
    rw [htx]
    exact h.published step ((hwon winner signal step).mp hstep)
  · exact List.forall_mem_append.mpr ⟨h.agrees, fun a ha => (hemitted a ha).2⟩

variable {step : WinnerStep} (h : Decided winner signal t s locals log)

include h

/-- No other thread is past its exchange. -/
theorem only_update (hphase : ∀ signal' step, phase = .won signal' step → signal' = signal) :
    ∀ j signal' step, update locals winner phase j = .won signal' step →
      j = winner ∧ signal' = signal :=
  (forall_update_iff locals fun j p => ∀ signal' step, p = .won signal' step →
    j = winner ∧ signal' = signal).mpr
      ⟨fun signal' step hstep => ⟨rfl, hphase signal' step hstep⟩, fun j _ => h.only j⟩

/-- The call that made the transition goes on to a later step of its own. -/
theorem proceed {next : WinnerStep} (hphase : locals winner = .won signal step)
    (hflag : s'.shutdownInitiated = s.shutdownInitiated)
    (hcell : s'.initiationStartedAt = s.initiationStartedAt)
    (hsigned : ∀ signal', s'.initialSignal = some signal' → signal' = signal)
    (hsent : ∀ signal', s'.shutdownTx.value = some signal' → signal' = signal)
    (hstored : s'.initialSignal = some signal)
    (hpublished : next = .lowerReadiness ∨ next = .closeAdmission ∨ next = .publish ∨
      s'.shutdownTx.value = some signal) :
    Decided winner signal t s' (update locals winner (.won signal next)) (log ++ []) := by
  rw [List.append_nil]
  obtain ⟨t₀, hset, hle⟩ := h.began
  refine ⟨hflag.trans h.flag, ⟨t₀, hcell.trans hset, hle⟩, hsigned, hsent, h.only_update ?_, ?_,
    ?_, ?_, ?_, h.transitioned, h.agrees⟩
  · rintro _ _ ⟨⟩
    rfl
  · have hcounted := h.counted
    rw [hphase] at hcounted
    rw [update_self]
    exact hcounted
  · intro hwon
    rw [update_self] at hwon
    cases hwon
  · exact fun _ _ => .inr hstored
  · intro step' hstep
    rw [update_self] at hstep
    cases hstep
    exact .inr hpublished

/-- The call that made the transition returns. -/
theorem finish (hphase : locals winner = .won signal step)
    (hflag : s'.shutdownInitiated = s.shutdownInitiated)
    (hcell : s'.initiationStartedAt = s.initiationStartedAt)
    (hstored : s'.initialSignal = some signal) (hpublished : s'.shutdownTx.value = some signal) :
    Decided winner signal t s' (update locals winner .idle)
      (log ++ [.returned (.initiated signal)]) := by
  obtain ⟨t₀, hset, hle⟩ := h.began
  refine ⟨hflag.trans h.flag, ⟨t₀, hcell.trans hset, hle⟩, ?_, ?_, h.only_update nofun, ?_,
    fun _ => ⟨hstored, hpublished⟩, ?_, ?_, List.mem_append_left _ h.transitioned,
    List.forall_mem_append.mpr ⟨h.agrees, List.forall_mem_singleton.mpr rfl⟩⟩
  · intro signal' hsignal
    exact Option.some.inj (hsignal.symm.trans hstored)
  · intro signal' hsignal
    exact Option.some.inj (hsignal.symm.trans hpublished)
  · have hcounted := h.counted
    rw [hphase] at hcounted
    rw [update_self, List.countP_append]
    exact hcounted
  all_goals
    rw [update_self]
    exact nofun

theorem perform (hphase : locals winner = .won signal step) :
    Decided winner signal t (step.perform signal s).shared
      (update locals winner (step.perform signal s).own)
      (log ++ (step.perform signal s).emitted) := by
  have hstored := h.stored step hphase
  have hpublished := h.published step hphase
  cases step with
  | storeSignal =>
    refine h.proceed hphase rfl rfl ?_ h.sent rfl (.inl rfl)
    rintro signal' ⟨⟩
    rfl
  | lowerReadiness =>
    exact h.proceed hphase rfl rfl h.signed h.sent (hstored.resolve_left nofun) (.inr (.inl rfl))
  | closeAdmission =>
    refine h.proceed hphase rfl rfl h.signed h.sent (hstored.resolve_left nofun) ?_
    exact .inr (.inr (.inl rfl))
  | publish =>
    have hsigned := hstored.resolve_left nofun
    cases hforce : signal.isForce with
    | true =>
      simp only [WinnerStep.perform, hforce, if_true]
      refine h.proceed hphase rfl rfl h.signed ?_ hsigned (.inr (.inr (.inr rfl)))
      rintro signal' ⟨⟩
      rfl
    | false =>
      simp only [WinnerStep.perform, hforce]
      exact h.finish hphase rfl rfl hsigned rfl
  | exchangeForce | closeForced | setForcePhase =>
    have hsent : s.shutdownTx.value = some signal := by simpa using hpublished
    exact h.proceed hphase rfl rfl h.signed h.sent (hstored.resolve_left nofun)
      (.inr (.inr (.inr hsent)))
  | publishForce newlyRequested =>
    have hsent : s.shutdownTx.value = some signal := by simpa using hpublished
    cases newlyRequested <;> exact h.finish hphase rfl rfl (hstored.resolve_left nofun) hsent

theorem advance (htimed : Timed s locals) :
    Decided winner signal t ((locals i).advance s).shared
      (update locals i ((locals i).advance s).own)
      (log ++ ((locals i).advance s).emitted) := by
  have hfilled : s.initiationStartedAt ≠ .empty ∧ s.initiationStartedAt ≠ .initializing := by
    obtain ⟨t₀, hset, -⟩ := h.began
    rw [hset]
    exact ⟨nofun, nofun⟩
  cases hphase : locals i with
  | idle | exchanging requested =>
    simp only [Phase.advance, h.flag, if_true]
    exact h.quiet rfl (fun _ => id) rfl rfl (by simp [hphase]) (by simp)
  | starting requested =>
    cases hcell : s.initiationStartedAt with
    | empty => exact absurd hcell hfilled.1
    | initializing => exact absurd hcell hfilled.2
    | set t₀ =>
      simp only [Phase.advance, hcell]
      exact h.quiet rfl (fun _ => id) rfl rfl (by simp [hphase]) (by simp)
  | initializing requested | measured requested instant =>
    exact absurd (htimed.locked i (by rw [hphase]; rfl)) hfilled.2
  | won signal' step =>
    obtain ⟨rfl, rfl⟩ := h.only i signal' step hphase
    exact h.perform hphase
  | lost requested =>
    simp only [Phase.advance]
    refine h.quiet rfl (fun _ => id) rfl rfl (by simp [hphase]) ?_
    exact List.forall_mem_cons.mpr ⟨⟨rfl, h.signed⟩, List.forall_mem_singleton.mpr ⟨rfl, trivial⟩⟩
  | reading =>
    simp only [Phase.advance]
    refine h.quiet rfl (fun _ => id) rfl rfl (by simp [hphase]) ?_
    exact List.forall_mem_singleton.mpr ⟨rfl, h.signed⟩
  | receiving =>
    simp only [Phase.advance]
    split
    next signal' hvalue =>
      refine h.quiet rfl (fun _ => id) rfl rfl (by simp [hphase]) ?_
      exact List.forall_mem_singleton.mpr ⟨rfl, h.sent signal' hvalue⟩
    next => exact h.quiet rfl (fun _ => id) rfl rfl (by simp [hphase]) (by simp)
  | awaiting seen =>
    simp only [Phase.advance]
    split <;> exact h.quiet rfl (fun _ => id) rfl rfl (by simp [hphase]) (by simp)

theorem call (hphase : phase.isWon = false) :
    Decided winner signal t s
      (update locals i (if locals i = .idle then phase else locals i)) (log ++ []) := by
  refine h.quiet rfl (fun _ => id) rfl rfl ?_ (by simp)
  split
  next hidle => cases phase <;> simp_all [Phase.isWon]
  next => exact fun _ _ => Iff.rfl

theorem act (htimed : Timed s locals) (event : Event) :
    Decided winner signal t (act event s (locals i)).shared
      (update locals i (act event s (locals i)).own)
      (log ++ (act event s (locals i)).emitted) := by
  cases event with
  | initiateShutdown signal | initialSignal | recv => exact h.call rfl
  | advance => exact h.advance htimed
  | disconnected =>
    simp only [Shutdown.act]
    split
    next hphase =>
      exact h.quiet rfl (fun _ => id) rfl rfl (by simp [hphase])
        (by simp [Action.isInitiated, Action.Agrees])
    next => exact h.quiet rfl (fun _ => id) rfl rfl (fun _ _ => Iff.rfl) (by simp)
  | tick elapsed =>
    exact h.quiet rfl (fun _ => id) rfl rfl (fun _ _ => Iff.rfl) (List.forall_mem_nil _)

end Decided

/-- Nobody has made the transition, or one call has. -/
def Decision (s : ShutdownState) (locals : Nat → Phase) (log : List Action) : Prop :=
  Undecided s locals log ∨ ∃ winner signal t, Decided winner signal t s locals log

theorem Undecided.advance (h : Undecided s locals log) (htimed : Timed s locals) :
    Decision ((locals i).advance s).shared (update locals i ((locals i).advance s).own)
      (log ++ ((locals i).advance s).emitted) := by
  have hnobody := h.nobody i
  cases hphase : locals i with
  | idle => exact .inl (h.quiet rfl rfl rfl rfl (List.forall_mem_nil _))
  | starting signal | awaiting seen =>
    simp only [Phase.advance]
    split <;> exact .inl (h.quiet rfl rfl rfl rfl (by simp))
  | initializing signal | measured signal instant =>
    exact .inl (h.quiet rfl rfl rfl rfl (List.forall_mem_nil _))
  | exchanging signal =>
    simp only [Phase.advance, h.flag]
    exact .inr ⟨i, signal, s.now, h.transition htimed hphase⟩
  | won signal step | lost signal =>
    rw [hphase] at hnobody
    cases hnobody
  | reading =>
    simp only [Phase.advance, h.unsigned]
    exact .inl (h.quiet rfl rfl rfl rfl (by simp [Action.Early]))
  | receiving =>
    simp only [Phase.advance, h.unsent]
    exact .inl (h.quiet rfl rfl rfl rfl (by simp))

theorem Undecided.call (h : Undecided s locals log) (hphase : phase.exchanged = false) :
    Undecided s (update locals i (if locals i = .idle then phase else locals i))
      (log ++ []) := by
  refine h.quiet rfl rfl rfl ?_ (by simp)
  split
  · exact hphase
  · exact h.nobody i

theorem Undecided.act (h : Undecided s locals log) (htimed : Timed s locals) (event : Event) :
    Decision (act event s (locals i)).shared
      (update locals i (act event s (locals i)).own)
      (log ++ (act event s (locals i)).emitted) := by
  cases event with
  | initiateShutdown signal | initialSignal | recv => exact .inl (h.call rfl)
  | advance => exact h.advance htimed
  | disconnected =>
    simp only [Shutdown.act]
    split
    · exact .inl (h.quiet rfl rfl rfl rfl (by simp [Action.Early]))
    · exact .inl (h.quiet rfl rfl rfl (h.nobody i) (by simp))
  | tick elapsed => exact .inl (h.quiet rfl rfl rfl (h.nobody i) (List.forall_mem_nil _))

/-- A decision is made once and stays. -/
theorem Decision.act (h : Decision s locals log) (htimed : Timed s locals) (event : Event) :
    Decision (act event s (locals i)).shared
      (update locals i (act event s (locals i)).own)
      (log ++ (act event s (locals i)).emitted) := by
  rcases h with hnot | ⟨winner, signal, t, hdecided⟩
  · exact hnot.act htimed event
  · exact .inr ⟨winner, signal, t, hdecided.act htimed event⟩

/-! ## The answers of the calls that lost -/

/-- The two signals of an answer. -/
def Action.answer : Action → Option (ShutdownSignal × ShutdownSignal)
  | .returned (.alreadyInitiated initialSignal requestedSignal) =>
    some (initialSignal, requestedSignal)
  | _ => none

/-- The answer that follows from what was found. -/
def Action.consultation : Action → Option (ShutdownSignal × ShutdownSignal)
  | .consulted found requested => some (found.getD requested, requested)
  | _ => none

/-- A consultation is answered by what it found. -/
theorem act_answer (event : Event) (phase : Phase) :
    (act event s phase).emitted.filterMap Action.answer =
      (act event s phase).emitted.filterMap Action.consultation := by
  cases event with
  | initiateShutdown | initialSignal | recv | tick => rfl
  | disconnected => cases phase <;> rfl
  | advance =>
    cases phase with
    | idle | initializing | measured | lost | reading => rfl
    | starting | exchanging | receiving | awaiting =>
      simp only [act, Phase.advance]
      split <;> rfl
    | won signal step =>
      cases step with
      | publish =>
        simp only [act, Phase.advance, WinnerStep.perform]
        split <;> rfl
      | storeSignal | lowerReadiness | closeAdmission | exchangeForce | closeForced
      | setForcePhase | publishForce => rfl

/-! ## Runs -/

/-- The invariant of a run. Every consultation is answered by what it found. -/
structure Agreed (w : World Nat ShutdownState Phase Action) : Prop where
  timed : Timed w.shared w.locals
  decision : Decision w.shared w.locals w.actions
  answers : w.actions.filterMap Action.answer = w.actions.filterMap Action.consultation

theorem run_agreed (ready : Bool) (moves : List (Nat × Event)) :
    Agreed (machine.run (initial ready) moves) := by
  refine machine.run_induct ?_ ?_ moves
  · exact ⟨Timed.initial ready, .inl (Undecided.initial ready), rfl⟩
  · intro w i event h
    refine ⟨h.timed.act event, ?_, ?_⟩
    · rw [machine.step_actions]
      exact h.decision.act h.timed event
    · rw [machine.step_actions, List.filterMap_append, List.filterMap_append, h.answers]
      exact congrArg _ (act_answer event _)

variable {w : World Nat ShutdownState Phase Action}

theorem Agreed.decided (h : Agreed w)
    {signal : ShutdownSignal} {t : Nat} (htransitioned : .transitioned signal t ∈ w.actions) :
    ∃ winner, Decided winner signal t w.shared w.locals w.actions := by
  rcases h.decision with hnot | ⟨winner, signal', t', hdecided⟩
  · exact absurd (hnot.early _ htransitioned) not_false
  · obtain ⟨rfl, rfl⟩ := hdecided.agrees _ htransitioned
    exact ⟨winner, hdecided⟩

/-- Whoever lost the exchange answers the signal of the transition exactly if it found one in
`initial_signal` or had requested the same one. -/
theorem Agreed.answers_iff (h : Agreed w) {winner : Nat} {signal : ShutdownSignal} {t : Nat}
    (hdecided : Decided winner signal t w.shared w.locals w.actions) :
    (∀ initialSignal requested,
        .returned (.alreadyInitiated initialSignal requested) ∈ w.actions →
          initialSignal = signal) ↔
      ∀ requested, .consulted none requested ∈ w.actions → requested = signal := by
  have hanswer : ∀ initialSignal requested,
      .returned (.alreadyInitiated initialSignal requested) ∈ w.actions ↔
        ∃ found, .consulted found requested ∈ w.actions ∧ initialSignal = found.getD requested := by
    intro initialSignal requested
    have hleft : .returned (.alreadyInitiated initialSignal requested) ∈ w.actions ↔
        (initialSignal, requested) ∈ w.actions.filterMap Action.answer := by
      rw [List.mem_filterMap]
      refine ⟨fun hmem => ⟨_, hmem, rfl⟩, ?_⟩
      rintro ⟨a, hmem, ha⟩
      cases a with
      | returned result =>
        cases result <;> cases ha
        exact hmem
      | _ => cases ha
    rw [hleft, h.answers, List.mem_filterMap]
    constructor
    · rintro ⟨a, hmem, ha⟩
      cases a with
      | consulted found requested' =>
        cases ha
        exact ⟨found, hmem, rfl⟩
      | _ => cases ha
    · rintro ⟨found, hmem, rfl⟩
      exact ⟨_, hmem, rfl⟩
  constructor
  · intro hall requested hmem
    exact hall requested requested ((hanswer _ _).mpr ⟨none, hmem, rfl⟩)
  · intro hall initialSignal requested hmem
    obtain ⟨found, hfound, rfl⟩ := (hanswer _ _).mp hmem
    cases found with
    | none => exact hall requested hfound
    | some signal' => exact hdecided.agrees _ hfound signal' rfl

/-- One call makes the transition and returns `Initiated`, everyone who learns of it learns its
signal, and the start is not after it. The exception are the answers of the calls that lost. -/
theorem initiation_agreed (ready : Bool) (moves : List (Nat × Event)) :
    let w := machine.run (initial ready) moves
    (∀ a ∈ w.actions, ¬ a.Early → ∃ signal t, .transitioned signal t ∈ w.actions) ∧
    w.actions.countP Action.isInitiated ≤ 1 ∧
    ((∀ i, w.locals i = .idle) → (∃ result, .returned result ∈ w.actions) →
      w.actions.countP Action.isInitiated = 1) ∧
    ∀ signal t, .transitioned signal t ∈ w.actions →
      (∃ t₀, w.shared.initiationStartedAt = .set t₀ ∧ t₀ ≤ t) ∧
      (∀ signal', .returned (.initiated signal') ∈ w.actions → signal' = signal) ∧
      (∀ signal', .received signal' ∈ w.actions → signal' = signal) ∧
      (∀ signal', .readInitialSignal (some signal') ∈ w.actions → signal' = signal) ∧
      (w.actions.countP Action.isInitiated = 1 →
        w.shared.initialSignal = some signal ∧ w.shared.shutdownTx.value = some signal) ∧
      ((∀ initialSignal requested,
          .returned (.alreadyInitiated initialSignal requested) ∈ w.actions →
            initialSignal = signal) ↔
        ∀ requested, .consulted none requested ∈ w.actions → requested = signal) := by
  intro w
  have hagreed : Agreed w := run_agreed ready moves
  refine ⟨?_, ?_, ?_, ?_⟩
  · intro a ha hlate
    rcases hagreed.decision with hnot | ⟨winner, signal, t, hdecided⟩
    · exact absurd (hnot.early a ha) hlate
    · exact ⟨signal, t, hdecided.transitioned⟩
  · rcases hagreed.decision with hnot | ⟨winner, signal, t, hdecided⟩
    · rw [hnot.uncounted]
      exact Nat.zero_le 1
    · have hcounted := hdecided.counted
      omega
  · rintro hidle ⟨result, hresult⟩
    rcases hagreed.decision with hnot | ⟨winner, signal, t, hdecided⟩
    · exact absurd (hnot.early _ hresult) not_false
    · have hcounted := hdecided.counted
      rwa [hidle winner] at hcounted
  · intro signal t htransitioned
    obtain ⟨winner, hdecided⟩ := hagreed.decided htransitioned
    refine ⟨hdecided.began, fun signal' hmem => hdecided.agrees _ hmem,
      fun signal' hmem => hdecided.agrees _ hmem,
      fun signal' hmem => hdecided.agrees _ hmem signal' rfl, ?_, hagreed.answers_iff hdecided⟩
    intro hone
    have hcounted := hdecided.counted
    refine hdecided.settled (Bool.eq_false_iff.mpr fun hwon => ?_)
    rw [hone, hwon] at hcounted
    cases hcounted

/-- The first thread is between its exchange and its store of the signal when the second answers. -/
def overtaken : List (Nat × Event) :=
  (0, .initiateShutdown .terminate) :: List.replicate 4 (0, .advance) ++
    (1, .initiateShutdown .interrupt) :: List.replicate 3 (1, .advance)

theorem overtaken_answer :
    .transitioned .terminate 0 ∈ (machine.run (initial true) overtaken).actions ∧
      .returned (.alreadyInitiated .interrupt .interrupt) ∈
        (machine.run (initial true) overtaken).actions := by
  decide

end Lily.Shutdown
