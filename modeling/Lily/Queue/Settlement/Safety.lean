import Lily.Queue.Settlement.History

/-!
# At most one settlement of the original delivery

The authority is claimed once, by one materializer, and only that one issues broker
operations. Its history then bounds what it may do: one operation on the original
delivery, and an acknowledgement only for a successful execution or behind a
handoff that was confirmed where it was planned.
-/

namespace Lily.Queue.Settlement

open Transition.World

/-- The start of an operation that settles the original delivery. -/
@[simp] def Action.isOriginal : Action → Bool
  | .issued .handoff => false
  | .issued _ => true
  | _ => false

theorem isOriginal_operation (site : CallSite E) :
    (Action.issued site.operation).isOriginal = true := by
  cases site <;> rfl

/-! ## One history -/

def Phase.finished : Phase O E → Bool
  | .returned _ _ | .dropped _ => true
  | _ => false

section Trace

variable {job : Job} {phase : Phase O E} {site : CallSite E} {terminal : SettlementTerminal}
  {trace : List Action}

theorem Reached.count_claimed (h : Reached job site trace) : trace.count .claimed = 1 := by
  cases h with
  | handoffFailed issued => cases issued <;> rfl
  | handoffConfirmed => simp
  | _ => rfl

theorem Reached.no_original (h : Reached job site trace) : ∀ a ∈ trace, a.isOriginal = false := by
  cases h with
  | handoffFailed issued => cases issued <;> simp [issuedIf]
  | _ => simp

theorem Concluded.count_claimed (h : Concluded E job terminal trace) :
    trace.count .claimed = 1 := by
  cases h with
  | untouched => rfl
  | handoffOpen issued => cases issued <;> rfl
  | mismatched => simp
  | unaccepted issued reached =>
    cases issued <;> simp [issuedIf, reached.count_claimed]
  | accepted reached => simp [reached.count_claimed]

/-- An open history is that of an unresolved lease; a finished one ends with its terminal. -/
theorem Progress.history (h : Progress job phase trace) :
    trace = [] ∨ ∃ terminal before, Concluded E job terminal before ∧
      trace = before ++ if phase.finished then [.observed (.terminal terminal)] else [] := by
  cases h with
  | created | refused | unclaimed => exact .inl rfl
  | claimed => exact .inr ⟨_, _, .untouched, rfl⟩
  | handoff pending issued => exact .inr ⟨_, _, .handoffOpen issued, (List.append_nil _).symm⟩
  | original reached started issued =>
    exact .inr ⟨_, _, .unaccepted issued reached, (List.append_nil _).symm⟩
  | returned state concluded | abandoned state concluded => exact .inr ⟨_, _, concluded, rfl⟩

/-- A history has one claim, or nothing happened in it. -/
theorem Progress.count_claimed (h : Progress job phase trace) :
    trace = [] ∨ trace.count .claimed = 1 := by
  rcases h.history with rfl | ⟨terminal, before, concluded, rfl⟩
  · exact .inl rfl
  · split_ifs <;> simp [concluded.count_claimed]

theorem Progress.claimed_mem (h : Progress job phase trace) {a : Action} (ha : a ∈ trace) :
    .claimed ∈ trace := by
  rcases h.count_claimed with rfl | hcount
  · simp at ha
  · exact List.count_pos_iff.mp (by omega)

/-- A history in which the original delivery is settled at most once, and then by an
operation of a call site that was reached. -/
def SettlesOnce (E : Type) (job : Job) (trace : List Action) : Prop :=
  (∀ a ∈ trace, a.isOriginal = false) ∨
    ∃ (site : CallSite E) (before after : List Action), Reached job site before ∧
      trace = before ++ .issued site.operation :: after ∧ ∀ a ∈ after, a.isOriginal = false

theorem SettlesOnce.append {rest : List Action} (h : SettlesOnce E job trace)
    (hrest : ∀ a ∈ rest, a.isOriginal = false) : SettlesOnce E job (trace ++ rest) := by
  rcases h with hnone | ⟨site, before, after, reached, rfl, hafter⟩
  · exact .inl fun a ha => (List.mem_append.mp ha).elim (hnone a) (hrest a)
  · refine .inr ⟨site, before, after ++ rest, reached, by simp, ?_⟩
    exact fun a ha => (List.mem_append.mp ha).elim (hafter a) (hrest a)

theorem Reached.settlesOnce (h : Reached job site trace) (issued : Bool) :
    SettlesOnce E job (trace ++ issuedIf issued site.operation) := by
  cases issued with
  | true => exact .inr ⟨site, trace, [], h, rfl, by simp⟩
  | false => exact .inl (by simpa [issuedIf] using h.no_original)

theorem Concluded.settlesOnce (h : Concluded E job terminal trace) : SettlesOnce E job trace := by
  cases h with
  | untouched | mismatched => exact .inl (by simp)
  | handoffOpen issued => cases issued <;> exact .inl (by simp [issuedIf])
  | unaccepted issued reached => exact reached.settlesOnce issued
  | @accepted _ site before reached =>
    have hreply : ∀ a ∈ [Action.accepted site.operation], a.isOriginal = false := by simp
    simpa [issuedIf] using (reached.settlesOnce true).append hreply

theorem Progress.settlesOnce (h : Progress job phase trace) : SettlesOnce E job trace := by
  rcases h.history with rfl | ⟨terminal, before, concluded, rfl⟩
  · exact .inl (by simp)
  · exact concluded.settlesOnce.append (by split_ifs <;> simp)

theorem SettlesOnce.countP_le (h : SettlesOnce E job trace) :
    trace.countP Action.isOriginal ≤ 1 := by
  rcases h with hnone | ⟨site, before, after, reached, rfl, hafter⟩
  · rw [List.countP_eq_zero.mpr (by simpa using hnone)]
    omega
  · have hbefore : before.countP Action.isOriginal = 0 :=
      List.countP_eq_zero.mpr (by simpa using reached.no_original)
    have hafter : after.countP Action.isOriginal = 0 :=
      List.countP_eq_zero.mpr (by simpa using hafter)
    rw [List.countP_append, List.countP_cons_of_pos (isOriginal_operation site), hbefore, hafter]

theorem SettlesOnce.ack_reason {earlier later : List Action} (h : SettlesOnce E job trace)
    (hack : trace = earlier ++ .issued .ack :: later) :
    (∃ count attempts, job = .delivery .success count attempts) ∨
      ∃ failureClass code count attempts receipt,
        job = .delivery (.failure failureClass code) count attempts ∧
        .received receipt ∈ earlier ∧
        receipt.destination =
          (HandoffPlan.forFailure failureClass code count attempts).destination := by
  rcases h with hnone | ⟨site, before, after, reached, rfl, hafter⟩
  · have habsurd := hnone (.issued .ack) (by simp [hack])
    exact absurd habsurd (by decide)
  · have hbefore : Action.issued .ack ∉ before := fun hmem =>
      absurd (reached.no_original _ hmem) (by decide)
    have hafter : Action.issued .ack ∉ after := fun hmem => absurd (hafter _ hmem) (by decide)
    obtain ⟨rfl, hoperation, -⟩ := (List.append_cons_inj_of_notMem hbefore hafter).mp hack
    cases reached with
    | success => exact .inl ⟨_, _, rfl⟩
    | handoffConfirmed planned => exact .inr ⟨_, _, _, _, _, rfl, by simp, planned⟩
    | requeueDeferred | handoffFailed | brokerDeadLetter => simp [CallSite.operation] at hoperation

theorem Reached.received_unique (h : Reached job site trace) {receipt receipt' : HandoffReceipt}
    (hmem : .received receipt ∈ trace) (hmem' : .received receipt' ∈ trace) :
    receipt = receipt' := by
  cases h with
  | handoffFailed issued => cases issued <;> simp [issuedIf] at hmem
  | handoffConfirmed => simp_all
  | _ => simp at hmem

theorem Concluded.received_unique (h : Concluded E job terminal trace)
    {receipt receipt' : HandoffReceipt} (hmem : .received receipt ∈ trace)
    (hmem' : .received receipt' ∈ trace) : receipt = receipt' := by
  cases h with
  | untouched => simp at hmem
  | handoffOpen issued => cases issued <;> simp [issuedIf] at hmem
  | mismatched => simp_all
  | unaccepted issued reached =>
    cases issued <;>
      exact reached.received_unique (by simpa [issuedIf] using hmem)
        (by simpa [issuedIf] using hmem')
  | accepted reached => exact reached.received_unique (by simpa using hmem) (by simpa using hmem')

theorem Progress.received_unique (h : Progress job phase trace)
    {receipt receipt' : HandoffReceipt} (hmem : .received receipt ∈ trace)
    (hmem' : .received receipt' ∈ trace) : receipt = receipt' := by
  rcases h.history with rfl | ⟨terminal, before, concluded, rfl⟩
  · simp at hmem
  · split_ifs at hmem hmem' <;>
      exact concluded.received_unique (by simpa using hmem) (by simpa using hmem')

/-- Framework cancellation leaves the broker alone. -/
theorem Progress.no_issue_of_frameworkCancelled {count attempts : Nat}
    (h : Progress (.delivery .frameworkCancelled count attempts) phase trace)
    (operation : SettlementOperation) : .issued operation ∉ trace := by
  rcases h.history with rfl | ⟨terminal, before, concluded, rfl⟩
  · simp
  · cases concluded with
    | untouched => split_ifs <;> simp
    | unaccepted issued reached | accepted reached => cases reached

end Trace

/-! ## The authority is claimed once -/

section Authority

variable {observer : SettlementObserver O} {job : Job} {event : Event E}
  {authority : SettlementAuthority} {m : Materializer O E} {trace : List Action}

/-- A claim is the first action of its materializer, and takes an available authority. -/
theorem claimed_emitted (h : Progress job m.phase trace)
    (hmem : .claimed ∈ (act observer job event authority m).emitted) :
    authority = .available ∧ (act observer job event authority m).shared = .consumed := by
  obtain ⟨cancelled, phase⟩ := m
  rcases h.count_claimed with hnil | hcount
  · cases h with
    | created state =>
      cases event with
      | claim => cases authority <;> simp_all [act]
      | _ => simp [act, dropFuture] at hmem
    | refused state | unclaimed state => cases event <;> simp [act, dropFuture] at hmem
    | original reached started issued =>
      simp only [List.append_eq_nil_iff] at hnil
      simpa [hnil.1] using reached.count_claimed
    | _ => simp at hnil
  · -- A second claim would show in the extended history.
    have hnext : Progress job (act observer job event authority _).own.phase _ :=
      progress_act observer h
    have hpos := List.count_pos_iff.mpr hmem
    rcases hnext.count_claimed with hnil | htotal
    · simp_all
    · rw [List.count_append] at htotal
      omega

theorem act_shared_consumed : (act observer job event .consumed m).shared = .consumed := by
  obtain ⟨cancelled, phase⟩ := m
  cases event <;> cases phase <;> rfl

/-- Only one materializer has claimed the authority, and none while it is available. -/
structure Exclusive [DecidableEq ι] (jobs : ι → Job)
    (world : Transition.World ι SettlementAuthority (Materializer O E) Action) : Prop where
  progress : ∀ i, Progress (jobs i) (world.locals i).phase (world.logOf i)
  available : world.shared = .available → ∀ i, (i, .claimed) ∉ world.log
  unique : ∀ i j, (i, .claimed) ∈ world.log → (j, .claimed) ∈ world.log → i = j

/-- The authority goes from available to consumed once. -/
theorem exclusive_step [DecidableEq ι] {jobs : ι → Job}
    {world : Transition.World ι SettlementAuthority (Materializer O E) Action}
    (h : Exclusive jobs world) (k : ι) (event : Event E) :
    Exclusive jobs ((settlement observer jobs).step world (k, event)) := by
  have hclaimed (i : ι) (hmem : (i, .claimed) ∈ ((settlement observer jobs).step world
      (k, event)).log) : (i, .claimed) ∈ world.log ∨ i = k ∧ world.shared = .available ∧
        ((settlement observer jobs).step world (k, event)).shared = .consumed := by
    rw [Transition.Machine.step_log, List.mem_append, List.mem_map] at hmem
    rcases hmem with hold | ⟨a, ha, heq⟩
    · exact .inl hold
    · obtain ⟨rfl, rfl⟩ := Prod.mk.inj heq
      exact .inr ⟨rfl, claimed_emitted (h.progress k) ha⟩
  refine ⟨?_, ?_, ?_⟩
  · exact fun i => (settlement observer jobs).step_each i
      (I := fun i task => Progress (jobs i) (Materializer.phase task))
      (progress_act observer (h.progress k)) fun i _ => h.progress i
  · intro havailable i hmem
    have hbefore : world.shared = .available := by
      cases hshared : world.shared with
      | available => rfl
      | consumed =>
        rw [Transition.Machine.step_shared, hshared] at havailable
        exact absurd (act_shared_consumed.symm.trans havailable) (by decide)
    rcases hclaimed i hmem with hold | ⟨-, -, hconsumed⟩
    · exact h.available hbefore i hold
    · exact absurd (hconsumed.symm.trans havailable) (by decide)
  · intro i j hi hj
    rcases hclaimed i hi with hold | ⟨rfl, havailable, -⟩
    · rcases hclaimed j hj with hold' | ⟨rfl, havailable, -⟩
      · exact h.unique i j hold hold'
      · exact absurd hold (h.available havailable i)
    · rcases hclaimed j hj with hold' | ⟨rfl, -, -⟩
      · exact absurd hold' (h.available havailable j)
      · rfl

theorem exclusive_run [DecidableEq ι] (observer : SettlementObserver O) (jobs : ι → Job)
    (observers : ι → O) (cancelled : ι → Bool) (moves : List (ι × Event E)) :
    Exclusive jobs ((settlement observer jobs).run (initial observers cancelled) moves) := by
  have hstart : Exclusive jobs (initial (E := E) observers cancelled) :=
    ⟨fun i => .created (observers i), by simp [initial], by simp [initial]⟩
  exact (settlement observer jobs).run_induct hstart
    (fun _ k event h => exclusive_step h k event) moves

theorem Exclusive.claimed [DecidableEq ι] {jobs : ι → Job}
    {world : Transition.World ι SettlementAuthority (Materializer O E) Action}
    (h : Exclusive jobs world) {i : ι} {a : Action} (ha : (i, a) ∈ world.log) :
    (i, .claimed) ∈ world.log :=
  mem_logOf.mp
    ((h.progress i).claimed_mem (mem_logOf.mpr ha))

end Authority

/-! ## A cancelled token -/

section Cancelled

variable {observer : SettlementObserver O} {job : Job} {lease : SettlementLease O}

theorem report_emitted {terminal : SettlementTerminal}
    {failure secondaryFailure : Option (SettlementFailure E)} {operation : SettlementOperation} :
    .issued operation ∉ (report observer lease terminal failure secondaryFailure).2 := by
  simp only [report, SettlementLease.finish]
  split_ifs <;> simp

theorem conclude_emitted {site : CallSite E} {failure : SettlementFailure E}
    {operation : SettlementOperation} :
    .issued operation ∉ (conclude observer lease site (.error failure)).2 := by
  cases site with
  | handoffConfirmed receipt => cases receipt <;> exact report_emitted
  | _ => exact report_emitted

/-- A materializer whose token is cancelled starts nothing, and stays cancelled. -/
theorem act_cancelled {event : Event E} {authority : SettlementAuthority} {m : Materializer O E}
    (hcancelled : m.cancelled = true) :
    (act observer job event authority m).own.cancelled = true ∧
      ∀ operation, .issued operation ∉ (act observer job event authority m).emitted := by
  obtain ⟨cancelled, phase⟩ := m
  subst hcancelled
  have hdrop (lease : SettlementLease O) (operation : SettlementOperation) :
      .issued operation ∉ (lease.drop observer).2 := by
    simp only [SettlementLease.drop, SettlementLease.finish]
    split_ifs <;> simp
  cases event with
  | cancel => simp [act]
  | claim =>
    cases phase with
    | created state => cases authority <;> simp [act]
    | _ => simp [act]
  | proceed =>
    cases phase with
    | claimed lease =>
      refine ⟨rfl, fun operation => ?_⟩
      cases job <;> simp only [act, proceed, or_true, if_true] <;> exact report_emitted
    | _ => simp [act]
  | pollHandoff poll =>
    cases phase with
    | handoff lease plan issued =>
      refine ⟨rfl, fun operation => ?_⟩
      simpa [act, pollHandoff, boundedOperation, issue, afterHandoff,
        SettlementFailure.classified] using report_emitted
    | _ => simp [act]
  | pollOriginal poll =>
    cases phase with
    | original lease site issued =>
      refine ⟨rfl, fun operation => ?_⟩
      simpa [act, pollOriginal, boundedOperation, issue, acceptance] using conclude_emitted
    | _ => simp [act]
  | drop => cases phase <;> simp [act, dropFuture, hdrop]

theorem cancelled_run [DecidableEq ι] (observer : SettlementObserver O) (jobs : ι → Job)
    (observers : ι → O) (cancelled : ι → Bool) (moves : List (ι × Event E)) (i : ι)
    (hcancelled : cancelled i = true) (operation : SettlementOperation) :
    (i, .issued operation) ∉
      ((settlement observer jobs).run (initial observers cancelled) moves).log := by
  have hrun := (settlement observer jobs).run_each
    (I := fun i _ m trace => cancelled i = true →
      m.cancelled = true ∧ ∀ operation, .issued operation ∉ trace)
    (w := initial observers cancelled) ?_ ?_ ?_ moves i hcancelled
  · exact fun hmem => hrun.2 operation (mem_logOf.mpr hmem)
  · exact fun i hi => ⟨hi, fun operation => by simp [initial, logOf]⟩
  · intro i event authority m trace h hi
    obtain ⟨hm, htrace⟩ := h hi
    refine ⟨(act_cancelled hm).1, fun operation hmem => ?_⟩
    rcases List.mem_append.mp hmem with hold | hnew
    · exact htrace operation hold
    · exact (act_cancelled hm).2 operation hnew
  · exact fun _ _ _ _ _ _ _ _ _ h _ => h

end Cancelled

/-- Any number of materializers of one delivery, in every interleaving, dropped at any
suspension and against every behaviour of the port, settle the original delivery at
most once, and acknowledge it only with a reason. -/
theorem settlement_at_most_once [DecidableEq ι] (observer : SettlementObserver O)
    (jobs : ι → Job) (observers : ι → O) (cancelled : ι → Bool) (moves : List (ι × Event E)) :
    let world := (settlement observer jobs).run (initial observers cancelled) moves
    world.log.countP (fun entry => entry.2.isOriginal) ≤ 1 ∧
    (∀ before after i, world.log = before ++ (i, .issued .ack) :: after →
      (∃ count attempts, jobs i = .delivery .success count attempts) ∨
        ∃ failureClass code count attempts receipt,
          jobs i = .delivery (.failure failureClass code) count attempts ∧
          (i, .received receipt) ∈ before ∧
          receipt.destination =
            (HandoffPlan.forFailure failureClass code count attempts).destination) ∧
    (∀ i operation, (cancelled i = true ∨
        ∃ count attempts, jobs i = .delivery .frameworkCancelled count attempts) →
      (i, .issued operation) ∉ world.log ∧
        ((i, .claimed) ∈ world.log → ∀ j, (j, .issued operation) ∉ world.log)) ∧
    (∀ i failureClass code count attempts receipt,
      jobs i = .delivery (.failure failureClass code) count attempts →
      (i, .received receipt) ∈ world.log →
      receipt.destination ≠
        (HandoffPlan.forFailure failureClass code count attempts).destination →
      ∀ j, (j, .issued .ack) ∉ world.log) := by
  intro world
  have hworld : Exclusive jobs world := exclusive_run observer jobs observers cancelled moves
  have howner {i j : ι} {a b : Action} (ha : (i, a) ∈ world.log) (hb : (j, b) ∈ world.log) :
      i = j :=
    hworld.unique i j (hworld.claimed ha) (hworld.claimed hb)
  refine ⟨?_, ?_, ?_, ?_⟩
  · -- All operations are in the history of one owner, if there is one.
    by_cases hnone : world.log = []
    · simp [hnone]
    · obtain ⟨⟨i, a⟩, hentry⟩ := List.exists_mem_of_ne_nil _ hnone
      rw [countP_logOf fun j b hb _ => howner hb hentry]
      exact (hworld.progress i).settlesOnce.countP_le
  · intro before after i hsplit
    obtain ⟨earlier, later, htrace, hearlier⟩ := logOf_split hsplit
    rcases (hworld.progress i).settlesOnce.ack_reason htrace with hsuccess | hconfirmed
    · exact .inl hsuccess
    · obtain ⟨failureClass, code, count, attempts, receipt, hjob, hmem, hplanned⟩ := hconfirmed
      exact .inr ⟨failureClass, code, count, attempts, receipt, hjob, hearlier _ hmem, hplanned⟩
  · intro i operation hcancelled
    have hown : (i, .issued operation) ∉ world.log := by
      rcases hcancelled with htoken | ⟨count, attempts, hjob⟩
      · exact cancelled_run observer jobs observers cancelled moves i htoken operation
      · intro hmem
        have hprogress := hworld.progress i
        rw [hjob] at hprogress
        exact hprogress.no_issue_of_frameworkCancelled operation
          (mem_logOf.mpr hmem)
    refine ⟨hown, fun hclaimed j hmem => hown ?_⟩
    rwa [howner hclaimed hmem]
  · intro i failureClass code count attempts receipt hjob hreceived hunplanned j hack
    obtain rfl := howner hreceived hack
    obtain ⟨earlier, later, htrace⟩ :=
      List.append_of_mem (mem_logOf.mpr hack)
    rcases (hworld.progress i).settlesOnce.ack_reason htrace with hsuccess | hconfirmed
    · obtain ⟨count', attempts', hjob'⟩ := hsuccess
      simp [hjob] at hjob'
    · obtain ⟨_, _, _, _, receipt', hjob', hmem, hplanned⟩ := hconfirmed
      have hsame : receipt = receipt' := (hworld.progress i).received_unique
        (mem_logOf.mpr hreceived) (by rw [htrace]; simp [hmem])
      obtain ⟨⟨rfl, rfl⟩, rfl, rfl⟩ := by simpa [hjob] using hjob'
      exact hunplanned (hsame ▸ hplanned)

end Lily.Queue.Settlement
