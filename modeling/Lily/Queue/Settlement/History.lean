import Lily.Queue.Settlement.Materializer

/-!
# The histories of a materializer

`Progress` says, for each suspension point, exactly which actions a materializer
has performed when it stands there.
-/

namespace Lily.Queue.Settlement

/-- The start of an operation, if it has been started. -/
def issuedIf (issued : Bool) (operation : SettlementOperation) : List Action :=
  if issued then [.issued operation] else []

theorem issuedIf_append_issue (operation : SettlementOperation) (cancelled issued : Bool)
    (poll : Poll T E) :
    issuedIf issued operation ++ issue operation cancelled issued poll =
      issuedIf (nowIssued cancelled issued poll) operation := by
  cases issued <;> cases cancelled <;> cases h : poll.reaches <;>
    simp [issuedIf, issue, nowIssued, h]

/-- The terminal that a caller reports when its operation is accepted. -/
def CallSite.terminal : CallSite E → SettlementTerminal
  | .requeueDeferred => .nackRequeue
  | .success => .ackedSuccess
  | .handoffFailed _ => .nackRequeue
  | .handoffConfirmed .retryConfirmed => .ackedRetry
  | .handoffConfirmed .deadLetterConfirmed => .ackedDeadLetter
  | .brokerDeadLetter => .nackDeadLetter

/-- How a job comes to settle the original delivery, and what it has done by then. -/
inductive Reached {E : Type} : Job → CallSite E → List Action → Prop where
  | requeueDeferred {code : String} {count attempts : Nat} :
      Reached (.delivery (.requeueDeferred code) count attempts) .requeueDeferred [.claimed]
  | success {count attempts : Nat} :
      Reached (.delivery .success count attempts) .success [.claimed]
  | handoffFailed {failureClass : FailureClass} {code : String} {count attempts : Nat}
      {failure : SettlementFailure E} (issued : Bool) :
      Reached (.delivery (.failure failureClass code) count attempts) (.handoffFailed failure)
        (.claimed :: issuedIf issued .handoff)
  | handoffConfirmed {failureClass : FailureClass} {code : String} {count attempts : Nat}
      {receipt : HandoffReceipt}
      (planned : receipt.destination =
        (HandoffPlan.forFailure failureClass code count attempts).destination) :
      Reached (.delivery (.failure failureClass code) count attempts) (.handoffConfirmed receipt)
        [.claimed, .issued .handoff, .received receipt, .observed (.handoffConfirmed receipt)]
  | brokerDeadLetter : Reached .brokerDeadLetter .brokerDeadLetter [.claimed]

/-- What a job has done when its lease ends with the given terminal. -/
inductive Concluded (E : Type) : Job → SettlementTerminal → List Action → Prop where
  | untouched {job : Job} : Concluded E job .unresolved [.claimed]
  | handoffOpen {failureClass : FailureClass} {code : String} {count attempts : Nat}
      (issued : Bool) :
      Concluded E (.delivery (.failure failureClass code) count attempts) .unresolved
        (.claimed :: issuedIf issued .handoff)
  | mismatched {failureClass : FailureClass} {code : String} {count attempts : Nat}
      {receipt : HandoffReceipt}
      (unplanned : receipt.destination ≠
        (HandoffPlan.forFailure failureClass code count attempts).destination) :
      Concluded E (.delivery (.failure failureClass code) count attempts) .unresolved
        [.claimed, .issued .handoff, .received receipt]
  | unaccepted {job : Job} {site : CallSite E} {trace : List Action} (issued : Bool)
      (reached : Reached job site trace) :
      Concluded E job .unresolved (trace ++ issuedIf issued site.operation)
  | accepted {job : Job} {site : CallSite E} {trace : List Action}
      (reached : Reached job site trace) :
      Concluded E job site.terminal
        (trace ++ [.issued site.operation, .accepted site.operation])

/-- The actions that belong to each phase. -/
inductive Progress {O E : Type} : Job → Phase O E → List Action → Prop where
  | created {job : Job} (state : O) : Progress job (.created state) []
  | claimed {job : Job} {lease : SettlementLease O} (pending : lease.state = .pending) :
      Progress job (.claimed lease) [.claimed]
  | handoff {failureClass : FailureClass} {code : String} {count attempts : Nat}
      {lease : SettlementLease O} (pending : lease.state = .pending) (issued : Bool) :
      Progress (.delivery (.failure failureClass code) count attempts)
        (.handoff lease (.forFailure failureClass code count attempts) issued)
        (.claimed :: issuedIf issued .handoff)
  | original {job : Job} {lease : SettlementLease O} {site : CallSite E} {trace : List Action}
      (reached : Reached job site trace)
      (started : lease.state = .originalSettlementStarted site.operation) (issued : Bool) :
      Progress job (.original lease site issued) (trace ++ issuedIf issued site.operation)
  | refused {job : Job} (state : O) : Progress job (.returned state refusal) []
  | unclaimed {job : Job} (state : O) : Progress job (.dropped state) []
  | returned {job : Job} {report : SettlementReport E} {trace : List Action} (state : O)
      (concluded : Concluded E job report.terminal trace) :
      Progress job (.returned state report) (trace ++ [.observed (.terminal report.terminal)])
  | abandoned {job : Job} {trace : List Action} (state : O)
      (concluded : Concluded E job .unresolved trace) :
      Progress job (.dropped state) (trace ++ [.observed (.terminal .unresolved)])

section Steps

variable (observer : SettlementObserver O) {job : Job} {lease : SettlementLease O}
  {trace : List Action}

theorem report_progress {terminal : SettlementTerminal}
    {failure secondaryFailure : Option (SettlementFailure E)}
    (hlease : lease.isTerminal = false) (h : Concluded E job terminal trace) :
    Progress job (report observer lease terminal failure secondaryFailure).1
      (trace ++ (report observer lease terminal failure secondaryFailure).2) := by
  simp only [report, SettlementLease.finish, hlease, Bool.false_eq_true, if_false]
  exact .returned _ h

theorem drop_progress (hlease : lease.isTerminal = false) (h : Concluded E job .unresolved trace) :
    Progress job (.dropped (lease.drop observer).1.observer : Phase O E)
      (trace ++ (lease.drop observer).2) := by
  simp only [SettlementLease.drop, SettlementLease.finish, hlease, Bool.false_eq_true, if_false]
  exact .abandoned _ h

theorem isTerminal_of_pending (h : lease.state = .pending) : lease.isTerminal = false := by
  simp [SettlementLease.isTerminal, h]

theorem isTerminal_of_started {operation : SettlementOperation}
    (h : lease.state = .originalSettlementStarted operation) : lease.isTerminal = false := by
  simp [SettlementLease.isTerminal, h]

variable {site : CallSite E}

/-- Every caller reports its own terminal for an accepted operation. -/
theorem conclude_accepted (hlease : lease.isTerminal = false)
    (h : Concluded E job site.terminal trace) :
    Progress job (conclude observer lease site (.ok ())).1
      (trace ++ (conclude observer lease site (.ok ())).2) := by
  cases site with
  | requeueDeferred | success | handoffFailed failure | brokerDeadLetter =>
    exact report_progress observer hlease h
  | handoffConfirmed receipt => cases receipt <;> exact report_progress observer hlease h

theorem conclude_failed {failure : SettlementFailure E} (hlease : lease.isTerminal = false)
    (h : Concluded E job .unresolved trace) :
    Progress job (conclude observer lease site (.error failure)).1
      (trace ++ (conclude observer lease site (.error failure)).2) := by
  cases site with
  | handoffConfirmed receipt => cases receipt <;> exact report_progress observer hlease h
  | _ => exact report_progress observer hlease h

theorem originalSettlement_progress {lease : SettlementLease O} {trace : List Action}
    (hlease : lease.state = .pending) (h : Reached job site trace) :
    Progress job (originalSettlement observer lease site).1
      (trace ++ (originalSettlement observer lease site).2) := by
  simp only [originalSettlement, SettlementLease.beginOriginal, hlease, ne_eq, not_true,
    if_false]
  have hstarted : { lease with state := .originalSettlementStarted site.operation }.state =
      .originalSettlementStarted site.operation := rfl
  exact .original h hstarted false

variable {cancelled : Bool}

theorem proceed_progress (hlease : lease.state = .pending) :
    Progress job (proceed observer job cancelled lease : Phase O E × List Action).1
      ([.claimed] ++ (proceed observer job cancelled lease : Phase O E × List Action).2) := by
  have hopen := isTerminal_of_pending hlease
  cases job with
  | delivery outcome count attempts =>
    simp only [proceed]
    split_ifs with hcancelled
    · exact report_progress observer hopen .untouched
    · cases outcome with
      | success => exact originalSettlement_progress observer hlease .success
      | failure failureClass code => exact .handoff hlease false
      | requeueDeferred code =>
        exact originalSettlement_progress observer hlease .requeueDeferred
      | frameworkCancelled => exact absurd (.inl rfl) hcancelled
  | brokerDeadLetter =>
    simp only [proceed]
    split_ifs with hcancelled
    · exact report_progress observer hopen .untouched
    · exact originalSettlement_progress observer hlease .brokerDeadLetter

variable {issued : Bool}

/-- The handoff has been started whenever it has answered. -/
theorem issuedIf_of_value {operation : SettlementOperation} {poll : Poll T E} {value : T}
    (h : boundedOperation operation cancelled poll = some (.ok value)) :
    nowIssued cancelled issued poll = true := by
  unfold boundedOperation at h
  cases cancelled with
  | true => simp at h
  | false => cases poll <;> simp_all [nowIssued, Poll.reaches]

theorem pollHandoff_progress {failureClass : FailureClass} {code : String} {count attempts : Nat}
    {poll : Poll HandoffReceipt E} (hlease : lease.state = .pending) :
    let plan := HandoffPlan.forFailure failureClass code count attempts
    let next := pollHandoff observer cancelled lease plan issued poll
    Progress (.delivery (.failure failureClass code) count attempts) next.1
      (.claimed :: issuedIf issued .handoff ++ next.2) := by
  intro plan next
  have hopen := isTerminal_of_pending hlease
  have hstarted := issuedIf_append_issue .handoff cancelled issued poll
  simp only [next, pollHandoff]
  cases hresult : boundedOperation .handoff cancelled poll with
  | none =>
    simp only [List.cons_append, hstarted]
    exact .handoff hlease _
  | some result =>
    cases result with
    | error failure =>
      simp only [List.cons_append, ← List.append_assoc, hstarted, afterHandoff]
      split_ifs with hkind
      · exact originalSettlement_progress observer hlease (.handoffFailed _)
      · exact report_progress observer hopen (.handoffOpen _)
    | ok receipt =>
      rw [issuedIf_of_value hresult] at hstarted
      simp only [List.cons_append, ← List.append_assoc, hstarted, afterHandoff]
      split_ifs with hplanned
      · have hpending : (lease.confirmHandoff observer receipt).1.state = .pending := hlease
        exact originalSettlement_progress observer hpending (.handoffConfirmed hplanned)
      · exact report_progress observer hopen (.mismatched hplanned)

theorem pollOriginal_progress {poll : Poll Bool E}
    (hlease : lease.state = .originalSettlementStarted site.operation)
    (h : Reached job site trace) :
    let next := pollOriginal observer cancelled lease site issued poll
    Progress job next.1 (trace ++ issuedIf issued site.operation ++ next.2) := by
  intro next
  have hopen := isTerminal_of_started hlease
  have hhistory (reply rest : List Action) :
      trace ++ issuedIf issued site.operation ++
          (issue site.operation cancelled issued poll ++ reply ++ rest) =
        trace ++ (issuedIf (nowIssued cancelled issued poll) site.operation ++ reply) ++ rest := by
    rw [← issuedIf_append_issue]
    simp only [List.append_assoc]
  simp only [next, pollOriginal]
  cases hresult : boundedOperation site.operation cancelled poll with
  | none =>
    rw [List.append_assoc, issuedIf_append_issue]
    exact .original h hlease _
  | some result =>
    dsimp only
    rw [hhistory]
    cases result with
    | error failure =>
      rw [List.append_nil]
      exact conclude_failed observer hopen (.unaccepted _ h)
    | ok accepted =>
      rw [issuedIf_of_value hresult]
      cases accepted with
      | true => exact conclude_accepted observer hopen (.accepted h)
      | false =>
        rw [List.append_nil]
        exact conclude_failed observer hopen (.unaccepted true h)

/-- Every answer of a materializer extends its history as its next phase requires. -/
theorem progress_act {event : Event E} {authority : SettlementAuthority} {m : Materializer O E}
    (h : Progress job m.phase trace) :
    Progress job (act observer job event authority m).own.phase
      (trace ++ (act observer job event authority m).emitted) := by
  obtain ⟨cancelled, phase⟩ := m
  cases event with
  | cancel => simpa [act] using h
  | claim =>
    cases phase with
    | created state =>
      cases h
      cases authority with
      | available => exact .claimed rfl
      | consumed => exact .refused state
    | _ => simpa [act] using h
  | proceed =>
    cases phase with
    | claimed lease =>
      cases h with
      | claimed pending => exact proceed_progress observer pending
    | _ => simpa [act] using h
  | pollHandoff poll =>
    cases phase with
    | handoff lease plan issued =>
      cases h with
      | handoff pending => exact pollHandoff_progress observer pending
    | _ => simpa [act] using h
  | pollOriginal poll =>
    cases phase with
    | original lease site issued =>
      cases h with
      | original reached started => exact pollOriginal_progress observer started reached
    | _ => simpa [act] using h
  | drop =>
    cases h with
    | created state => exact .unclaimed state
    | claimed pending =>
      exact drop_progress observer (isTerminal_of_pending pending) .untouched
    | handoff pending issued =>
      exact drop_progress observer (isTerminal_of_pending pending) (.handoffOpen issued)
    | original reached started issued =>
      exact drop_progress observer (isTerminal_of_started started)
        (.unaccepted issued reached)
    | refused state => exact .refused state
    | unclaimed state => exact .unclaimed state
    | returned state concluded => simpa [act, dropFuture] using .returned state concluded
    | abandoned state concluded => simpa [act, dropFuture] using .abandoned state concluded

end Steps

end Lily.Queue.Settlement
