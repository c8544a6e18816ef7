import Lily.WebCore.ResponseHeaders

/-!
# The body of a response

A call on the buffered body that fails poisons it, and `into_transport_parts` returns the failure
that an action ignored. A streaming body is not poisoned.
-/

namespace Lily.WebCore.ResponseHeaders

open Http.ResponseBody (Bytes ResponseBodyStream)

structure TransportResponseParts where
  status : Nat
  headers : List (Bytes × Bytes)
  body : Bytes
  stream : Option ResponseBodyStream

variable {http : HeaderSyntax} {r : Response} {result : Except ResponseBodyError Bytes}

def Response.intoTransportParts (r : Response) :
    Except ResponseBodyError TransportResponseParts := do
  ensureWritable r.body
  let headers := r.headers.map fun header => (header.name, header.value)
  match r.body with
  | .full body => return ⟨r.status.1, headers, body.data, none⟩
  | .stream body => return ⟨r.status.1, headers, [], some body⟩

/-- What a call on the buffered body does to its bytes. -/
def Call.change : Call → Option (Bytes → Bytes)
  | .replaceBuffered _ _ _ data | .replaceBody data _ => some fun _ => data
  | .writeBody data _ => some (· ++ data)
  | _ => none

/-- A success changes the bytes written so far, the first failure of a buffered body ends them. -/
def Call.record (call : Call) (body : ResponseBody) (failed : Option ResponseWriteError)
    (result : Except ResponseBodyError Bytes) : Except ResponseBodyError Bytes :=
  match call.change with
  | none => result
  | some change => match result, failed, body with
    | .ok data, none, _ => .ok (change data)
    | .ok _, some (.body error), .full _ => .error error
    | result, _, _ => result

/-- The last replacement and what was appended to it, or the first failure. -/
def written (http : HeaderSyntax) (r : Response) (result : Except ResponseBodyError Bytes) :
    List Call → Except ResponseBodyError Bytes
  | [] => result
  | call :: calls =>
    match call.write http r with
    | .ok _ next => written http next (call.record r.body none result) calls
    | .error error next => written http next (call.record r.body (some error) result) calls

/-- The body is what was written, or poisoned by its failure. -/
def Holds (result : Except ResponseBodyError Bytes) (r : Response) : Prop :=
  match result, r.body with
  | .error error, .full body => body.failure = some error
  | .error _, .stream _ => False
  | .ok data, .full body =>
    body = ⟨r.limits.bodyBudget, data, none⟩ ∧ data.length ≤ r.limits.bodyBudget
  | .ok _, .stream _ => True

theorem Holds.ensureWritable (h : Holds result r) :
    ensureWritable r.body = result.map fun _ => () := by
  unfold ResponseHeaders.ensureWritable
  unfold Holds at h
  grind [Except.map]

/-- One call, with the failure that it returns. -/
theorem holds_write (h : Holds result r) (call : Call) :
    Leaves (fun failed r' => Holds (call.record r.body failed result) r') (call.write http) r := by
  have hwritable := h.ensureWritable
  cases call with
  | status code reason => exact h
  | insertHeader name value => exact .tryInsertHeader (fun _ => h) (fun _ _ _ => h) name value
  | appendHeader name value => exact .tryAppendHeader (fun _ => h) (fun _ _ _ => h) name value
  | removeHeader name =>
    exact .bind (.removeHeader (fun _ => h) (fun _ _ _ => h) name) fun _ _ h => h
  | replaceBuffered code reason fields body =>
    refine .get ?_
    split
    -- Over the budget: a stream is left alone, a buffered body is poisoned.
    next hlong =>
      split
      next stream hbody =>
        simp only [hbody]
        cases result <;> exact h
      next full hbody =>
        show Holds _ { r with body := .full (full.poison _).1 }
        simp only [Holds, hbody, Call.record, Call.change, BufferedResponseBody.poison] at h ⊢
        grind -ring -linarith
    next hfits =>
      refine .ofBody (fun error herror => ?_) fun _ hok => ?_ <;> cases result
      · exact h
      · cases hwritable.symm.trans herror
      · cases hwritable.symm.trans hok
      · have hreplaced : BufferedResponseBody.tryReplace body true ⟨r.limits.bodyBudget, [], none⟩ =
            (⟨r.limits.bodyBudget, body, none⟩, .ok ()) := by
          simp [BufferedResponseBody.tryReplace, hfits]
        refine .ofHeader (fun _ => h) fun _ _ => ?_
        simp only [hreplaced]
        exact ⟨rfl, not_lt.1 hfits⟩
  | replaceStreaming code reason fields body =>
    refine .get (.ofBody (fun _ _ => h) fun _ hok => .ofBody (fun _ _ => h) fun _ _ =>
      .ofBody (fun _ _ => h) fun _ _ => .ofBody (fun _ _ => h) fun _ _ =>
      .ofHeader (fun _ => h) fun _ _ => ?_)
    cases result with
    | error error => cases hwritable.symm.trans hok
    | ok data => trivial
  | replaceBody data allocated | writeBody data allocated =>
    refine .onFull (fun stream hbody => ?_) fun full hbody => ?_
    · rw [hbody]
      cases result <;> exact h
    · simp only [Holds, hbody, Call.record, Call.change, BufferedResponseBody.tryReplace,
        BufferedResponseBody.tryExtendFromSlice, BufferedResponseBody.poison] at h ⊢
      grind -ring -linarith

/-- After every chain of calls the response holds what was written. -/
theorem holds_run (calls : List Call) (h : Holds result r) :
    Holds (written http r result calls) (calls.foldl (Response.apply http) r) := by
  fun_induction written http r result calls with
  | case1 => exact h
  | case2 r result call calls _ next hwrite ih | case3 r result call calls _ next hwrite ih =>
    have hstep := @holds_write http _ _ h call
    simp only [Leaves, hwrite] at hstep
    simpa only [List.foldl_cons, Response.apply, hwrite] using ih hstep

/-- A body that failed while it was buffered is never sent: whatever is called later, its first
failure is returned. If none has failed, a body that is still buffered is the last replacement with
what was appended to it, within the budget. -/
theorem transport_parts_written (http : HeaderSyntax) (limits : ResponseLimits)
    (calls : List Call) :
    match written http (.fromLimits limits) (.ok []) calls with
    | .error error => (after http limits calls).intoTransportParts = .error error
    | .ok data => ∃ parts, (after http limits calls).intoTransportParts = .ok parts ∧
        (parts.stream = none → parts.body = data ∧ data.length ≤ limits.bodyBudget) := by
  have hholds : Holds _ (after http limits calls) :=
    @holds_run http _ (.ok []) calls ⟨rfl, Nat.zero_le _⟩
  rw [Response.intoTransportParts, hholds.ensureWritable]
  cases hwritten : written http (.fromLimits limits) (.ok []) calls with
  | error error => rfl
  | ok data =>
    rw [hwritten] at hholds
    unfold Holds at hholds
    rcases hbody : (after http limits calls).body with full | stream
    · simp only [hbody, (@after_tracked http limits calls).1] at hholds
      exact ⟨_, rfl, fun _ => ⟨by rw [hholds.1], hholds.2⟩⟩
    · exact ⟨_, rfl, nofun⟩

end Lily.WebCore.ResponseHeaders
