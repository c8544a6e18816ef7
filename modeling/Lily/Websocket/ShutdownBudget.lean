import Mathlib.Data.Nat.Cast.Order.Ring
import Mathlib.Data.Nat.Cast.WithTop
import Mathlib.Order.Lattice.Nat

/-!
# The limits of a WebSocket shutdown

A phase ends at its own limit or at the hard one. Every call takes minima, so a limit only moves
earlier; a waiter that reads the limits again after every call is never late. Instants and durations
are nanoseconds, and a limit that is not set is `⊤`.
-/

namespace Lily.Websocket.Shutdown

def cooperativeCap : Nat := 250 * 10 ^ 6
def reconciliationReserve : Nat := 25 * 10 ^ 6

structure Limits where
  graceful : WithTop Nat := ⊤
  hard : WithTop Nat := ⊤
  execution : WithTop Nat := ⊤
  transport : WithTop Nat := ⊤
  cleanup : WithTop Nat := ⊤

inductive Boundary where
  | execution
  | transport
  | cleanup
  | final

def earlier (left right : WithTop Nat) : WithTop Nat := min left right

inductive Request where
  | configure (graceful hard : Nat)
  | forceBefore (deadline : Nat)

/-- A request and its time. -/
abbrev Call := Nat × Request

/-- What is left of the hard limit for the reconciliation after the cleanup. -/
def reserve (hard now : Nat) : Nat := min ((hard - now) / 4) reconciliationReserve

namespace Limits

variable (limits : Limits)

def configure (graceful hard : Nat) : Limits :=
  { limits with
    graceful := earlier limits.graceful (min graceful hard : Nat)
    hard := earlier limits.hard hard }

def forceBefore (now deadline : Nat) : Limits :=
  let hard := (limits.hard.map (min · deadline)).untopD deadline
  let remaining := hard - now
  { limits with
    hard := hard
    execution := earlier limits.execution (now + min (remaining / 4) cooperativeCap : Nat)
    transport := earlier limits.transport (now + remaining * 2 / 3 : Nat)
    cleanup := earlier limits.cleanup (hard - reserve hard now : Nat) }

def apply (call : Call) : Limits :=
  match call.2 with
  | .configure graceful hard => limits.configure graceful hard
  | .forceBefore deadline => limits.forceBefore call.1 deadline

def phase : Boundary → WithTop Nat
  | .execution => limits.execution
  | .transport => limits.transport
  | .cleanup => limits.cleanup
  | .final => limits.hard

/-- The limit of a phase, capped by the hard one. -/
def effective (boundary : Boundary) : WithTop Nat :=
  earlier (limits.phase boundary) limits.hard

end Limits

/-- When a waiter is released that reads `limits` at `now`, before the calls that follow. -/
def wait (boundary : Boundary) (own : WithTop Nat) (now : Nat) (limits : Limits) :
    List Call → WithTop Nat
  | [] => max ↑now (earlier (limits.effective boundary) own)
  | call :: calls =>
    let timer := max ↑now (earlier (limits.effective boundary) own)
    if timer ≤ call.1 then timer else wait boundary own call.1 (limits.apply call) calls

def run (calls : List Call) : Limits := calls.foldl .apply {}

section Limits

variable {limits : Limits} {boundary : Boundary} {own : WithTop Nat} {now deadline : Nat}

theorem Limits.forceBefore_hard :
    (limits.forceBefore now deadline).hard = min limits.hard deadline := by
  cases hhard : limits.hard with
  | top => simp [forceBefore, hhard]
  | coe root =>
    rw [forceBefore, hhard]
    exact WithTop.coe_min root deadline

theorem Limits.apply_le (limits : Limits) (call : Call) :
    (limits.apply call).graceful ≤ limits.graceful ∧
    ∀ boundary, (limits.apply call).phase boundary ≤ limits.phase boundary := by
  obtain ⟨now, request⟩ := call
  cases request with
  | configure graceful hard =>
    refine ⟨min_le_left _ _, fun boundary => ?_⟩
    cases boundary with
    | execution | transport | cleanup => exact le_rfl
    | final => exact min_le_left _ _
  | forceBefore deadline =>
    refine ⟨le_rfl, fun boundary => ?_⟩
    cases boundary with
    | execution | transport | cleanup => exact min_le_left _ _
    | final => exact forceBefore_hard.trans_le (min_le_left _ _)

theorem Limits.effective_apply_le (limits : Limits) (call : Call) (boundary : Boundary) :
    (limits.apply call).effective boundary ≤ limits.effective boundary :=
  min_le_min ((limits.apply_le call).2 boundary) ((limits.apply_le call).2 .final)

/-- The limits of the phases are in order, as far as the hard limit leaves them. -/
structure Limits.Phased (limits : Limits) : Prop where
  execution : limits.execution ≤ limits.transport
  transport : min limits.transport limits.hard ≤ limits.cleanup

theorem Limits.Phased.apply (h : limits.Phased) (call : Call) : (limits.apply call).Phased := by
  obtain ⟨now, request⟩ := call
  cases request with
  | configure graceful hard =>
    exact ⟨h.execution, (min_le_min_left _ (min_le_left _ _)).trans h.transport⟩
  | forceBefore deadline =>
    have hle := (limits.apply_le (now, .forceBefore deadline)).2
    refine ⟨min_le_min h.execution (Nat.mono_cast (by dsimp only; omega)),
      le_min ((min_le_min (hle .transport) (hle .final)).trans h.transport)
        ((min_le_min_right _ (min_le_right _ _)).trans ?_)⟩
    -- When no time is left, the hard limit is the earlier one.
    simp only [Limits.apply, forceBefore, reserve, Nat.cast_withTop, ← WithTop.coe_min,
      WithTop.coe_le_coe]
    omega

theorem run_phased (calls : List Call) : (run calls).Phased :=
  List.foldlRecOn calls Limits.apply ⟨le_rfl, min_le_left _ _⟩ fun _ h call _ => h.apply call

theorem reserve_le (hard now : Nat) : reserve hard now ≤ hard := by
  rw [reserve]
  omega

theorem Limits.forceBefore_cleanup_lt (h : ↑(now + 4) ≤ (limits.forceBefore now deadline).hard) :
    (limits.forceBefore now deadline).effective .cleanup <
      (limits.forceBefore now deadline).hard := by
  refine ((min_le_left _ _).trans (min_le_right _ _)).trans_lt ?_
  rw [forceBefore] at h ⊢
  simp only [Nat.cast_withTop, WithTop.coe_le_coe, WithTop.coe_lt_coe] at h ⊢
  rw [reserve, reconciliationReserve]
  omega

/-- Whatever is called later, a waiter is released by the limit that it has read. -/
theorem wait_le (calls : List Call) :
    wait boundary own now limits calls ≤ max ↑now (earlier (limits.effective boundary) own) := by
  induction calls generalizing now limits with
  | nil => exact le_rfl
  | cons call calls ih =>
    rw [wait]
    split_ifs with htimer
    · exact le_rfl
    · exact ih.trans (max_le (not_le.mp htimer).le
        (le_max_of_le_right (min_le_min_right own (limits.effective_apply_le call boundary))))

theorem wait_append_le {seen : List Call} (hnow : now ≤ deadline)
    (hseen : ∀ call ∈ seen, call.1 ≤ deadline) (unseen : List Call) :
    wait boundary own now limits (seen ++ unseen) ≤
      max ↑deadline (earlier ((seen.foldl .apply limits).effective boundary) own) := by
  induction seen generalizing now limits with
  | nil => exact (wait_le unseen).trans (max_le_max_right _ (WithTop.coe_le_coe.mpr hnow))
  | cons call seen ih =>
    obtain ⟨hcall, hseen⟩ := List.forall_mem_cons.mp hseen
    rw [List.cons_append, wait]
    split_ifs with htimer
    · exact le_max_of_le_left (htimer.trans (WithTop.coe_le_coe.mpr hcall))
    · exact ih hcall hseen

end Limits

/-- The limits of a shutdown after any calls: none moves later, the phases stay in order, what is
reserved can be taken from the hard limit, and at any instant a waiter is released by the limit in
force, or at once. -/
theorem shutdown_limits_shorten (calls : List Call) :
    (∀ call, (run (calls ++ [call])).graceful ≤ (run calls).graceful ∧
      ∀ boundary, (run (calls ++ [call])).effective boundary ≤ (run calls).effective boundary) ∧
    ((run calls).effective .execution ≤ (run calls).effective .transport ∧
      (run calls).effective .transport ≤ (run calls).effective .cleanup ∧
      (run calls).effective .cleanup ≤ (run calls).hard) ∧
    (∀ now deadline : Nat, (now + 4 : Nat) ≤ (run (calls ++ [(now, .forceBefore deadline)])).hard →
      (run (calls ++ [(now, .forceBefore deadline)])).effective .cleanup <
        (run (calls ++ [(now, .forceBefore deadline)])).hard) ∧
    (∀ boundary own start instant seen unseen, start ≤ instant → (∀ call ∈ seen, call.1 ≤ instant) →
      wait boundary own start (run calls) (seen ++ unseen) ≤
        max ↑instant (earlier ((run (calls ++ seen)).effective boundary) own)) ∧
    ∀ hard now, reserve hard now ≤ hard := by
  have hphased := run_phased calls
  simp only [run, List.foldl_append, List.foldl_cons, List.foldl_nil]
  refine ⟨fun call => ⟨(Limits.apply_le _ call).1, Limits.effective_apply_le _ call⟩,
    ⟨min_le_min_right _ hphased.execution, le_min hphased.transport (min_le_right _ _),
      min_le_right _ _⟩, fun now deadline => Limits.forceBefore_cleanup_lt, ?_, reserve_le⟩
  intro boundary own start instant seen unseen hstart hseen
  exact wait_append_le hstart hseen unseen

/-- With three nanoseconds left nothing is reserved, and a limit that is set when it is past
releases at the time of the call. -/
theorem late_force_reserves_nothing :
    (run [(0, .forceBefore 3)]).effective .cleanup = (run [(0, .forceBefore 3)]).hard ∧
    (run [(5, .forceBefore 3)]).effective .final = (3 : Nat) ∧
    wait .final ⊤ 0 {} [(5, .forceBefore 3)] = (5 : Nat) := by
  decide

end Lily.Websocket.Shutdown
