import Mathlib.Data.List.Basic
import Mathlib.Algebra.Order.Ring.Int

/-!
# Validation in `Except`

Checks that stop at the first failure, and loops of them. A sequence of checks
succeeds exactly when all of them hold; a loop that threads a state keeps whatever
each of its steps keeps.
-/

namespace Validation

variable {ε α β σ : Type}

variable {ε' : Type} {x : Except ε α} {f : ε → ε'}

theorem bind_const_ok_iff {y : Except ε β} {b : β} :
    (x >>= fun _ => y) = .ok b ↔ (∃ a, x = .ok a) ∧ y = .ok b := by
  cases x <;> simp [bind, Except.bind]

theorem bind_ok_iff {f : α → Except ε β} {b : β} :
    x >>= f = .ok b ↔ ∃ a, x = .ok a ∧ f a = .ok b := by
  cases x <;> simp [bind, Except.bind]

/-- One check, with the error it reports. -/
def ensure (p : Prop) [Decidable p] (error : ε) : Except ε Unit :=
  if p then .ok () else .error error

@[simp] theorem ensure_ok_iff {p : Prop} [Decidable p] {error : ε} {u : Unit} :
    ensure p error = .ok u ↔ p := by
  unfold ensure
  split_ifs with hp <;> simp [hp]

/-- Another error for the same failure. -/
theorem mapError_ok_iff {a : α} : x.mapError f = .ok a ↔ x = .ok a := by
  cases x <;> simp [Except.mapError]

theorem forM_ok_iff {f : α → Except ε Unit} {values : List α} {u : Unit} :
    values.forM f = .ok u ↔ ∀ a ∈ values, f a = .ok () := by
  induction values with
  | nil => simp [List.forM, pure, Except.pure]
  | cons a rest ih =>
    rw [List.forM, bind_ok_iff, List.forall_mem_cons]
    exact ⟨fun ⟨_, ha, hrest⟩ => ⟨ha, ih.mp hrest⟩, fun ⟨ha, hrest⟩ => ⟨(), ha, ih.mpr hrest⟩⟩

/-- The same check for every element, in order. -/
def ensureAll (p : α → Prop) [DecidablePred p] (error : α → ε) (values : List α) : Except ε Unit :=
  values.forM fun a => ensure (p a) (error a)

@[simp] theorem ensureAll_ok_iff {p : α → Prop} [DecidablePred p] {error : α → ε} {values : List α}
    {u : Unit} : ensureAll p error values = .ok u ↔ ∀ a ∈ values, p a := by
  simp only [ensureAll, forM_ok_iff, ensure_ok_iff]

/-- What holds of the value of a result, or of its error. -/
def Outcome (Q : α → Prop) (F : ε → Prop) : Except ε α → Prop
  | .ok a => Q a
  | .error error => F error

section Outcome

variable {Q : α → Prop} {F : ε → Prop} {x : Except ε α}

theorem Outcome.of_ok (h : Outcome Q F x) {a : α} (hx : x = .ok a) : Q a := by
  rwa [hx] at h

theorem Outcome.of_error (h : Outcome Q F x) {error : ε} (hx : x = .error error) : F error := by
  rwa [hx] at h

theorem Outcome.bind {f : α → Except ε β} {R : β → Prop} (h : Outcome Q F x)
    (hf : ∀ a, Q a → Outcome R F (f a)) : Outcome R F (x >>= f) := by
  cases x with
  | error error => exact h
  | ok a => exact hf a h

theorem Outcome.imp {R : α → Prop} (h : Outcome Q F x) (himp : ∀ a, Q a → R a) : Outcome R F x := by
  cases x with
  | error error => exact h
  | ok a => exact himp a h

theorem Outcome.self (h : ∀ error, F error) : Outcome (x = .ok ·) F x := by
  cases x with
  | error error => exact h error
  | ok a => rfl

theorem Outcome.mapError {δ : Type _} {f : ε → δ} {G : δ → Prop} (h : Outcome Q (G ∘ f) x) :
    Outcome Q G (x.mapError f) := by
  cases x <;> exact h

end Outcome

section Loop

variable {step : σ → α → Except ε σ} {P : List α → σ → Prop} {values : List α} {start : σ}

/-- A loop keeps its invariant or stops with the error of a step. -/
theorem foldlM_outcome {F : ε → Prop} (hstart : P [] start)
    (hstep : ∀ done a rest s, values = done ++ a :: rest → P done s →
      Outcome (P (done ++ [a])) F (step s a)) :
    Outcome (P values) F (values.foldlM step start) := by
  have hloop (rest done : List α) (s : σ) (hsplit : values = done ++ rest) (hdone : P done s) :
      Outcome (P values) F (rest.foldlM step s) := by
    induction rest generalizing done s with
    | nil =>
      rw [hsplit, List.append_nil]
      exact hdone
    | cons a rest ih =>
      have hfirst := hstep done a rest s hsplit hdone
      rw [List.foldlM_cons]
      cases hs : step s a with
      | error error => exact hfirst.of_error hs
      | ok s' => exact ih (done ++ [a]) s' (by simp [hsplit]) (hfirst.of_ok hs)
  exact hloop values [] start rfl hstart

/-- What a loop has established about the part it has processed. -/
theorem foldlM_invariant {final : σ} (h : values.foldlM step start = .ok final)
    (hstart : P [] start)
    (hstep : ∀ done a rest s s', values = done ++ a :: rest → P done s → step s a = .ok s' →
      P (done ++ [a]) s') : P values final := by
  refine (foldlM_outcome (F := fun _ => True) hstart fun done a rest s hsplit hdone => ?_).of_ok h
  cases hs : step s a with
  | error error => trivial
  | ok s' => exact hstep done a rest s s' hsplit hdone hs

/-- A loop whose invariant lets every step succeed. -/
theorem foldlM_total (hstart : P [] start)
    (hstep : ∀ done a rest s, values = done ++ a :: rest → P done s →
      ∃ s', step s a = .ok s' ∧ P (done ++ [a]) s') :
    ∃ final, values.foldlM step start = .ok final ∧ P values final := by
  have hall : Outcome (P values) (fun _ => False) (values.foldlM step start) := by
    refine foldlM_outcome hstart fun done a rest s hsplit hdone => ?_
    obtain ⟨s', hs', hdone'⟩ := hstep done a rest s hsplit hdone
    rw [hs']
    exact hdone'
  cases hfinal : values.foldlM step start with
  | error error => exact (hall.of_error hfinal).elim
  | ok final => exact ⟨final, rfl, hall.of_ok hfinal⟩

end Loop

end Validation
