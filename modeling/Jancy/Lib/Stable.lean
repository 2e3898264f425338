import Mathlib.Data.Nat.Notation
import Mathlib.Tactic.Common

/-! Loops that apply a partial step until a key of the state stays the same. -/
namespace Stable

variable {σ κ : Type*} [DecidableEq κ] (key : σ → κ) (step : σ → Option σ)

/-- Nothing if the turns are used up; a result of nothing if a step fails. -/
def run : ℕ → σ → Option (Option σ)
  | 0,_ => none
  | turns + 1,s =>
      match step s with
      | none => some none
      | some s' => if key s' = key s then some (some s') else run turns s'

/-- A step that changes the key makes the state smaller. -/
def Decreases (size : σ → ℕ) : Prop :=
  ∀ s s',step s = some s' → key s' ≠ key s → size s' < size s

variable {key step} {size : σ → ℕ} (h : Decreases key step size)

include h

theorem run_isSome {turns : ℕ} {s : σ} (hturns : size s < turns) :
    (run key step turns s).isSome = true := by
  induction turns generalizing s with
  | zero => exact absurd hturns (Nat.not_lt_zero _)
  | succ turns ih =>
    unfold run
    cases hstep : step s with
    | none => rfl
    | some s' =>
      simp only
      split
      next => rfl
      next hne => exact ih (Nat.lt_of_lt_of_le (h s s' hstep hne) (Nat.le_of_lt_succ hturns))

omit h in
theorem run_mono {turns turns' : ℕ} {s : σ} {r : Option σ} (hle : turns ≤ turns')
    (hrun : run key step turns s = some r) : run key step turns' s = some r := by
  induction turns generalizing turns' s with
  | zero => cases hrun
  | succ turns ih =>
    obtain ⟨turns',rfl⟩ := Nat.exists_eq_add_of_le' (Nat.le_of_lt_succ (Nat.lt_succ_of_le hle))
    have hle : turns ≤ turns' + turns := Nat.le_add_left ..
    show run key step (turns' + turns + 1) s = some r
    unfold run at hrun ⊢
    cases hstep : step s with
    | none => rwa [hstep] at hrun
    | some s' =>
      rw [hstep] at hrun
      simp only at hrun ⊢
      split
      next heq => rwa [if_pos heq] at hrun
      next hne =>
        rw [if_neg hne] at hrun
        exact ih hle hrun

/-- What the loop ends with. -/
def result (key : σ → κ) (step : σ → Option σ) (size : σ → ℕ) (s : σ) : Option σ :=
  ((run key step (size s + 1) s).getD none)

theorem run_eq_result {turns : ℕ} {s : σ} (hturns : size s < turns) :
    run key step turns s = some (result key step size s) := by
  obtain ⟨r,hr⟩ := Option.isSome_iff_exists.1 (run_isSome h (Nat.lt_succ_self (size s)))
  rw [run_mono hturns hr,result,hr]
  rfl

theorem run_eq_some_iff {s : σ} {r : Option σ} :
    (∃ turns,run key step turns s = some r) ↔ result key step size s = r := by
  constructor
  · rintro ⟨turns,hrun⟩
    have hresult := run_eq_result h (Nat.lt_succ_of_le (Nat.le_max_left (size s) turns))
    have hsame := run_mono (Nat.le_succ_of_le (Nat.le_max_right (size s) turns)) hrun
    exact Option.some.inj (hresult.symm.trans hsame)
  · rintro rfl
    exact ⟨_,run_eq_result h (Nat.lt_succ_self _)⟩

theorem result_eq (s : σ) :
    result key step size s =
      match step s with
      | none => none
      | some s' => if key s' = key s then some s' else result key step size s' := by
  have hrun := run_eq_result h (Nat.lt_succ_self (size s))
  refine Option.some.inj (hrun.symm.trans ?_)
  unfold run
  cases hstep : step s with
  | none => rfl
  | some s' =>
    simp only
    split
    next => rfl
    next hne => exact run_eq_result h (h s s' hstep hne)

theorem result_of_step {s s' : σ} (hstep : step s = some s') :
    result key step size s = if key s' = key s then some s' else result key step size s' := by
  rw [result_eq h,hstep]

theorem step_of_result {s r : σ} (hresult : result key step size s = some r) :
    ∃ s',step s = some s' ∧ if key s' = key s then s' = r else result key step size s' = some r := by
  rw [result_eq h] at hresult
  cases hstep : step s with
  | none =>
    rw [hstep] at hresult
    cases hresult
  | some s' =>
    rw [hstep] at hresult
    refine ⟨s',rfl,?_⟩
    simp only at hresult
    split
    next heq =>
      rw [if_pos heq] at hresult
      exact Option.some.inj hresult
    next hne => rwa [if_neg hne] at hresult

theorem size_result_le (hle : ∀ s s',step s = some s' → size s' ≤ size s) {s r : σ}
    (hresult : result key step size s = some r) : size r ≤ size s := by
  induction hn : size s using Nat.strongRecOn generalizing s with
  | ind n ih =>
    obtain ⟨s',hstep,hnext⟩ := step_of_result h hresult
    split at hnext
    next => exact hn ▸ hnext ▸ hle s s' hstep
    next hne =>
      have hlt : size s' < n := hn ▸ h s s' hstep hne
      exact Nat.le_trans (ih _ hlt hnext rfl) (Nat.le_of_lt hlt)

end Stable
