import Mathlib.Data.List.Basic
import Mathlib.Order.Basic

/-! Finite runs of a partial labelled step function. A step that is not enabled ends the run;
nothing is asserted about what would follow it. -/
namespace Run

variable {σ α : Type*}

/-- Execute a list of labels; `none` if one of them is not enabled where it stands. -/
def exec (step : σ → α → Option σ) : σ → List α → Option σ
  | s, [] => some s
  | s, a :: as =>
      match step s a with
      | none => none
      | some s' => exec step s' as

/-- `Q` holds in every state the run visits, its first and last included. -/
def Always (step : σ → α → Option σ) (Q : σ → Prop) : σ → List α → Prop
  | s, [] => Q s
  | s, a :: as => Q s ∧
      match step s a with
      | none => True
      | some s' => Always step Q s' as

/-- `C` holds of every step the run takes, read in the state before the step. -/
def Along (step : σ → α → Option σ) (C : σ → α → Prop) : σ → List α → Prop
  | _, [] => True
  | s, a :: as =>
      match step s a with
      | none => True
      | some s' => C s a ∧ Along step C s' as

/-- Every label is enabled where it stands, and `R` holds of its step. -/
def Through (step : σ → α → Option σ) (R : σ → α → σ → Prop) : σ → List α → Prop
  | _, [] => True
  | s, a :: as => ∃ s', step s a = some s' ∧ R s a s' ∧ Through step R s' as

/-- `C` holds in front of every label that the run comes to. -/
def Before (step : σ → α → Option σ) (C : σ → α → Prop) : σ → List α → Prop
  | _, [] => True
  | s, a :: as => C s a ∧
      match step s a with
      | none => True
      | some s' => Before step C s' as

/-- What the steps of a run give, in their order. -/
def collect {β : Type*} (step : σ → α → Option σ) (f : σ → α → σ → List β) :
    σ → List α → List β
  | _, [] => []
  | s, a :: as =>
      match step s a with
      | none => []
      | some s' => f s a s' ++ collect step f s' as

instance Always.decidable (step : σ → α → Option σ) (Q : σ → Prop) [DecidablePred Q] :
    (s : σ) → (as : List α) → Decidable (Always step Q s as)
  | s, [] => inferInstanceAs (Decidable (Q s))
  | s, a :: as =>
      have : Decidable (match step s a with
          | none => True
          | some s' => Always step Q s' as) :=
        match step s a with
        | none => .isTrue trivial
        | some s' => Always.decidable step Q s' as
      inferInstanceAs (Decidable (Q s ∧ _))

instance Along.decidable (step : σ → α → Option σ) (C : σ → α → Prop)
    [∀ s a, Decidable (C s a)] : (s : σ) → (as : List α) → Decidable (Along step C s as)
  | _, [] => .isTrue trivial
  | s, a :: as =>
      match h : step s a with
      | none => .isTrue (by simp [Along, h])
      | some s' =>
          have : Decidable (Along step C s' as) := Along.decidable step C s' as
          decidable_of_iff (C s a ∧ Along step C s' as) (by simp [Along, h])

instance Before.decidable (step : σ → α → Option σ) (C : σ → α → Prop)
    [∀ s a, Decidable (C s a)] : (s : σ) → (as : List α) → Decidable (Before step C s as)
  | _, [] => .isTrue trivial
  | s, a :: as =>
      have : Decidable (match step s a with
          | none => True
          | some s' => Before step C s' as) :=
        match step s a with
        | none => .isTrue trivial
        | some s' => Before.decidable step C s' as
      inferInstanceAs (Decidable (C s a ∧ _))

variable {step : σ → α → Option σ}

@[simp] theorem exec_nil (s : σ) : exec step s [] = some s := rfl

variable {a : α}

theorem exec_cons {s s' : σ} (h : step s a = some s') (as : List α) :
    exec step s (a :: as) = exec step s' as := by simp [exec, h]

variable {as : List α}

theorem exec_cons_inv {s s' : σ} (h : exec step s (a :: as) = some s') :
    ∃ t, step s a = some t ∧ exec step t as = some s' := by
  cases hs : step s a with
  | none => simp [exec, hs] at h
  | some t => exact ⟨t, rfl, by simpa [exec, hs] using h⟩

theorem collect_cons {β : Type*} (f : σ → α → σ → List β) {s s' : σ} (h : step s a = some s')
    (as : List α) :
    collect step f s (a :: as) = f s a s' ++ collect step f s' as := by simp [collect, h]

theorem Always.cons {Q : σ → Prop} {s s' : σ} (hs : Q s) (h : step s a = some s')
    (hrest : Always step Q s' as) : Always step Q s (a :: as) := by
  refine ⟨hs, ?_⟩
  rw [h]
  exact hrest

theorem exec_append {s t : σ} (h : exec step s as = some t) (bs : List α) :
    exec step s (as ++ bs) = exec step t bs := by
  induction as generalizing s with
  | nil => cases h; rfl
  | cons a as ih =>
    obtain ⟨u, hu, hrest⟩ := exec_cons_inv h
    rw [List.cons_append, exec_cons hu, ih hrest]

variable {C : σ → α → Prop} {I : σ → Prop}

theorem exec_induction (hstep : ∀ s a s', I s → C s a → step s a = some s' → I s') {s s' : σ}
    (hs : I s) (hc : Along step C s as) (h : exec step s as = some s') : I s' := by
  induction as generalizing s with
  | nil => cases h; exact hs
  | cons a as ih =>
    obtain ⟨t, ht, hrest⟩ := exec_cons_inv h
    simp only [Along, ht] at hc
    exact ih (hstep s a t hs hc.1 ht) hc.2 hrest

theorem Along.cons {s t : σ} (ht : step s a = some t) (hc : C s a) (h : Along step C t as) :
    Along step C s (a :: as) := by
  simp only [Along, ht]
  exact ⟨hc, h⟩

variable {s : σ}

theorem Along.and {C D : σ → α → Prop} (hc : Along step C s as) (hd : Along step D s as) :
    Along step (fun s a => C s a ∧ D s a) s as := by
  induction as generalizing s with
  | nil => trivial
  | cons a as ih =>
    simp only [Along] at hc hd ⊢
    cases hstep : step s a with
    | none => trivial
    | some t =>
      rw [hstep] at hc hd
      exact ⟨⟨hc.1,hd.1⟩,ih hc.2 hd.2⟩

theorem Along.append {s t : σ} {as bs : List α} (h : Along step C s as)
    (he : exec step s as = some t) (hrest : Along step C t bs) : Along step C s (as ++ bs) := by
  induction as generalizing s with
  | nil =>
    cases he
    exact hrest
  | cons a as ih =>
    obtain ⟨u,hu,he⟩ := exec_cons_inv he
    simp only [Along,hu] at h
    exact .cons hu h.1 (ih h.2 he)

theorem Along.last {s t u : σ} (h : Along step C s (as ++ [a])) (he : exec step s as = some t)
    (ha : step t a = some u) :
    C t a := by
  induction as generalizing s with
  | nil =>
    cases he
    simp only [List.nil_append,Along,ha] at h
    exact h.1
  | cons b as ih =>
    obtain ⟨v,hv,he⟩ := exec_cons_inv he
    simp only [List.cons_append,Along,hv] at h
    exact ih h.2 he

theorem Along.and_ne {b : α} (h : Along step C s as) (hb : b ∉ as) :
    Along step (fun s a => C s a ∧ a ≠ b) s as := by
  induction as generalizing s with
  | nil => trivial
  | cons a as ih =>
    simp only [Along] at h ⊢
    cases hstep : step s a with
    | none => trivial
    | some t =>
      rw [hstep] at h
      exact ⟨⟨h.1, fun hab => hb (hab ▸ List.mem_cons_self)⟩,
        ih h.2 fun hmem => hb (List.mem_cons_of_mem a hmem)⟩

theorem along_true (s : σ) (as : List α) : Along step (fun _ _ => True) s as := by
  induction as generalizing s with
  | nil => trivial
  | cons a as ih =>
    cases h : step s a with
    | none => simp [Along, h]
    | some t => simpa [Along, h] using ih t

theorem exec_invariant (hstep : ∀ s a s', I s → step s a = some s' → I s') {s s' : σ} (hs : I s)
    (h : exec step s as = some s') : I s' :=
  exec_induction (fun s a s' hi _ h => hstep s a s' hi h) hs (along_true s as) h

theorem Always.head {Q : σ → Prop} (h : Always step Q s as) : Q s := by
  cases as with
  | nil => exact h
  | cons a as => exact h.1

theorem Always.last {Q : σ → Prop} {s s' : σ} (h : Always step Q s as)
    (he : exec step s as = some s') : Q s' := by
  induction as generalizing s with
  | nil =>
    cases he
    exact h
  | cons a as ih =>
    obtain ⟨t,ht,hrest⟩ := exec_cons_inv he
    have hq := h.2
    rw [ht] at hq
    exact ih hq hrest

theorem always_iff_along {I Q : σ → Prop} (hQ : ∀ s, I s → Q s)
    (hkeep : ∀ s a s', I s → C s a → step s a = some s' → I s')
    (hbreak : ∀ s a s', I s → ¬ C s a → step s a = some s' → ¬ Q s') (hs : I s) (as : List α) :
    Always step Q s as ↔ Along step C s as := by
  induction as generalizing s with
  | nil => simp [Always, Along, hQ s hs]
  | cons a as ih =>
    cases ht : step s a with
    | none => simp [Always, Along, ht, hQ s hs]
    | some t =>
      simp only [Always, Along, ht]
      constructor
      · rintro ⟨-, hq⟩
        by_cases hc : C s a
        · exact ⟨hc, (ih (hkeep s a t hs hc ht)).mp hq⟩
        · exact absurd hq.head (hbreak s a t hs hc ht)
      · rintro ⟨hc, hrest⟩
        exact ⟨hQ s hs, (ih (hkeep s a t hs hc ht)).mpr hrest⟩

theorem always_of_along {I Q : σ → Prop} (hQ : ∀ s, I s → Q s)
    (hkeep : ∀ s a s', I s → C s a → step s a = some s' → I s') (hs : I s) (h : Along step C s as) :
    Always step Q s as := by
  induction as generalizing s with
  | nil => exact hQ s hs
  | cons a as ih =>
    refine ⟨hQ s hs, ?_⟩
    simp only [Along] at h
    cases ht : step s a with
    | none => trivial
    | some t =>
      rw [ht] at h
      exact ih (hkeep s a t hs h.1 ht) h.2

theorem always_of_invariant {I Q : σ → Prop} (hQ : ∀ s, I s → Q s)
    (hstep : ∀ s a s', I s → step s a = some s' → I s') (hs : I s) (as : List α) :
    Always step Q s as :=
  (always_iff_along hQ (fun s a s' hi _ h => hstep s a s' hi h)
    (fun _ _ _ _ h _ => absurd trivial h) hs as).mpr (along_true s as)

theorem along_iff_along {C D : σ → α → Prop}
    (hiff : ∀ s a s', I s → step s a = some s' → (C s a ↔ D s a))
    (hkeep : ∀ s a s', I s → D s a → step s a = some s' → I s') (hs : I s) (as : List α) :
    Along step C s as ↔ Along step D s as := by
  induction as generalizing s with
  | nil => simp [Along]
  | cons a as ih =>
    cases ht : step s a with
    | none => simp [Along, ht]
    | some t =>
      simp only [Along, ht, hiff s a t hs ht]
      exact and_congr_right fun hd => ih (hkeep s a t hs hd ht)

theorem Along.of_invariant {C D : σ → α → Prop} (himp : ∀ s a, I s → C s a → D s a)
    (hkeep : ∀ s a s', I s → C s a → step s a = some s' → I s') (hs : I s) (h : Along step C s as) :
    Along step D s as := by
  induction as generalizing s with
  | nil => trivial
  | cons a as ih =>
    simp only [Along] at h ⊢
    cases ht : step s a with
    | none => trivial
    | some t =>
      rw [ht] at h
      exact ⟨himp s a hs h.1,ih (hkeep s a t hs h.1 ht) h.2⟩

variable {R : σ → α → σ → Prop}

theorem Through.exec_isSome (h : Through step R s as) : (exec step s as).isSome := by
  induction as generalizing s with
  | nil => rfl
  | cons a as ih =>
    obtain ⟨s', hstep, -, hrest⟩ := h
    rw [exec_cons hstep]
    exact ih hrest

theorem Before.mono {C C' : σ → α → Prop} (h : Before step C s as) (hsub : ∀ s a, C s a → C' s a) :
    Before step C' s as := by
  induction as generalizing s with
  | nil => trivial
  | cons a as ih =>
    obtain ⟨hc, hrest⟩ := h
    refine ⟨hsub s a hc, ?_⟩
    cases hstep : step s a with
    | none => trivial
    | some s' =>
      rw [hstep] at hrest
      exact ih hrest

theorem Before.along (h : Before step C s as) : Along step C s as := by
  induction as generalizing s with
  | nil => trivial
  | cons a as ih =>
    obtain ⟨hc, hrest⟩ := h
    simp only [Along]
    cases hstep : step s a with
    | none => trivial
    | some t =>
      rw [hstep] at hrest
      exact ⟨hc, ih hrest⟩

/-- A condition under which a step is enabled and does `R`, and without which it is not so, where
every label meets another condition `D`. -/
theorem through_iff_before_of_before {C D : σ → α → Prop}
    (hok : ∀ s a, I s → D s a → C s a → ∃ s', step s a = some s' ∧ R s a s' ∧ I s')
    (hneed : ∀ s a s', I s → D s a → step s a = some s' → R s a s' → C s a) (hs : I s)
    (hd : Before step D s as) : Through step R s as ↔ Before step C s as := by
  induction as generalizing s with
  | nil => simp [Through, Before]
  | cons a as ih =>
    obtain ⟨hda, hd⟩ := hd
    constructor
    · rintro ⟨s', hstep, hr, hrest⟩
      have hc := hneed s a s' hs hda hstep hr
      obtain ⟨t, ht, -, hi⟩ := hok s a hs hda hc
      obtain rfl : s' = t := Option.some.inj (hstep.symm.trans ht)
      refine ⟨hc, ?_⟩
      rw [hstep] at hd ⊢
      exact (ih hi hd).mp hrest
    · rintro ⟨hc, hrest⟩
      obtain ⟨s', hstep, hr, hi⟩ := hok s a hs hda hc
      rw [hstep] at hd hrest
      exact ⟨s', hstep, hr, (ih hi hd).mpr hrest⟩

theorem through_of_before (hok : ∀ s a, I s → C s a → ∃ s', step s a = some s' ∧ R s a s' ∧ I s')
    (hs : I s) (h : Before step C s as) : Through step R s as := by
  induction as generalizing s with
  | nil => trivial
  | cons a as ih =>
    obtain ⟨hc, hrest⟩ := h
    obtain ⟨s', hstep, hr, hi⟩ := hok s a hs hc
    rw [hstep] at hrest
    exact ⟨s', hstep, hr, ih hi hrest⟩

theorem before_true (s : σ) (as : List α) : Before step (fun _ _ => True) s as := by
  induction as generalizing s with
  | nil => trivial
  | cons a as ih =>
    refine ⟨trivial, ?_⟩
    cases step s a with
    | none => trivial
    | some s' => exact ih s'

theorem through_iff_before (hok : ∀ s a, I s → C s a → ∃ s', step s a = some s' ∧ R s a s' ∧ I s')
    (hneed : ∀ s a s', I s → step s a = some s' → R s a s' → C s a) (hs : I s) (as : List α) :
    Through step R s as ↔ Before step C s as :=
  through_iff_before_of_before (fun s a hi _ => hok s a hi) (fun s a s' hi _ => hneed s a s' hi)
    hs (before_true s as)

/-- A goal that is kept once reached, and that each of the steps counted by `own` either reaches or
comes nearer to while the others do not move away, is reached after enough of these steps. -/
theorem exec_progress {I Goal : σ → Prop} {own : α → Bool} {μ : σ → ℕ}
    (hkeep : ∀ s a s', I s → step s a = some s' → I s')
    (hgoal : ∀ s a s', Goal s → step s a = some s' → Goal s')
    (hown : ∀ s a s', I s → own a = true → step s a = some s' → Goal s' ∨ μ s' < μ s)
    (hother : ∀ s a s', I s → own a = false → step s a = some s' → Goal s' ∨ μ s' ≤ μ s) {s s' : σ}
    (hs : I s) (he : exec step s as = some s') (hcount : μ s < as.countP own) : Goal s' := by
  induction as generalizing s with
  | nil => exact absurd hcount (Nat.not_lt_zero _)
  | cons a as ih =>
    obtain ⟨t, ht, hrest⟩ := exec_cons_inv he
    have hreached : Goal t → Goal s' := fun h =>
      exec_invariant hgoal h hrest
    rw [List.countP_cons] at hcount
    cases ha : own a with
    | true =>
      rw [ha, if_pos rfl] at hcount
      obtain h | h := hown s a t hs ha ht
      · exact hreached h
      · exact ih (hkeep s a t hs ht) hrest (by omega)
    | false =>
      rw [ha, if_neg Bool.false_ne_true] at hcount
      obtain h | h := hother s a t hs ha ht
      · exact hreached h
      · exact ih (hkeep s a t hs ht) hrest (by omega)

end Run
