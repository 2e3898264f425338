import Mathlib.Data.Int.Notation
import Mathlib.Tactic.Common

/-! Machines that wait for input and are fed in chunks. A wait names what it needs; input that is
not enough is stored, input that is enough wakes the machine, which then runs to its next wait. -/
namespace Feed

variable {σ β : Type*}

/-- `demand s bs` is how many of the bytes `bs` end the wait of `s`, if they do; `satisfy` takes
exactly those, and `Wake` is the run to the next wait. -/
structure Reader (σ β : Type*) where
  Awaiting : σ → Prop
  demand : σ → List β → Option ℕ
  store : σ → List β → σ
  satisfy : σ → List β → σ
  Wake : σ → σ → Prop

/-- One delivery: the machine wakes as often as the bytes last. The number counts those taken. -/
inductive Loop (R : Reader σ β) : σ → List β → ℕ → σ → Prop
  | stop {s : σ} {bs : List β} (h : bs = [] ∨ ¬ R.Awaiting s) : Loop R s bs 0 s
  | notYet {s : σ} {bs : List β} (hbs : bs ≠ []) (ha : R.Awaiting s)
      (hd : R.demand s bs = none) : Loop R s bs bs.length (R.store s bs)
  | satisfied {s s' s'' : σ} {bs : List β} {n m : ℕ} (hbs : bs ≠ []) (ha : R.Awaiting s)
      (hd : R.demand s bs = some n) (hw : R.Wake (R.satisfy s (bs.take n)) s')
      (hl : Loop R s' (bs.drop n) m s'') : Loop R s bs (n + m) s''

/-- A sequence of deliveries; a machine that does not wait refuses them. -/
inductive Chunks (R : Reader σ β) : σ → List (List β) → ℕ → σ → Prop
  | nil {s : σ} : Chunks R s [] 0 s
  | refused {s : σ} {bs : List β} {rest : List (List β)} (ha : ¬ R.Awaiting s) :
      Chunks R s (bs :: rest) 0 s
  | resume {s s' s'' : σ} {bs : List β} {rest : List (List β)} {n m : ℕ} (ha : R.Awaiting s)
      (hl : Loop R s bs n s') (hc : Chunks R s' rest m s'') : Chunks R s (bs :: rest) (n + m) s''

/-- Storing a piece of the input loses nothing: the wait ends where it would have ended. -/
structure Lawful (R : Reader σ β) (I : σ → Prop) : Prop where
  demand_le : ∀ {s bs n}, R.demand s bs = some n → n ≤ bs.length
  demand_prefix : ∀ {s xs n} ys, R.demand s xs = some n → R.demand s (xs ++ ys) = some n
  demand_store : ∀ {s xs ys}, I s → R.Awaiting s → xs ≠ [] → ys ≠ [] → R.demand s xs = none →
    R.demand s (xs ++ ys) = (R.demand (R.store s xs) ys).map (xs.length + ·)
  awaiting_store : ∀ {s} xs, R.Awaiting s → R.Awaiting (R.store s xs)
  store_store : ∀ {s} xs ys, I s → R.Awaiting s →
    R.store (R.store s xs) ys = R.store s (xs ++ ys)
  satisfy_store : ∀ {s} xs ys, I s → R.Awaiting s →
    R.satisfy (R.store s xs) ys = R.satisfy s (xs ++ ys)
  store_inv : ∀ {s xs}, I s → R.Awaiting s → R.demand s xs = none → I (R.store s xs)
  wake_inv : ∀ {s xs s'}, I s → R.Awaiting s → R.Wake (R.satisfy s xs) s' → I s'

variable {R : Reader σ β} {I : σ → Prop}

variable {bs : List β} {s s' : σ} {n : ℕ}

theorem Loop.refused (h : Loop R s bs n s') (ha : ¬ R.Awaiting s) : n = 0 ∧ s' = s := by
  cases h with
  | stop => exact ⟨rfl,rfl⟩
  | notYet _ ha' => exact absurd ha' ha
  | satisfied _ ha' => exact absurd ha' ha

theorem Loop.of_nil (h : Loop R s [] n s') : n = 0 ∧ s' = s := by
  cases h with
  | stop => exact ⟨rfl,rfl⟩
  | notYet hbs => exact absurd rfl hbs
  | satisfied hbs => exact absurd rfl hbs

section

variable (hR : Lawful R I)

include hR

theorem Loop.le_length (h : Loop R s bs n s') : n ≤ bs.length := by
  induction h with
  | stop => exact Nat.zero_le _
  | notYet => exact Nat.le_refl _
  | satisfied _ _ hd _ _ ih =>
    have := hR.demand_le hd
    rw [List.length_drop] at ih
    omega

theorem Loop.inv (h : Loop R s bs n s') (hs : I s) : I s' := by
  induction h with
  | stop => exact hs
  | notYet _ ha hd => exact hR.store_inv hs ha hd
  | satisfied _ ha _ hw _ ih => exact ih (hR.wake_inv hs ha hw)

theorem Loop.length_of_awaiting (h : Loop R s bs n s') (ha : R.Awaiting s') :
    n = bs.length := by
  induction h with
  | stop h => simp [h.resolve_right fun hna => hna ha]
  | notYet => rfl
  | satisfied _ _ hd _ _ ih =>
    have hle := hR.demand_le hd
    have hrest := ih ha
    rw [List.length_drop] at hrest
    omega

theorem Loop.of_store {xs ys : List β} {m : ℕ} (hs : I s) (hxs : xs ≠ []) (ha : R.Awaiting s)
    (hd : R.demand s xs = none) (h : Loop R (R.store s xs) ys m s') :
    Loop R s (xs ++ ys) (xs.length + m) s' := by
  have hne : xs ++ ys ≠ [] := by simp [hxs]
  cases h with
  | stop h =>
    have hys : ys = [] := h.resolve_right fun hna => hna (hR.awaiting_store xs ha)
    subst hys
    simpa using Loop.notYet hxs ha hd
  | notYet hys _ hd' =>
    have hdemand : R.demand s (xs ++ ys) = none := by
      rw [hR.demand_store hs ha hxs hys hd,hd']
      rfl
    rw [hR.store_store xs ys hs ha,← List.length_append]
    exact .notYet hne ha hdemand
  | @satisfied _ t _ _ n k hys _ hd' hw hl =>
    have hdemand : R.demand s (xs ++ ys) = some (xs.length + n) := by
      rw [hR.demand_store hs ha hxs hys hd,hd']
      rfl
    rw [hR.satisfy_store xs _ hs ha] at hw
    rw [← List.take_length_add_append] at hw
    rw [← @List.drop_length_add_append _ xs] at hl
    rw [← Nat.add_assoc]
    exact .satisfied hne ha hdemand hw hl

/-- Two deliveries do what one does with both. -/
theorem loop_append {s : σ} (hs : I s) (xs ys : List β) (k : ℕ) (s'' : σ) :
    Loop R s (xs ++ ys) k s'' ↔
      ∃ n s' m, Loop R s xs n s' ∧ Loop R s' ys m s'' ∧ k = n + m := by
  constructor
  · intro h
    generalize hbs : xs ++ ys = bs at h
    induction h generalizing xs with
    | @stop s bs h =>
      refine ⟨0,s,0,.stop ?_,.stop ?_,rfl⟩
      · exact h.imp_left fun hnil => by simp_all
      · exact h.imp_left fun hnil => by simp_all
    | @notYet s bs hne ha hd =>
      subst hbs
      by_cases hxs : xs = []
      · subst hxs
        exact ⟨0,s,ys.length,.stop (.inl rfl),by simpa using Loop.notYet hne ha hd,by simp⟩
      · have hdx : R.demand s xs = none := by
          cases hdx : R.demand s xs with
          | none => rfl
          | some n => simp [hR.demand_prefix ys hdx] at hd
        by_cases hys : ys = []
        · subst hys
          rw [List.append_nil]
          exact ⟨xs.length,R.store s xs,0,.notYet hxs ha hdx,.stop (.inl rfl),by simp⟩
        · have hdy : R.demand (R.store s xs) ys = none := by
            rw [hR.demand_store hs ha hxs hys hdx] at hd
            simpa using hd
          have hrest := Loop.notYet hys (hR.awaiting_store xs ha) hdy
          rw [hR.store_store xs ys hs ha] at hrest
          exact ⟨xs.length,R.store s xs,ys.length,.notYet hxs ha hdx,hrest,List.length_append⟩
    | @satisfied s s' s'' bs n m hne ha hd hw hl ih =>
      subst hbs
      by_cases hxs : xs = []
      · subst hxs
        exact ⟨0,s,n + m,.stop (.inl rfl),by simpa using Loop.satisfied hne ha hd hw hl,by simp⟩
      · cases hdx : R.demand s xs with
        | some n' =>
          have hn : n' = n := by simpa [hR.demand_prefix ys hdx] using hd
          subst hn
          have hle := hR.demand_le hdx
          have htake : (xs ++ ys).take n' = xs.take n' := List.take_append_of_le_length hle
          have hdrop : (xs ++ ys).drop n' = xs.drop n' ++ ys := List.drop_append_of_le_length hle
          rw [htake] at hw
          obtain ⟨p,t,q,hp,hq,hsum⟩ := ih (hR.wake_inv hs ha hw) (xs.drop n') hdrop.symm
          exact ⟨n' + p,t,q,.satisfied hxs ha hdx hw hp,hq,by omega⟩
        | none =>
          have hys : ys ≠ [] := by
            rintro rfl
            rw [List.append_nil,hdx] at hd
            cases hd
          rw [hR.demand_store hs ha hxs hys hdx] at hd
          obtain ⟨n',hn',rfl⟩ := Option.map_eq_some_iff.mp hd
          rw [List.take_length_add_append,← hR.satisfy_store xs _ hs ha] at hw
          rw [List.drop_length_add_append] at hl
          exact ⟨xs.length,R.store s xs,n' + m,.notYet hxs ha hdx,
            .satisfied hys (hR.awaiting_store xs ha) hn' hw hl,by omega⟩
  · rintro ⟨n,s',m,hx,hy,rfl⟩
    induction hx with
    | stop h =>
      rcases h with rfl | hna
      · simpa using hy
      · obtain ⟨rfl,rfl⟩ := hy.refused hna
        exact .stop (.inr hna)
    | notYet hbs ha hd => exact Loop.of_store hR hs hbs ha hd hy
    | @satisfied s t s' bs n k hbs ha hd hw _ ih =>
      have hle := hR.demand_le hd
      have hrest := ih (hR.wake_inv hs ha hw) hy
      rw [← List.drop_append_of_le_length hle] at hrest
      rw [← @List.take_append_of_le_length _ _ ys _ hle] at hw
      rw [Nat.add_assoc]
      exact .satisfied (by simp [hbs]) ha (hR.demand_prefix ys hd) hw hrest

theorem chunks_iff_loop {s : σ} (hs : I s) (cs : List (List β)) (k : ℕ) (s'' : σ) :
    Chunks R s cs k s'' ↔ Loop R s cs.flatten k s'' := by
  induction cs generalizing s k with
  | nil =>
    constructor
    · rintro ⟨⟩
      exact .stop (.inl rfl)
    · intro h
      obtain ⟨rfl,rfl⟩ := h.of_nil
      exact .nil
  | cons bs rest ih =>
    rw [List.flatten_cons,loop_append hR hs]
    constructor
    · intro h
      cases h with
      | refused ha => exact ⟨0,s'',0,.stop (.inr ha),.stop (.inr ha),rfl⟩
      | resume ha hl hc => exact ⟨_,_,_,hl,(ih (hl.inv hR hs) _).mp hc,rfl⟩
    · rintro ⟨n,s',m,hl,hrest,rfl⟩
      by_cases ha : R.Awaiting s
      · exact .resume ha hl ((ih (hl.inv hR hs) _).mpr hrest)
      · obtain ⟨rfl,rfl⟩ := hl.refused ha
        obtain ⟨rfl,rfl⟩ := hrest.refused ha
        exact .refused ha

theorem chunks_iff_whole {s : σ} (hs : I s) (cs : List (List β)) (k : ℕ) (s' : σ) :
    Chunks R s cs k s' ↔ Chunks R s [cs.flatten] k s' := by
  rw [chunks_iff_loop hR hs cs,chunks_iff_loop hR hs [cs.flatten],List.flatten_singleton]

end

theorem Loop.unique (hwake : ∀ s s₁ s₂, R.Wake s s₁ → R.Wake s s₂ → s₁ = s₂) {s s₁ s₂ : σ}
    {n₁ n₂ : ℕ} (h₁ : Loop R s bs n₁ s₁) (h₂ : Loop R s bs n₂ s₂) :
    n₁ = n₂ ∧ s₁ = s₂ := by
  induction h₁ generalizing n₂ with
  | stop h =>
    rcases h with rfl | hna
    · obtain ⟨rfl,rfl⟩ := h₂.of_nil
      exact ⟨rfl,rfl⟩
    · obtain ⟨rfl,rfl⟩ := h₂.refused hna
      exact ⟨rfl,rfl⟩
  | notYet hbs ha hd =>
    cases h₂ with
    | stop h => exact absurd h (by simp [hbs,ha])
    | notYet => exact ⟨rfl,rfl⟩
    | satisfied _ _ hd' => simp [hd] at hd'
  | satisfied hbs ha hd hw _ ih =>
    cases h₂ with
    | stop h => exact absurd h (by simp [hbs,ha])
    | notYet _ _ hd' => simp [hd] at hd'
    | satisfied _ _ hd' hw' hl' =>
      have hn := Option.some.inj (hd.symm.trans hd')
      subst hn
      have hs := hwake _ _ _ hw hw'
      subst hs
      obtain ⟨rfl,rfl⟩ := ih hl'
      exact ⟨rfl,rfl⟩

theorem Loop.held (hR : Lawful R I) (held : σ → List β)
    (hstore : ∀ s xs, I s → R.Awaiting s → held (R.store s xs) = held s ++ xs)
    (hwake : ∀ s xs s', I s → R.Awaiting s → R.Wake (R.satisfy s xs) s' →
      held s' = held s ++ xs) (h : Loop R s bs n s') (hs : I s) :
    held s' = held s ++ bs.take n := by
  induction h with
  | stop => simp
  | notYet _ ha => rw [hstore _ _ hs ha,List.take_length]
  | @satisfied s t s'' bs n m _ ha _ hw _ ih =>
    rw [ih (hR.wake_inv hs ha hw),hwake _ _ _ hs ha hw,List.append_assoc,List.take_add]

end Feed
