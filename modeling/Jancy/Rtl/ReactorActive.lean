import Jancy.Rtl.ReactorRun

/-! The `Flag_Active` of reactions. In every run, whatever it restarts or throws, no reaction is
active when a loop begins. -/
namespace Jancy.Rtl

namespace Reactor

variable {Ev : Type} {x y z : Reactor Ev} {count : ℕ}

def isActive (x : Reactor Ev) (r : ℕ) : Bool := (x.reactions r).active

/-- Nothing changes in which reactions are active. -/
structure SameActive (x y : Reactor Ev) : Prop where
  listed : y.activeReactions = x.activeReactions
  flags : ∀ r, y.isActive r = x.isActive r

theorem SameActive.refl (x : Reactor Ev) : SameActive x x := ⟨rfl,fun _ => rfl⟩

theorem SameActive.trans (h : SameActive x y) (h' : SameActive y z) : SameActive x z :=
  ⟨h'.listed.trans h.listed,fun r => (h'.flags r).trans (h.flags r)⟩

theorem SameActive.foldl {β : Type} {f : Reactor Ev → β → Reactor Ev}
    (hf : ∀ x c, SameActive x (f x c)) (l : List β) (x : Reactor Ev) :
    SameActive x (l.foldl f x) := by
  induction l generalizing x with
  | nil => exact .refl x
  | cons c l ih => exact (hf x c).trans (ih (f x c))

theorem appendBinding_sameActive (x : Reactor Ev) (r b : ℕ) :
    SameActive x (x.appendBinding r b) := by
  refine ⟨rfl,?_⟩
  intro i
  show (Function.update x.reactions r _ i).active = (x.reactions i).active
  by_cases hi : i = r
  · subst hi
    rw [Function.update_self]
  · rw [Function.update_of_ne hi]

variable [DecidableEq Ev]

theorem visitBinding_sameActive (x : Reactor Ev) (ev : Ev) :
    SameActive x (x.visitBinding ev).2 := by
  unfold visitBinding
  split
  · exact .refl x
  · exact ⟨rfl,fun _ => rfl⟩

theorem bindOnChanged_sameActive (x : Reactor Ev) (pending : ℕ × Ev) :
    SameActive x (x.bindOnChanged pending) := by
  have hvisit := visitBinding_sameActive x pending.2
  unfold bindOnChanged
  dsimp only
  split
  · exact hvisit
  · split
    · exact hvisit
    · have hset : ∀ b binding, SameActive (x.visitBinding pending.2).2
          ((x.visitBinding pending.2).2.setBinding b binding) := fun _ _ => ⟨rfl,fun _ => rfl⟩
      exact (hvisit.trans (hset _ _)).trans (appendBinding_sameActive _ _ _)

omit [DecidableEq Ev] in
theorem bindOnEvent_sameActive (x : Reactor Ev) (pending : ℕ × Ev) :
    SameActive x (x.bindOnEvent pending) := by
  have hsubscribe : SameActive x (x.subscribe pending.2 .onEvent).2 := ⟨rfl,fun _ => rfl⟩
  exact hsubscribe.trans (appendBinding_sameActive _ _ _)

theorem releaseBinding_sameActive (x : Reactor Ev) (b : ℕ) :
    SameActive x (x.releaseBinding b) := by
  unfold releaseBinding
  split
  · exact .refl x
  · split
    · exact ⟨rfl,fun _ => rfl⟩
    · exact ⟨rfl,fun _ => rfl⟩

omit [DecidableEq Ev] in
theorem foldl_releaseReaction_isActive (l : List ℕ) (x : Reactor Ev) (r : ℕ) :
    (l.foldl releaseReaction x).isActive r = (x.isActive r && decide (r ∉ l)) := by
  induction l generalizing x with
  | nil => simp
  | cons i l ih =>
    have hone : (x.releaseReaction i).isActive r = (x.isActive r && decide (r ≠ i)) := by
      show (Function.update x.reactions i _ r).active = ((x.reactions r).active && _)
      by_cases hr : r = i
      · subst hr
        simp
      · simp [hr]
    rw [List.foldl_cons,ih,hone,Bool.and_assoc]
    congr 1
    simp [not_or]

theorem processPendingBindings_isActive (x : Reactor Ev) (r : ℕ) :
    x.processPendingBindings.isActive r = (x.isActive r && decide (r ∉ x.activeReactions)) := by
  let x₁ := x.pendingOnChangedBindings.foldl bindOnChanged x
  let x₂ := x₁.pendingOnEventBindings.foldl bindOnEvent x₁
  let x₃ := x₂.activeBindings.foldl releaseBinding x₂
  have h₁ : SameActive x x₁ := .foldl bindOnChanged_sameActive _ x
  have h₂ : SameActive x x₂ := h₁.trans (.foldl bindOnEvent_sameActive _ x₁)
  have h₃ : SameActive x x₃ := h₂.trans (.foldl releaseBinding_sameActive _ x₂)
  have hrelease : x.processPendingBindings.isActive r =
      (x₃.activeReactions.foldl releaseReaction x₃).isActive r := rfl
  rw [hrelease,foldl_releaseReaction_isActive,h₃.flags,h₃.listed]

omit [DecidableEq Ev] in
theorem activate_isActive (x : Reactor Ev) (r i : ℕ) :
    (x.activate r).isActive i = (x.isActive i || decide (i = r)) := by
  unfold isActive
  rw [(activate_spec x r).reactions]
  by_cases hi : i = r
  · subst hi
    simp
  · simp [hi]

omit [DecidableEq Ev] in
theorem foldl_activateBinding_listed (r : ℕ) (l : List ℕ) (x : Reactor Ev) :
    (l.foldl (activateBinding r) x).activeReactions = x.activeReactions := by
  induction l generalizing x with
  | nil => rfl
  | cons b l ih =>
    have hone : (activateBinding r x b).activeReactions = x.activeReactions := by
      unfold activateBinding
      split
      · rfl
      · split <;> rfl
    rw [List.foldl_cons,ih,hone]

omit [DecidableEq Ev] in
theorem activate_listed (x : Reactor Ev) (r : ℕ) :
    (x.activate r).activeReactions = x.activeReactions ++ [r] := by
  unfold activate
  dsimp only
  rw [foldl_activateBinding_listed]

/-- Just the listed reactions are active while a start or a loop goes on, and none is between. -/
structure Flagged (x : Reactor Ev) : Prop where
  idle : x.state = .stopped ∨ x.state = .running → ∀ r, x.isActive r = false
  busy : x.state = .starting ∨ x.state = .reacting →
    ∀ r, x.isActive r = true → r ∈ x.activeReactions

omit [DecidableEq Ev] in
theorem Flagged.of_idle (h : ∀ r, x.isActive r = false) : Flagged x := by
  constructor
  · exact fun _ => h
  · intro _ r hr
    rw [h] at hr
    cases hr

omit [DecidableEq Ev] in
theorem Flagged.of_busy (hstate : x.state = .starting ∨ x.state = .reacting)
    (h : ∀ r, x.isActive r = true → r ∈ x.activeReactions) : Flagged x := by
  constructor
  · intro hidle
    rcases hstate with hstate | hstate
    · rw [hstate] at hidle
      simp at hidle
    · rw [hstate] at hidle
      simp at hidle
  · exact fun _ => h

omit [DecidableEq Ev] in
theorem activateReaction_listed (h : ∀ r, x.isActive r = true → r ∈ x.activeReactions) (i : ℕ) :
    ∀ r, (x.activateReaction i).2.isActive r = true →
      r ∈ (x.activateReaction i).2.activeReactions := by
  unfold activateReaction
  split
  · exact h
  · intro r hr
    rw [activate_isActive,Bool.or_eq_true,decide_eq_true_eq] at hr
    rw [activate_listed,List.mem_append,List.mem_singleton]
    exact hr.imp_left (h r)

omit [DecidableEq Ev] in
theorem foldl_activateReaction_listed (l : List ℕ)
    (h : ∀ r, x.isActive r = true → r ∈ x.activeReactions) :
    ∀ r, (l.foldl (fun x i => (x.activateReaction i).2) x).isActive r = true →
      r ∈ (l.foldl (fun x i => (x.activateReaction i).2) x).activeReactions := by
  induction l generalizing x with
  | nil => exact h
  | cons i l ih => exact ih (activateReaction_listed h i)

omit [DecidableEq Ev] in
theorem activateReaction_isActive (x : Reactor Ev) (i r : ℕ) :
    (x.activateReaction i).2.isActive r = (x.isActive r || decide (r = i)) := by
  unfold activateReaction
  split
  · rename_i hi
    by_cases hr : r = i
    · subst hr
      have hactive : x.isActive r = true := hi
      simp [hactive]
    · simp [hr]
  · exact activate_isActive x i r

omit [DecidableEq Ev] in
theorem foldl_activateReaction_isActive (l : List ℕ) (x : Reactor Ev) (r : ℕ) :
    (l.foldl (fun x i => (x.activateReaction i).2) x).isActive r =
      (x.isActive r || decide (r ∈ l)) := by
  induction l generalizing x with
  | nil => simp
  | cons i l ih =>
    rw [List.foldl_cons,ih,activateReaction_isActive,Bool.or_assoc]
    congr 1
    simp [Bool.decide_or]

omit [DecidableEq Ev] in
theorem lt_of_nextReaction {j : ℕ} {i : Option ℕ} (h : x.nextReaction count i = some j) :
    j < count := by
  have hfind : ∀ {start}, findBit x.pendingReactionMap start count = some j → j < count := by
    intro start hj
    exact List.mem_range.mp (List.mem_of_find?_eq_some hj)
  unfold nextReaction at h
  split at h
  · rename_i found
    cases h
    exact hfind found
  · exact hfind h

end Reactor

namespace ReactorSystem

open Reactor

variable {Ev : Type} [DecidableEq Ev] {count : ℕ} {s s' : ReactorSystem Ev}

omit [DecidableEq Ev] in
theorem Steady.reacting (h : Steady count s.reactor) {i : Option ℕ} {j : ℕ}
    (hnext : s.reactor.nextReaction count i = some j) : s.reactor.state = .reacting := by
  have hmem := mem_of_nextReaction hnext
  cases hstate : s.reactor.state with
  | stopped =>
    rw [(h.stopped hstate).pendingReactionMap] at hmem
    cases hmem
  | starting =>
    rw [(h.starting hstate).1] at hmem
    cases hmem
  | running => exact absurd hmem ((h.running hstate).2 j (lt_of_nextReaction hnext))
  | reacting => rfl

theorem processed_flagged {x : Reactor Ev}
    (hbusy : ∀ r, x.isActive r = true → r ∈ x.activeReactions) (state : ReactorState) :
    Flagged { x.processPendingBindings with state := state } := by
  apply Flagged.of_idle
  intro r
  have hflag := processPendingBindings_isActive x r
  cases hactive : x.isActive r with
  | false =>
    rw [hactive,Bool.false_and] at hflag
    exact hflag
  | true =>
    have hmem : decide (r ∉ x.activeReactions) = false := by simp [hbusy r hactive]
    rw [hmem,Bool.and_false] at hflag
    exact hflag

theorem Effect.flagged {fresh : Bool} {y : Reactor Ev} {reads' : ℕ → List Ev}
    (h : Effect count s fresh y reads') (hsound : Sound count s) (hx : Flagged s.reactor) :
    Flagged y := by
  have hprocessed := processPendingBindings_spec hsound.wired
  cases h with
  | kept => exact hx
  | started _ hstate => exact .of_idle (hx.idle (.inl hstate))
  | stopped _ hstate =>
    simp only [Reactor.stop,if_neg hstate]
    exact .of_idle fun _ => rfl
  | read _ r ev hstate => exact .of_busy hstate (hx.busy hstate)
  | heard _ r ev hstate => exact .of_busy hstate (hx.busy hstate)
  | entered l i j hstate =>
    obtain ⟨hstate',_⟩ := foldl_activateReaction_frame l (s.reactor.clearBitRange i j)
    have hclear : ∀ r, (s.reactor.clearBitRange i j).isActive r = true →
        r ∈ (s.reactor.clearBitRange i j).activeReactions := hx.busy hstate
    refine .of_busy ?_ (foldl_activateReaction_listed l hclear)
    rw [hstate']
    exact hstate
  | merged _ ev b binding hmap hb =>
    by_cases hrunning : s.reactor.state = .running
    · simp only [onChanged,mergePending,hrunning,ne_eq,not_true,if_false]
      exact .of_idle (hx.idle (.inr hrunning))
    · simp only [onChanged,mergePending,ne_eq,hrunning,not_false_eq_true,if_true]
      exact ⟨hx.idle,hx.busy⟩
  | finishedStart _ hstate =>
    exact processed_flagged (hx.busy (.inl (hprocessed.state.symm.trans hstate))) _
  | finishedLoop _ i hnone hstate =>
    exact processed_flagged (hx.busy (.inr (hprocessed.state.symm.trans hstate))) _
  | finishedStopped _ hstate =>
    have hidle := hx.idle (.inl (hprocessed.state.symm.trans hstate))
    apply Flagged.of_idle
    intro r
    rw [processPendingBindings_isActive,hidle,Bool.false_and]
  | activated i j hnext =>
    have hreacting := hsound.steady.reacting hnext
    have hclear : ∀ r, (s.reactor.clearBit j).isActive r = true →
        r ∈ (s.reactor.clearBit j).activeReactions := hx.busy (.inr hreacting)
    obtain ⟨hstate',_⟩ := activateReaction_frame (s.reactor.clearBit j) j
    refine .of_busy (.inr ?_) (activateReaction_listed hclear j)
    rw [hstate']
    exact hreacting

theorem flagged_step {a : ReactorAction Ev} (h : Sound count s ∧ Flagged s.reactor)
    (hstep : step count s a = some s') : Sound count s' ∧ Flagged s'.reactor :=
  ⟨sound_step h.1 hstep,(step_effect hstep).flagged h.1 h.2⟩

theorem flagged_exec {as : List (ReactorAction Ev)}
    (hrun : Run.exec (step count) ({} : ReactorSystem Ev) as = some s) :
    Sound count s ∧ Flagged s.reactor :=
  Run.exec_invariant (fun _ _ _ => flagged_step) ⟨sound_initial count,.of_idle fun _ => rfl⟩ hrun

end ReactorSystem
end Jancy.Rtl
