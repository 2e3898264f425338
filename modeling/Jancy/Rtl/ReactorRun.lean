import Jancy.Rtl.ReactorWiring

/-! Runs of a reactor, with re-entrant changes, restarts, and calls that end in exceptions. -/
namespace Jancy.Rtl

namespace Reactor

variable {Ev : Type} {x y : Reactor Ev} {reads : ℕ → List Ev} {r : ℕ}

theorem Wired.of_eq (hx : Wired x reads) (hbindings : y.bindings = x.bindings)
    (hreactions : y.reactions = x.reactions) (hnext : y.nextBinding = x.nextBinding)
    (hmap : y.bindingMap = x.bindingMap)
    (hpending : y.pendingOnChangedBindings = x.pendingOnChangedBindings) : Wired y reads := by
  obtain ⟨state,reactions,pending,onChanged,onEvent,bindings,next,map,_,_⟩ := y
  dsimp only at hbindings hreactions hnext hmap hpending
  subst hbindings hreactions hnext hmap hpending
  exact ⟨hx.unused,hx.bounded,hx.arrays,hx.mapped,hx.listed,hx.onEvent,hx.complete,hx.recorded⟩

theorem Exact.of_eq (hx : Exact x reads) (hbindings : y.bindings = x.bindings)
    (hreactions : y.reactions = x.reactions) : Exact y reads := by
  constructor
  · rw [hbindings,hreactions]
    exact hx.arrays
  · rw [hbindings]
    exact hx.read

theorem wired_of_empty (hbindings : ∀ b, x.bindings b = none)
    (harrays : ∀ r, (x.reactions r).bindingArray = [])
    (hmap : ∀ ev, x.bindingMap ev = none) (hpending : x.pendingOnChangedBindings = []) :
    Wired x fun _ => [] := by
  constructor
  · exact fun b _ => hbindings b
  · intro r b hb
    rw [harrays] at hb
    cases hb
  · intro r b hb
    rw [harrays] at hb
    cases hb
  · intro ev b hb
    rw [hmap] at hb
    cases hb
  · intro b binding hb
    rw [hbindings] at hb
    cases hb
  · intro b binding hb
    rw [hbindings] at hb
    cases hb
  · nofun
  · intro r ev hp
    rw [hpending] at hp
    cases hp

theorem exact_of_empty (reads : ℕ → List Ev) (hbindings : ∀ b, x.bindings b = none) :
    Exact x reads := by
  constructor
  · intro b binding r hb
    rw [hbindings] at hb
    cases hb
  · intro b binding r hb
    rw [hbindings] at hb
    cases hb

theorem wired_of_read (hx : Wired x reads) (r : ℕ) (ev : Ev) :
    Wired { x with pendingOnChangedBindings := x.pendingOnChangedBindings ++ [(r,ev)] }
      (Function.update reads r (reads r ++ [ev])) := by
  have hmem : ∀ i ev', ev' ∈ Function.update reads r (reads r ++ [ev]) i ↔
      ev' ∈ reads i ∨ (i,ev') = (r,ev) := by
    intro i ev'
    by_cases hi : i = r
    · subst hi
      simp
    · simp [hi]
  constructor
  · exact hx.unused
  · exact hx.bounded
  · exact hx.arrays
  · exact hx.mapped
  · exact hx.listed
  · exact hx.onEvent
  · intro i ev' hev
    cases (hmem i ev').mp hev with
    | inl hold =>
      cases hx.complete i ev' hold with
      | inl hp => exact .inl (List.mem_append_left _ hp)
      | inr hb => exact .inr hb
    | inr hnew => exact .inl (List.mem_append_right _ (List.mem_singleton.mpr hnew))
  · intro i ev' hp
    apply (hmem i ev').mpr
    cases List.mem_append.mp hp with
    | inl hp => exact .inl (hx.recorded i ev' hp)
    | inr hnew => exact .inr (List.mem_singleton.mp hnew)

theorem exact_of_read (hx : Exact x reads) (r : ℕ) (ev : Ev) :
    Exact { x with pendingOnChangedBindings := x.pendingOnChangedBindings ++ [(r,ev)] }
      (Function.update reads r (reads r ++ [ev])) := by
  constructor
  · exact hx.arrays
  · intro b binding i hb hi
    have hold := hx.read b binding i hb hi
    by_cases hr : i = r
    · subst hr
      rw [Function.update_self]
      exact List.mem_append_left _ hold
    · rw [Function.update_of_ne hr]
      exact hold

def allFresh : List ℕ → Reactor Ev → Bool
  | [], _ => true
  | i :: is, x => x.isFresh i && allFresh is (x.activateReaction i).2

theorem activateReaction_wired (hx : Wired x reads) (r : ℕ) :
    Wired (x.activateReaction r).2 (ReactorSystem.activated x reads r) := by
  unfold activateReaction ReactorSystem.activated
  split
  · exact hx
  · exact (activate_spec x r).wired hx

theorem activateReaction_exact (hwired : Wired x reads) (hx : Exact x reads)
    (hfresh : x.isFresh r = true) :
    Exact (x.activateReaction r).2 (ReactorSystem.activated x reads r) := by
  unfold activateReaction ReactorSystem.activated
  split
  · exact hx
  · rename_i hidle
    exact (activate_spec x r).exact hwired hx (Bool.eq_false_iff.mpr hidle) hfresh

theorem activateReaction_frame (x : Reactor Ev) (r : ℕ) :
    (x.activateReaction r).2.state = x.state ∧
      (x.activateReaction r).2.pendingReactionMap = x.pendingReactionMap ∧
      (x.activateReaction r).2.pendingOnChangedBindings = x.pendingOnChangedBindings ∧
      (x.activateReaction r).2.bindingMap = x.bindingMap := by
  unfold activateReaction
  split
  · exact ⟨rfl,rfl,rfl,rfl⟩
  · have h := activate_spec x r
    exact ⟨h.state,h.pendingReactionMap,h.pendingOnChanged,h.bindingMap⟩

theorem foldl_activateReaction_wired (l : List ℕ) (hx : Wired x reads) :
    Wired (l.foldl (fun x i => (x.activateReaction i).2) x)
      (ReactorSystem.activatedAll reads l x) := by
  induction l generalizing x reads with
  | nil => exact hx
  | cons i l ih => exact ih (activateReaction_wired hx i)

theorem foldl_activateReaction_exact (l : List ℕ) (hwired : Wired x reads) (hx : Exact x reads)
    (hfresh : allFresh l x = true) :
    Exact (l.foldl (fun x i => (x.activateReaction i).2) x)
      (ReactorSystem.activatedAll reads l x) := by
  induction l generalizing x reads with
  | nil => exact hx
  | cons i l ih =>
    obtain ⟨hi,hl⟩ := Bool.and_eq_true_iff.mp hfresh
    exact ih (activateReaction_wired hwired i) (activateReaction_exact hwired hx hi) hl

theorem foldl_activateReaction_frame (l : List ℕ) (x : Reactor Ev) :
    let y := l.foldl (fun x i => (x.activateReaction i).2) x
    y.state = x.state ∧ y.pendingReactionMap = x.pendingReactionMap ∧
      y.pendingOnChangedBindings = x.pendingOnChangedBindings ∧ y.bindingMap = x.bindingMap := by
  induction l generalizing x with
  | nil => exact ⟨rfl,rfl,rfl,rfl⟩
  | cons i l ih =>
    obtain ⟨hstate,hpending,honChanged,hmap⟩ := activateReaction_frame x i
    obtain ⟨hstate',hpending',honChanged',hmap'⟩ := ih (x.activateReaction i).2
    exact ⟨hstate'.trans hstate,hpending'.trans hpending,honChanged'.trans honChanged,
      hmap'.trans hmap⟩

theorem ne_stopped (h : x.state = .starting ∨ x.state = .reacting) : x.state ≠ .stopped := by
  intro hstopped
  rw [hstopped] at h
  cases h with
  | inl h => cases h
  | inr h => cases h

theorem whileActive_inv {z : Reactor Ev} (h : x.whileActive y = some z) :
    (x.state = .stopped ∧ z = x) ∨ ((x.state = .starting ∨ x.state = .reacting) ∧ z = y) := by
  unfold whileActive at h
  cases hstate : x.state with
  | stopped =>
    rw [hstate] at h
    exact .inl ⟨rfl,(Option.some.inj h).symm⟩
  | starting =>
    rw [hstate] at h
    exact .inr ⟨.inl rfl,(Option.some.inj h).symm⟩
  | running =>
    rw [hstate] at h
    cases h
  | reacting =>
    rw [hstate] at h
    exact .inr ⟨.inr rfl,(Option.some.inj h).symm⟩

theorem whileActive_map_inv {β : Type*} {p : Prop} [Decidable p] {f : Reactor Ev → β} {b : β}
    (h : (if p then (x.whileActive y).map f else none) = some b) :
    (x.state = .stopped ∧ b = f x) ∨
      ((x.state = .starting ∨ x.state = .reacting) ∧ b = f y) := by
  obtain ⟨-,h⟩ := Option.ite_none_right_eq_some.mp h
  obtain ⟨z,hz,rfl⟩ := Option.map_eq_some_iff.mp h
  rcases whileActive_inv hz with ⟨hstate,rfl⟩ | ⟨hstate,rfl⟩
  · exact .inl ⟨hstate,rfl⟩
  · exact .inr ⟨hstate,rfl⟩

theorem findBit_eq_none {map : List ℕ} {count : ℕ} (h : findBit map 0 count = none) :
    ∀ r < count, r ∉ map := by
  intro r hr hmem
  have hnot := List.find?_eq_none.mp h r (List.mem_range.mpr hr)
  simp [hmem] at hnot

theorem nextReaction_eq_none {count : ℕ} {i : Option ℕ} (h : x.nextReaction count i = none) :
    ∀ r < count, r ∉ x.pendingReactionMap := by
  unfold nextReaction at h
  split at h
  · cases h
  · exact findBit_eq_none h

theorem mem_of_nextReaction {count j : ℕ} {i : Option ℕ}
    (h : x.nextReaction count i = some j) : j ∈ x.pendingReactionMap := by
  have hfind : ∀ {start}, findBit x.pendingReactionMap start count = some j →
      j ∈ x.pendingReactionMap := by
    intro start hj
    have hsome := List.find?_some hj
    simp only [Bool.and_eq_true,decide_eq_true_eq] at hsome
    exact hsome.2
  unfold nextReaction at h
  split at h
  · rename_i found
    cases h
    exact hfind found
  · exact hfind h

end Reactor

namespace ReactorSystem

open Reactor

variable {Ev : Type} [DecidableEq Ev] {count : ℕ} {s s' : ReactorSystem Ev}

/-- The condition on a step: no reaction is activated while one of its `onchanged` bindings is
active already. -/
def unshared (count : ℕ) (s : ReactorSystem Ev) : ReactorAction Ev → Bool
  | .look =>
      match s.stack with
      | .looking i :: _ =>
          (s.reactor.nextReaction count i).all fun j => (s.reactor.clearBit j).isFresh j
      | _ => true
  | .enterReactiveStmt reactionFromIdx reactionToIdx =>
      s.reactor.state = .stopped || allFresh (reactionRange reactionFromIdx reactionToIdx)
        (s.reactor.clearBitRange reactionFromIdx reactionToIdx)
  | _ => true

/-- What a step does to the reactor and the record; the flag is that of `unshared`. -/
inductive Effect (count : ℕ) (s : ReactorSystem Ev) :
    Bool → Reactor Ev → (ℕ → List Ev) → Prop
  | kept (fresh : Bool) : Effect count s fresh s.reactor s.reads
  | started (fresh : Bool) (hstate : s.reactor.state = .stopped) :
      Effect count s fresh { s.reactor with state := .starting } s.reads
  | stopped (fresh : Bool) (hstate : s.reactor.state ≠ .stopped) :
      Effect count s fresh s.reactor.stop fun _ => []
  | read (fresh : Bool) (r : ℕ) (ev : Ev)
      (hstate : s.reactor.state = .starting ∨ s.reactor.state = .reacting) :
      Effect count s fresh
        { s.reactor with
          pendingOnChangedBindings := s.reactor.pendingOnChangedBindings ++ [(r,ev)] }
        (Function.update s.reads r (s.reads r ++ [ev]))
  | heard (fresh : Bool) (r : ℕ) (ev : Ev)
      (hstate : s.reactor.state = .starting ∨ s.reactor.state = .reacting) :
      Effect count s fresh
        { s.reactor with
          pendingOnEventBindings := s.reactor.pendingOnEventBindings ++ [(r,ev)] } s.reads
  | entered (l : List ℕ) (i j : ℕ)
      (hstate : s.reactor.state = .starting ∨ s.reactor.state = .reacting) :
      Effect count s (allFresh l (s.reactor.clearBitRange i j))
        (l.foldl (fun x i => (x.activateReaction i).2) (s.reactor.clearBitRange i j))
        (activatedAll s.reads l (s.reactor.clearBitRange i j))
  | merged (fresh : Bool) (ev : Ev) (b : ℕ) (binding : Binding Ev)
      (hmap : s.reactor.bindingMap ev = some b) (hb : s.reactor.bindings b = some binding) :
      Effect count s fresh (s.onChanged binding).reactor s.reads
  | finishedStart (fresh : Bool)
      (hstate : s.reactor.processPendingBindings.state = .starting) :
      Effect count s fresh { s.reactor.processPendingBindings with state := .running } s.reads
  | finishedLoop (fresh : Bool) (i : Option ℕ)
      (hnone : s.reactor.nextReaction count i = none)
      (hstate : s.reactor.processPendingBindings.state = .reacting) :
      Effect count s fresh { s.reactor.processPendingBindings with state := .running } s.reads
  | finishedStopped (fresh : Bool)
      (hstate : s.reactor.processPendingBindings.state = .stopped) :
      Effect count s fresh s.reactor.processPendingBindings s.reads
  | activated (i : Option ℕ) (j : ℕ) (hnext : s.reactor.nextReaction count i = some j) :
      Effect count s ((s.reactor.clearBit j).isFresh j)
        ((s.reactor.clearBit j).activateReaction j).2
        (ReactorSystem.activated (s.reactor.clearBit j) s.reads j)

theorem look_effect {i : Option ℕ} {rest : List ReactorFrame} (hstack : s.stack = .looking i :: rest)
    (hlook : s.look count i rest = some s') :
    Effect count s (s.unshared count .look) s'.reactor s'.reads := by
  unfold look at hlook
  cases hnext : s.reactor.nextReaction count i with
  | none =>
    simp only [hnext,finishLoop] at hlook
    split at hlook
    · rename_i hstate
      cases hlook
      exact .finishedStopped _ hstate
    · split at hlook
      · rename_i hstate
        cases hlook
        exact .finishedLoop _ i hnext hstate
      · cases hlook
  | some j =>
    have hfresh : s.unshared count .look = (s.reactor.clearBit j).isFresh j := by
      simp only [unshared,hstack,hnext,Option.all_some]
    have heffect := Effect.activated (s := s) i j hnext
    rw [hfresh]
    simp only [hnext] at hlook
    split at hlook
    · rename_i hresult
      cases hlook
      rw [hresult] at heffect
      exact heffect
    · rename_i hresult
      cases hlook
      rw [hresult] at heffect
      exact heffect

variable {a : ReactorAction Ev}

theorem programStep_effect (h : s.programStep count a = some s') :
    Effect count s (s.unshared count a) s'.reactor s'.reads := by
  cases a with
  | start =>
    simp only [programStep] at h
    split at h
    · cases h
      exact .kept _
    · rename_i hstate
      cases h
      exact .started _ (not_not.mp hstate)
  | stop =>
    cases h
    by_cases hstate : s.reactor.state = .stopped
    · simp only [Reactor.stop,if_pos hstate]
      exact .kept _
    · simp only [if_neg hstate]
      exact .stopped _ hstate
  | addOnChangedBinding r ev =>
    rcases whileActive_map_inv h with ⟨hstate,rfl⟩ | ⟨hstate,rfl⟩
    · rw [if_pos hstate]
      exact .kept _
    · rw [if_neg (ne_stopped hstate)]
      exact .read _ r ev hstate
  | addOnEventBinding r ev =>
    rcases whileActive_map_inv h with ⟨_,rfl⟩ | ⟨hstate,rfl⟩
    · exact .kept _
    · exact .heard _ r ev hstate
  | enterReactiveStmt i j =>
    rcases whileActive_map_inv h with ⟨hstate,rfl⟩ | ⟨hstate,rfl⟩
    · rw [if_pos hstate]
      exact .kept _
    · have hne := ne_stopped hstate
      have hfresh : s.unshared count (.enterReactiveStmt i j) =
          allFresh (reactionRange i j) (s.reactor.clearBitRange i j) := by
        simp only [unshared,hne,decide_false,Bool.false_or]
      rw [if_neg hne,hfresh]
      exact .entered _ i j hstate
  | change ev =>
    simp only [programStep] at h
    split at h
    · cases h
      exact .kept _
    · rename_i binding hbinding
      obtain ⟨b,hmap,hb⟩ := Option.bind_eq_some_iff.mp hbinding
      cases h
      have hreads : (s.onChanged binding).reads = s.reads := by
        simp only [onChanged]
        split <;> rfl
      rw [hreads]
      exact .merged _ ev b binding hmap hb
  | reactorReturns =>
    simp only [programStep] at h
    split at h
    · simp only [finishStart] at h
      split at h
      · cases h
        exact .kept _
      · split at h
        · rename_i hstate
          cases h
          exact .finishedStart _ hstate
        · cases h
    · split at h
      · cases h
        exact .kept _
      · cases h
        exact .kept _
    · cases h
  | reactorThrows frames =>
    cases h
    exact .kept _
  | look => cases h

theorem step_effect (h : step count s a = some s') :
    Effect count s (s.unshared count a) s'.reactor s'.reads := by
  unfold step at h
  split at h
  · rename_i hstack
    exact look_effect hstack h
  · cases h
  · exact programStep_effect h

omit [DecidableEq Ev] in
theorem onChanged_frame (s : ReactorSystem Ev) (binding : Binding Ev) :
    (s.onChanged binding).reactor.bindings = s.reactor.bindings ∧
      (s.onChanged binding).reactor.reactions = s.reactor.reactions ∧
      (s.onChanged binding).reactor.nextBinding = s.reactor.nextBinding ∧
      (s.onChanged binding).reactor.bindingMap = s.reactor.bindingMap ∧
      (s.onChanged binding).reactor.pendingOnChangedBindings =
        s.reactor.pendingOnChangedBindings ∧
      (s.onChanged binding).reactor.pendingReactionMap =
        s.reactor.pendingReactionMap ++ binding.reactionMap ∧
      (s.onChanged binding).reactor.state =
        if s.reactor.state = .running then .reacting else s.reactor.state := by
  simp only [onChanged,mergePending]
  by_cases hstate : s.reactor.state = .running
  · simp [hstate]
  · simp [hstate]

variable {fresh : Bool} {y : Reactor Ev} {reads' : ℕ → List Ev}

theorem Effect.wired (h : Effect count s fresh y reads') (hx : Wired s.reactor s.reads) :
    Wired y reads' := by
  cases h with
  | kept => exact hx
  | started => exact hx.of_eq rfl rfl rfl rfl rfl
  | stopped _ hstate =>
    simp only [Reactor.stop,if_neg hstate]
    exact wired_of_empty (fun _ => rfl) (fun _ => rfl) (fun _ => rfl) rfl
  | read _ r ev _ => exact wired_of_read hx r ev
  | heard => exact hx.of_eq rfl rfl rfl rfl rfl
  | entered l i j _ =>
    have hclear : Wired (s.reactor.clearBitRange i j) s.reads := hx.of_eq rfl rfl rfl rfl rfl
    exact foldl_activateReaction_wired l hclear
  | merged _ ev b binding _ _ =>
    obtain ⟨hbindings,hreactions,hnext,hmap,hpending,_,_⟩ := onChanged_frame s binding
    exact hx.of_eq hbindings hreactions hnext hmap hpending
  | finishedStart => exact (processPendingBindings_spec hx).wired.of_eq rfl rfl rfl rfl rfl
  | finishedLoop => exact (processPendingBindings_spec hx).wired.of_eq rfl rfl rfl rfl rfl
  | finishedStopped => exact (processPendingBindings_spec hx).wired
  | activated _ j _ =>
    have hclear : Wired (s.reactor.clearBit j) s.reads := hx.of_eq rfl rfl rfl rfl rfl
    exact activateReaction_wired hclear j

theorem Effect.exact (h : Effect count s fresh y reads') (hfresh : fresh = true)
    (hwired : Wired s.reactor s.reads) (hx : Exact s.reactor s.reads) : Exact y reads' := by
  cases h with
  | kept => exact hx
  | started => exact hx.of_eq rfl rfl
  | stopped _ hstate =>
    simp only [Reactor.stop,if_neg hstate]
    exact exact_of_empty _ (fun _ => rfl)
  | read _ r ev _ => exact exact_of_read hx r ev
  | heard => exact hx.of_eq rfl rfl
  | entered l i j _ =>
    have hwired' : Wired (s.reactor.clearBitRange i j) s.reads :=
      hwired.of_eq rfl rfl rfl rfl rfl
    have hclear : Exact (s.reactor.clearBitRange i j) s.reads := hx.of_eq rfl rfl
    exact foldl_activateReaction_exact l hwired' hclear hfresh
  | merged _ ev b binding _ _ =>
    obtain ⟨hbindings,hreactions,_⟩ := onChanged_frame s binding
    exact hx.of_eq hbindings hreactions
  | finishedStart => exact ((processPendingBindings_spec hwired).exact hx).of_eq rfl rfl
  | finishedLoop => exact ((processPendingBindings_spec hwired).exact hx).of_eq rfl rfl
  | finishedStopped => exact (processPendingBindings_spec hwired).exact hx
  | activated _ j _ =>
    have hwired' : Wired (s.reactor.clearBit j) s.reads := hwired.of_eq rfl rfl rfl rfl rfl
    have hclear : Exact (s.reactor.clearBit j) s.reads := hx.of_eq rfl rfl
    exact activateReaction_exact hwired' hclear hfresh

/-- Nothing is left of a run before `start`. -/
structure Unsubscribed (x : Reactor Ev) : Prop where
  bindings : ∀ b, x.bindings b = none
  bindingMap : ∀ ev, x.bindingMap ev = none
  pendingOnChanged : x.pendingOnChangedBindings = []
  pendingOnEvent : x.pendingOnEventBindings = []
  pendingReactionMap : x.pendingReactionMap = []

/-- Between loops no reaction is pending, nor is a subscription. -/
structure Steady (count : ℕ) (x : Reactor Ev) : Prop where
  stopped : x.state = .stopped → Unsubscribed x
  starting : x.state = .starting →
    x.pendingReactionMap = [] ∧ ∀ ev, x.bindingMap ev = none
  running : x.state = .running →
    x.pendingOnChangedBindings = [] ∧ ∀ r < count, r ∉ x.pendingReactionMap

variable {x : Reactor Ev}

theorem processPendingBindings_unsubscribed (h : Unsubscribed x) :
    Unsubscribed x.processPendingBindings := by
  have hbindings : ∀ l : List ℕ, Unsubscribed (l.foldl releaseBinding x) := by
    intro l
    induction l with
    | nil => exact h
    | cons b l ih =>
      have hb : x.releaseBinding b = x := by
        simp only [releaseBinding,h.bindings]
      rwa [List.foldl_cons,hb]
  have hreactions : ∀ (l : List ℕ) {z : Reactor Ev}, Unsubscribed z →
      Unsubscribed (l.foldl releaseReaction z) := by
    intro l
    induction l with
    | nil => exact id
    | cons r l ih => exact fun hz => ih ⟨hz.1,hz.2,hz.3,hz.4,hz.5⟩
  have hall := hreactions (x.activeBindings.foldl releaseBinding x).activeReactions
    (hbindings x.activeBindings)
  have heq : x.processPendingBindings =
      { (x.activeBindings.foldl releaseBinding x).activeReactions.foldl releaseReaction
          (x.activeBindings.foldl releaseBinding x) with
        activeBindings := []
        activeReactions := []
        pendingOnChangedBindings := []
        pendingOnEventBindings := [] } := by
    simp only [processPendingBindings,h.pendingOnChanged,h.pendingOnEvent,List.foldl_nil]
  rw [heq]
  exact ⟨hall.bindings,hall.bindingMap,rfl,rfl,hall.pendingReactionMap⟩

omit [DecidableEq Ev] in
theorem Steady.of_reacting (h : x.state = .reacting) : Steady count x := by
  constructor
  · intro hstate
    rw [h] at hstate
    cases hstate
  · intro hstate
    rw [h] at hstate
    cases hstate
  · intro hstate
    rw [h] at hstate
    cases hstate

omit [DecidableEq Ev] in
theorem Steady.of_running (h : x.state = .running) (hpending : x.pendingOnChangedBindings = [])
    (hidle : ∀ r < count, r ∉ x.pendingReactionMap) : Steady count x := by
  constructor
  · intro hstate
    rw [h] at hstate
    cases hstate
  · intro hstate
    rw [h] at hstate
    cases hstate
  · exact fun _ => ⟨hpending,hidle⟩

omit [DecidableEq Ev] in
theorem Steady.of_starting (h : x.state = .starting) (hpending : x.pendingReactionMap = [])
    (hmap : ∀ ev, x.bindingMap ev = none) :
    Steady count x := by
  constructor
  · intro hstate
    rw [h] at hstate
    cases hstate
  · exact fun _ => ⟨hpending,hmap⟩
  · intro hstate
    rw [h] at hstate
    cases hstate

omit [DecidableEq Ev] in
theorem Steady.of_unsubscribed (h : Unsubscribed x) : Steady count x := by
  constructor
  · exact fun _ => h
  · exact fun _ => ⟨h.pendingReactionMap,h.bindingMap⟩
  · intro _
    constructor
    · exact h.pendingOnChanged
    · intro r _ hr
      rw [h.pendingReactionMap] at hr
      cases hr

omit [DecidableEq Ev] in
theorem Steady.of_active {x y : Reactor Ev} (hx : Steady count x)
    (h : x.state = .starting ∨ x.state = .reacting) (hstate : y.state = x.state)
    (hpending : x.pendingReactionMap = [] → y.pendingReactionMap = [])
    (hmap : y.bindingMap = x.bindingMap) : Steady count y := by
  cases h with
  | inl hstarting =>
    obtain ⟨hreactionMap,hempty⟩ := hx.starting hstarting
    have hmap' : ∀ ev, y.bindingMap ev = none := by
      rw [hmap]
      exact hempty
    exact .of_starting (hstate.trans hstarting) (hpending hreactionMap) hmap'
  | inr hreacting => exact .of_reacting (hstate.trans hreacting)

theorem steady_processed {reads : ℕ → List Ev} (hx : Wired x reads)
    (hidle : ∀ r < count, r ∉ x.pendingReactionMap) :
    Steady count { x.processPendingBindings with state := .running } := by
  have hprocessed := processPendingBindings_spec hx
  have hidle' : ∀ r < count, r ∉ x.processPendingBindings.pendingReactionMap := by
    rw [hprocessed.pendingReactionMap]
    exact hidle
  exact .of_running rfl hprocessed.pendingOnChanged hidle'

theorem Effect.steady (h : Effect count s fresh y reads') (hx : Wired s.reactor s.reads)
    (hsteady : Steady count s.reactor) : Steady count y := by
  cases h with
  | kept => exact hsteady
  | started _ hstate =>
    have hempty := hsteady.stopped hstate
    exact .of_starting rfl hempty.pendingReactionMap hempty.bindingMap
  | stopped _ hstate =>
    simp only [Reactor.stop,if_neg hstate]
    exact .of_unsubscribed ⟨fun _ => rfl,fun _ => rfl,rfl,rfl,rfl⟩
  | read _ r ev hstate => exact hsteady.of_active hstate rfl id rfl
  | heard _ r ev hstate => exact hsteady.of_active hstate rfl id rfl
  | entered l i j hstate =>
    obtain ⟨hstate',hpending,_,hmap⟩ :=
      foldl_activateReaction_frame l (s.reactor.clearBitRange i j)
    apply hsteady.of_active hstate hstate'
    · intro hnil
      rw [hpending]
      simp only [clearBitRange,hnil,List.filter_nil]
    · exact hmap
  | merged _ ev b binding hmap hb =>
    obtain ⟨_,_,_,_,_,_,hstate⟩ := onChanged_frame s binding
    apply Steady.of_reacting
    rw [hstate]
    cases hold : s.reactor.state with
    | stopped =>
      rw [(hsteady.stopped hold).bindingMap] at hmap
      cases hmap
    | starting =>
      rw [(hsteady.starting hold).2] at hmap
      cases hmap
    | running => rfl
    | reacting => rfl
  | finishedStart _ hstate =>
    have hprocessed := processPendingBindings_spec hx
    obtain ⟨hnil,_⟩ := hsteady.starting (hprocessed.state.symm.trans hstate)
    have hidle : ∀ r < count, r ∉ s.reactor.pendingReactionMap := by
      rw [hnil]
      nofun
    exact steady_processed hx hidle
  | finishedLoop _ i hnone _ => exact steady_processed hx (nextReaction_eq_none hnone)
  | finishedStopped _ hstate =>
    have hprocessed := processPendingBindings_spec hx
    have hempty := hsteady.stopped (hprocessed.state.symm.trans hstate)
    exact .of_unsubscribed (processPendingBindings_unsubscribed hempty)
  | activated i j hnext =>
    obtain ⟨hstate',hpending,honChanged,_⟩ :=
      activateReaction_frame (s.reactor.clearBit j) j
    have hmem := mem_of_nextReaction hnext
    have hstate : ((s.reactor.clearBit j).activateReaction j).2.state = s.reactor.state :=
      hstate'
    cases hold : s.reactor.state with
    | stopped =>
      rw [(hsteady.stopped hold).pendingReactionMap] at hmem
      cases hmem
    | starting =>
      rw [(hsteady.starting hold).1] at hmem
      cases hmem
    | running =>
      obtain ⟨hnil,hidle⟩ := hsteady.running hold
      apply Steady.of_running (hstate.trans hold) (honChanged.trans hnil)
      intro r hlt hr
      rw [hpending] at hr
      exact hidle r hlt (List.mem_of_mem_filter hr)
    | reacting => exact .of_reacting (hstate.trans hold)

/-- What holds of a reactor at any time. -/
structure Sound (count : ℕ) (s : ReactorSystem Ev) : Prop where
  wired : Wired s.reactor s.reads
  steady : Steady count s.reactor

omit [DecidableEq Ev] in
theorem sound_initial (count : ℕ) : Sound count ({} : ReactorSystem Ev) where
  wired := wired_of_empty (fun _ => rfl) (fun _ => rfl) (fun _ => rfl) rfl
  steady := .of_unsubscribed ⟨fun _ => rfl,fun _ => rfl,rfl,rfl,rfl⟩

theorem sound_step (h : Sound count s) (hstep : step count s a = some s') :
    Sound count s' where
  wired := (step_effect hstep).wired h.wired
  steady := (step_effect hstep).steady h.wired h.steady

theorem sound_exec {as : List (ReactorAction Ev)} (h : Sound count s)
    (hrun : Run.exec (step count) s as = some s') : Sound count s' :=
  Run.exec_invariant (fun _ _ _ => sound_step) h hrun

theorem exact_exec {as : List (ReactorAction Ev)} (h : Sound count s)
    (hstopped : s.reactor.state = .stopped)
    (hunshared : Run.Along (step count) (fun s a => s.unshared count a = true) s as)
    (hrun : Run.exec (step count) s as = some s') : Exact s'.reactor s'.reads := by
  have hstep : ∀ (s : ReactorSystem Ev) (a : ReactorAction Ev) (s' : ReactorSystem Ev),
      Sound count s ∧ Exact s.reactor s.reads → s.unshared count a = true →
        step count s a = some s' → Sound count s' ∧ Exact s'.reactor s'.reads := by
    intro s a s' hs hfresh hstep
    have heffect := step_effect hstep
    exact ⟨sound_step hs.1 hstep,heffect.exact hfresh hs.1.wired hs.2⟩
  have hstart : Exact s.reactor s.reads :=
    exact_of_empty _ (h.steady.stopped hstopped).bindings
  exact (Run.exec_induction hstep ⟨h,hstart⟩ hunshared hrun).2

def BitsAgree (s : ReactorSystem Ev) (kind : BindingKind) : Prop :=
  ∀ b binding r, s.reactor.bindings b = some binding → binding.kind = kind →
    (r ∈ binding.reactionMap ↔ b ∈ (s.reactor.reactions r).bindingArray)

structure Subscribed (count : ℕ) (s : ReactorSystem Ev) : Prop where
  bits : ∀ b binding r, s.reactor.bindings b = some binding → binding.kind = .onChanged →
    b ∈ (s.reactor.reactions r).bindingArray → r ∈ binding.reactionMap
  onEvent : ∀ b binding, s.reactor.bindings b = some binding → binding.kind = .onEvent →
    binding.reactionMap = []
  marks : ∀ ev s' r, step count s (.change ev) = some s' → ev ∈ s.reads r →
    r ∈ s'.reactor.pendingReactionMap

/-- It is subscribed to nothing else. -/
structure SubscribedOnly (count : ℕ) (s : ReactorSystem Ev) : Prop where
  bits : s.BitsAgree .onChanged
  marks : ∀ ev s', step count s (.change ev) = some s' → ∀ r < count,
    (r ∈ s'.reactor.pendingReactionMap ↔ ev ∈ s.reads r)

theorem mem_pending_change {ev : Ev} (hstep : step count s (.change ev) = some s') (r : ℕ) :
    r ∈ s'.reactor.pendingReactionMap ↔
      r ∈ s.reactor.pendingReactionMap ∨ s.reactor.Bound r ev := by
  have hprogram : s.programStep count (.change ev) = some s' := by
    unfold step at hstep
    split at hstep
    · rename_i hlook
      cases hlook
    · cases hstep
    · exact hstep
  simp only [programStep] at hprogram
  split at hprogram
  · rename_i hnone
    cases hprogram
    have hunbound : ¬ s.reactor.Bound r ev := by
      rintro ⟨b,binding,hmap,hb,_⟩
      rw [hmap,Option.bind_some,hb] at hnone
      cases hnone
    simp only [hunbound,or_false]
  · rename_i binding hbinding
    obtain ⟨b,hmap,hb⟩ := Option.bind_eq_some_iff.mp hbinding
    have hbound : s.reactor.Bound r ev ↔ r ∈ binding.reactionMap := by
      constructor
      · rintro ⟨c,other,hmap',hc,hbit⟩
        cases hmap.symm.trans hmap'
        cases hb.symm.trans hc
        exact hbit
      · exact fun hbit => ⟨b,binding,hmap,hb,hbit⟩
    obtain ⟨_,_,_,_,_,hpending,_⟩ := onChanged_frame s binding
    cases hprogram
    rw [hpending,List.mem_append,hbound]

omit [DecidableEq Ev] in
theorem Sound.bound (h : Sound count s) (hrunning : s.reactor.state = .running) {r : ℕ} {ev : Ev}
    (hread : ev ∈ s.reads r) : s.reactor.Bound r ev := by
  cases h.wired.complete r ev hread with
  | inl hp =>
    rw [(h.steady.running hrunning).1] at hp
    cases hp
  | inr hb => exact hb

theorem subscribed_of_sound (h : Sound count s) (hrunning : s.reactor.state = .running) :
    Subscribed count s := by
  constructor
  · intro b binding r hb hkind harray
    exact h.wired.arrays r b harray binding hb hkind
  · exact h.wired.onEvent
  · intro ev s' r hstep hread
    exact (mem_pending_change hstep r).mpr (.inr (h.bound hrunning hread))

theorem subscribedOnly_of_exact (h : Sound count s) (he : Exact s.reactor s.reads)
    (hrunning : s.reactor.state = .running) : SubscribedOnly count s := by
  constructor
  · intro b binding r hb hkind
    constructor
    · exact he.arrays b binding r hb
    · exact fun harray => h.wired.arrays r b harray binding hb hkind
  · intro ev s' hstep r hr
    have hidle := (h.steady.running hrunning).2 r hr
    rw [mem_pending_change hstep,or_iff_right hidle]
    constructor
    · rintro ⟨b,binding,hmap,hb,hbit⟩
      obtain ⟨found,hfound,hev,_⟩ := h.wired.mapped ev b hmap
      cases hb.symm.trans hfound
      rw [← hev]
      exact he.read b binding r hb hbit
    · exact h.bound hrunning

/-- Two reactions share a property, and a loop runs the second one again. -/
def sharedRun : List (ReactorAction ℕ) :=
  [.start,.addOnChangedBinding 0 7,.addOnChangedBinding 1 7,.addOnChangedBinding 1 8,
    .reactorReturns,.change 8,.look,.addOnChangedBinding 1 7,.reactorReturns,.look]

/-- Else a bit can outlive the subscription: reaction `1` no longer reads `7`. -/
example : ∃ (s : ReactorSystem ℕ) (binding : Binding ℕ),
    Run.exec (step 2) {} [.start,.addOnChangedBinding 0 7,.addOnChangedBinding 1 7,
      .reactorReturns,.change 7,.look,.addOnChangedBinding 0 7,.reactorReturns,.look,
      .addOnChangedBinding 1 8,.reactorReturns,.look] = some s ∧
      s.reactor.state = .running ∧ s.reactor.bindings 0 = some binding ∧
      1 ∈ binding.reactionMap ∧ 0 ∉ (s.reactor.reactions 1).bindingArray :=
  ⟨_,_,rfl,rfl,rfl,by decide,by decide⟩

end ReactorSystem
end Jancy.Rtl
