import Jancy.Rtl.ReactorsHandlers

/-! Runs of several reactors: what holds in every state if no reactor is started inside its own
calls and no binding is deleted that is still to be notified. -/
namespace Jancy.Rtl

/-- A stopped reactor is a new one, but for the numbers of its next bindings and for a list that is
not looked at before it is emptied. -/
def Reactor.Renewed {Ev : Type} (x : Reactor Ev) : Prop :=
  x = { nextBinding := x.nextBinding, activeReactions := x.activeReactions }

namespace Reactors

open Reactor ReactorSystem Wires

variable {Ev : Type} {s s' : Reactors Ev} {count : ℕ → ℕ} {k : ℕ}

def own (k : ℕ) (stack : List ReactorsFrame) : List ReactorsFrame :=
  stack.filter (ReactorsFrame.isOf k)

/-- The calls of a reactor that go on, with the states that it can be in. -/
inductive Placed (k : ℕ) (state : ReactorState) : List ReactorsFrame → Prop
  | outside (h : state = .stopped ∨ state = .running) : Placed k state []
  | constructing (h : state = .stopped) : Placed k state [.constructing k]
  | starting (h : state = .stopped ∨ state = .starting) : Placed k state [.starting k]
  | reacting (i : ℕ) (h : state = .stopped ∨ state = .reacting) :
      Placed k state [.reacting k i]
  | looking (i : Option ℕ) (h : state = .reacting) : Placed k state [.looking k i]

def isLooking : ReactorsFrame → Bool
  | .looking _ _ => true
  | _ => false

/-- What holds in every state of a careful run. -/
structure Inv (count : ℕ → ℕ) (s : Reactors Ev) : Prop where
  fault : s.fault = none
  renewed : ∀ k, (s.reactors k).state = .stopped → Renewed (s.reactors k)
  sound : ∀ k, ∃ reads, Sound (count k) ⟨s.reactors k,[],reads⟩
  flagged : ∀ k, Flagged (s.reactors k)
  placed : ∀ k, Placed k (s.reactors k).state (own k s.stack)
  below : ∀ frame ∈ s.stack.tail, isLooking frame = false
  handled : ∀ k, Handled k (s.wires k)
  notified : ∀ h ∈ s.listed, ∃ binding,
    (s.reactors h.reactor).bindings h.binding = some binding ∧ binding.kind = .onChanged

theorem inv_initial (count : ℕ → ℕ) : Inv count ({} : Reactors Ev) where
  fault := rfl
  renewed := fun _ _ => rfl
  sound := fun k => ⟨fun _ => [],sound_initial (count k)⟩
  flagged := fun _ => .of_idle fun _ => rfl
  placed := fun _ => .outside (.inl rfl)
  below := by nofun
  handled := fun _ => ⟨fun _ _ => rfl,by nofun⟩
  notified := by nofun

variable [DecidableEq Ev]

structure Moved (count : ℕ → ℕ) (k : ℕ) (s s' : Reactors Ev) : Prop where
  fault : s'.fault = none
  others : ∀ j, j ≠ k → s'.reactors j = s.reactors j
  effect : ∀ reads, ∃ fresh reads',
    Effect (count k) ⟨s.reactors k,[],reads⟩ fresh (s'.reactors k) reads'
  renewed : (s'.reactors k).state = .stopped → Renewed (s'.reactors k)
  frames : ∀ j, j ≠ k → own j s'.stack = own j s.stack
  placed : Placed k (s'.reactors k).state (own k s'.stack)
  below : ∀ frame ∈ s'.stack.tail, isLooking frame = false
  handlers : ∀ ev, ∀ h ∈ s'.handlers ev, h.reactor = k → ∃ binding,
    (s'.reactors k).bindings h.binding = some binding ∧ binding.event = ev ∧
      binding.kind = h.kind
  foreign : SameForeign k s.handlers s'.handlers
  notified : ∀ h ∈ s'.listed, ∃ binding,
    (s'.reactors h.reactor).bindings h.binding = some binding ∧ binding.kind = .onChanged

theorem Moved.inv (h : Moved count k s s') (hs : Inv count s) : Inv count s' := by
  have hsound : ∀ j, ∃ reads, Sound (count j) ⟨s'.reactors j,[],reads⟩ := by
    intro j
    by_cases hj : j = k
    · subst hj
      obtain ⟨reads,hold⟩ := hs.sound j
      obtain ⟨fresh,reads',heffect⟩ := h.effect reads
      exact ⟨reads',heffect.wired hold.wired,heffect.steady hold.wired hold.steady⟩
    · rw [h.others j hj]
      exact hs.sound j
  constructor
  · exact h.fault
  · intro j hstate
    by_cases hj : j = k
    · subst hj
      exact h.renewed hstate
    · rw [h.others j hj] at hstate ⊢
      exact hs.renewed j hstate
  · exact hsound
  · intro j
    by_cases hj : j = k
    · subst hj
      obtain ⟨reads,hold⟩ := hs.sound j
      obtain ⟨fresh,reads',heffect⟩ := h.effect reads
      exact heffect.flagged hold (hs.flagged j)
    · rw [h.others j hj]
      exact hs.flagged j
  · intro j
    by_cases hj : j = k
    · subst hj
      exact h.placed
    · rw [h.others j hj,h.frames j hj]
      exact hs.placed j
  · exact h.below
  · intro j
    obtain ⟨reads,hsound'⟩ := hsound j
    refine ⟨hsound'.wired.unused,?_⟩
    by_cases hj : j = k
    · subst hj
      exact h.handlers
    · intro ev g hg hgj
      have hne : g.reactor ≠ k := by
        rw [hgj]
        exact hj
      show ∃ binding, (s'.reactors j).bindings g.binding = some binding ∧ _
      rw [h.others j hj]
      exact (hs.handled j).handlers ev g (h.foreign ev g hg hne) hgj
  · exact h.notified

theorem moved_of_keeps (hs : Inv count s) (hfault : s'.fault = s.fault)
    (hothers : ∀ j, j ≠ k → s'.reactors j = s.reactors j)
    (hhandlers : s'.handlers = s.handlers)
    (heffect : ∀ reads, ∃ fresh reads',
      Effect (count k) ⟨s.reactors k,[],reads⟩ fresh (s'.reactors k) reads')
    (hrenewed : (s'.reactors k).state = .stopped → Renewed (s'.reactors k))
    (hframes : ∀ j, j ≠ k → own j s'.stack = own j s.stack)
    (hplaced : Placed k (s'.reactors k).state (own k s'.stack))
    (hbelow : ∀ frame ∈ s'.stack.tail, isLooking frame = false)
    (hlisted : ∀ h ∈ s'.listed, h ∈ s.listed)
    (hkeeps : Keeps (s.reactors k) (s'.reactors k)) : Moved count k s s' := by
  refine ⟨hfault.trans hs.fault,hothers,heffect,hrenewed,hframes,hplaced,hbelow,?_,?_,?_⟩
  · intro ev h hmem hk
    rw [hhandlers] at hmem
    obtain ⟨binding,hb,hev,hkind⟩ := (hs.handled k).handlers ev h hmem hk
    obtain ⟨binding',hb',hev',hkind'⟩ := hkeeps _ binding hb
    exact ⟨binding',hb',hev'.trans hev,hkind'.trans hkind⟩
  · rw [hhandlers]
    exact fun _ _ hg _ => hg
  · intro h hmem
    obtain ⟨binding,hb,hkind⟩ := hs.notified h (hlisted h hmem)
    by_cases hk : h.reactor = k
    · rw [hk] at hb ⊢
      obtain ⟨binding',hb',_,hkind'⟩ := hkeeps _ binding hb
      exact ⟨binding',hb',hkind'.trans hkind⟩
    · rw [hothers _ hk]
      exact ⟨binding,hb,hkind⟩

omit [DecidableEq Ev] in
theorem inv_of_stack (hs : Inv count s) {stack : List ReactorsFrame}
    (hplaced : ∀ k, Placed k (s.reactors k).state (own k stack))
    (hbelow : ∀ frame ∈ stack.tail, isLooking frame = false)
    (hnotified : ∀ h ∈ listed { s with stack := stack }, ∃ binding,
      (s.reactors h.reactor).bindings h.binding = some binding ∧ binding.kind = .onChanged) :
    Inv count { s with stack := stack } :=
  ⟨hs.fault,hs.renewed,hs.sound,hs.flagged,hplaced,hbelow,hs.handled,hnotified⟩

omit [DecidableEq Ev] in
theorem listed_cons (s : Reactors Ev) (frame : ReactorsFrame) (rest : List ReactorsFrame) :
    listed { s with stack := frame :: rest } =
      (match frame with
        | .calling handlers => handlers.filter (·.kind = .onChanged)
        | _ => []) ++ listed { s with stack := rest } := by
  unfold listed
  dsimp only
  rw [List.flatMap_cons,List.filter_append]
  cases frame <;> rfl

variable {frame : ReactorsFrame}

theorem own_cons_of (h : ReactorsFrame.isOf k frame = true) (rest : List ReactorsFrame) :
    own k (frame :: rest) = frame :: own k rest :=
  List.filter_cons_of_pos h

theorem own_cons_other (h : ReactorsFrame.isOf k frame = false) (rest : List ReactorsFrame) :
    own k (frame :: rest) = own k rest :=
  List.filter_cons_of_neg (by simp [h])

theorem Placed.of_cons {state : ReactorState} {l : List ReactorsFrame}
    (h : Placed k state (frame :: l)) : l = [] := by
  cases h with
  | constructing => rfl
  | starting => rfl
  | reacting => rfl
  | looking => rfl

theorem isOf_other {j : ℕ} (h : ReactorsFrame.isOf k frame = true) (hj : j ≠ k) :
    ReactorsFrame.isOf j frame = false := by
  cases frame with
  | constructing i =>
    have hi : i = k := of_decide_eq_true h
    subst hi
    exact decide_eq_false hj.symm
  | starting i =>
    have hi : i = k := of_decide_eq_true h
    subst hi
    exact decide_eq_false hj.symm
  | reacting i _ =>
    have hi : i = k := of_decide_eq_true h
    subst hi
    exact decide_eq_false hj.symm
  | looking i _ =>
    have hi : i = k := of_decide_eq_true h
    subst hi
    exact decide_eq_false hj.symm
  | handling => cases h
  | calling _ => cases h

variable {rest : List ReactorsFrame}

omit [DecidableEq Ev] in
theorem Inv.own_rest (hs : Inv count s) (hstack : s.stack = frame :: rest)
    (h : ReactorsFrame.isOf k frame = true) :
    own k rest = [] ∧ Placed k (s.reactors k).state [frame] := by
  have hplaced := hs.placed k
  rw [hstack,own_cons_of h] at hplaced
  have hnil := hplaced.of_cons
  rw [hnil] at hplaced
  exact ⟨hnil,hplaced⟩

omit [DecidableEq Ev] in
theorem own_of_outside (h : s.isOutside k = true) :
    own k s.stack = [] := by
  unfold isOutside at h
  apply List.filter_eq_nil_iff.mpr
  intro frame hmem hof
  have hnot := List.all_eq_true.mp h frame hmem
  rw [hof] at hnot
  cases hnot

omit [DecidableEq Ev] in
theorem frames_of_top (hstack : s.stack = frame :: rest) (h : ReactorsFrame.isOf k frame = true)
    {j : ℕ} (hj : j ≠ k) : own j rest = own j s.stack := by
  rw [hstack,own_cons_other (isOf_other h hj)]

omit [DecidableEq Ev] in
theorem inv_start (hs : Inv count s) (hquiet : ∀ frame ∈ s.stack, isLooking frame = false)
    (hc : (s.reactors k).state ≠ .stopped ∨ s.isOutside k = true) : Inv count (s.start k) := by
  unfold start
  split
  · exact hs
  · rename_i hstopped
    have hstate : (s.reactors k).state = .stopped := not_not.mp hstopped
    have houtside := own_of_outside (hc.resolve_left fun hne => hne hstate)
    have hof : ReactorsFrame.isOf k (.constructing k) = true := decide_eq_true rfl
    refine inv_of_stack hs ?_ hquiet ?_
    · intro j
      by_cases hj : j = k
      · subst hj
        rw [own_cons_of hof,houtside]
        exact .constructing hstate
      · rw [own_cons_other (isOf_other hof hj)]
        exact hs.placed j
    · rw [listed_cons]
      exact hs.notified

theorem stop_state {w : Wires Ev} (h : w.reactor.state ≠ .stopped) :
    (w.stop k).reactor = w.reactor.stop := by
  rw [Wires.stop,if_neg h]

theorem inv_stop (hs : Inv count s) (hquiet : ∀ frame ∈ s.stack, isLooking frame = false)
    (hc : s.mayStop k = true) : Inv count (s.stop k) ∧ ((s.stop k).reactors k).state = .stopped := by
  by_cases hstate : (s.reactors k).state = .stopped
  · have hsame : s.stop k = s := by
      have hstop : (s.wires k).stop k = s.wires k := if_pos hstate
      unfold stop
      rw [hstop]
      show { s with reactors := Function.update s.reactors k (s.reactors k) } = s
      rw [Function.update_eq_self]
    rw [hsame]
    exact ⟨hs,hstate⟩
  · have hreactor : (s.stop k).reactors k = (s.reactors k).stop := by
      show Function.update s.reactors k _ k = _
      rw [Function.update_self]
      exact stop_state hstate
    have hstop : (s.reactors k).stop =
        { nextBinding := (s.reactors k).nextBinding,
          activeReactions := (s.reactors k).activeReactions } := if_neg hstate
    have hhandlers := stop_handlers (hs.handled k) hstate
    have hnone : ∀ h ∈ s.listed, h.reactor ≠ k := by
      intro h hmem
      rcases (Bool.or_eq_true _ _).mp hc with hstopped | hall
      · exact absurd (of_decide_eq_true hstopped) hstate
      · exact of_decide_eq_true (List.all_eq_true.mp hall h hmem)
    have hothers : ∀ j, j ≠ k → (s.stop k).reactors j = s.reactors j :=
      fun j hj => Function.update_of_ne hj _ _
    have hplaced := hs.placed k
    have hmoved : Moved count k s (s.stop k) := by
      constructor
      · exact hs.fault
      · exact hothers
      · intro reads
        rw [hreactor]
        exact ⟨true,_,.stopped true hstate⟩
      · intro _
        rw [hreactor,hstop]
        rfl
      · exact fun _ _ => rfl
      · rw [hreactor,hstop]
        show Placed k .stopped (own k s.stack)
        cases hown : own k s.stack with
        | nil => exact .outside (.inl rfl)
        | cons frame l =>
          rw [hown] at hplaced
          cases hplaced with
          | constructing => exact .constructing rfl
          | starting => exact .starting (.inl rfl)
          | reacting i => exact .reacting i (.inl rfl)
          | looking i =>
            have hmem : ReactorsFrame.looking k i ∈ own k s.stack := by
              rw [hown]
              exact List.mem_cons_self
            have hfalse := hquiet _ (List.mem_of_mem_filter hmem)
            cases hfalse
      · exact hs.below
      · intro ev h hmem hk
        exact absurd hk (hhandlers ev h hmem).1
      · exact fun ev h hmem _ => (hhandlers ev h hmem).2
      · intro h hmem
        rw [hothers _ (hnone h hmem)]
        exact hs.notified h hmem
    refine ⟨hmoved.inv hs,?_⟩
    rw [hreactor,hstop]

omit [DecidableEq Ev] in
theorem mem_listed_cons (hstack : s.stack = frame :: rest) {h : EventHandler}
    (hmem : h ∈ listed { s with stack := rest }) : h ∈ s.listed := by
  have hlisted : s.listed = listed { s with stack := frame :: rest } := by
    unfold listed
    rw [hstack]
  rw [hlisted,listed_cons]
  exact List.mem_append_right _ hmem

omit [DecidableEq Ev] in
theorem inv_fire (hs : Inv count s) (hquiet : ∀ frame ∈ s.stack, isLooking frame = false)
    (event : Ev) : Inv count { s with stack := .calling (s.handlers event) :: s.stack } := by
  refine inv_of_stack hs hs.placed hquiet ?_
  intro h hmem
  rw [listed_cons] at hmem
  rcases List.mem_append.mp hmem with hnew | hold
  · obtain ⟨hin,hkind⟩ := List.mem_filter.mp hnew
    obtain ⟨binding,hb,_,hsame⟩ := (hs.handled h.reactor).handlers event h hin rfl
    exact ⟨binding,hb,hsame.trans (of_decide_eq_true hkind)⟩
  · exact hs.notified h hold

theorem inv_whileActive (hs : Inv count s) {p : ℕ → Prop} [DecidablePred p]
    {y : Reactor Ev → Reactor Ev}
    (hstep : (s.byFunction fun k x => if p k then x.whileActive (y x) else none) = some s')
    (hy : ∀ k, (s.reactors k).state = .starting ∨ (s.reactors k).state = .reacting →
      (y (s.reactors k)).state = (s.reactors k).state ∧
        Keeps (s.reactors k) (y (s.reactors k)) ∧ ∀ reads, ∃ fresh reads',
          Effect (count k) ⟨s.reactors k,[],reads⟩ fresh (y (s.reactors k)) reads') :
    Inv count s' := by
  unfold byFunction at hstep
  split at hstep
  · cases hstep
  rename_i k _
  obtain ⟨x,hx,rfl⟩ := Option.map_eq_some_iff.mp hstep
  obtain ⟨-,hx⟩ := Option.ite_none_right_eq_some.mp hx
  rcases whileActive_inv hx with ⟨-,rfl⟩ | ⟨hactive,rfl⟩
  · have hsame : s.setReactor k (s.reactors k) = s := by
      unfold setReactor
      rw [Function.update_eq_self]
    rw [hsame]
    exact hs
  · obtain ⟨hstate,hkeeps,heffect⟩ := hy k hactive
    have hreactor : (s.setReactor k (y (s.reactors k))).reactors k = y (s.reactors k) :=
      Function.update_self _ _ _
    have hmoved : Moved count k s (s.setReactor k (y (s.reactors k))) := by
      refine moved_of_keeps hs rfl (fun j hj => Function.update_of_ne hj _ _) rfl ?_ ?_
        (fun _ _ => rfl) ?_ hs.below (fun _ => id) ?_
      · rw [hreactor]
        exact heffect
      · rw [hreactor,hstate]
        intro hstopped
        exact absurd hstopped (ne_stopped hactive)
      · rw [hreactor,hstate]
        exact hs.placed k
      · rw [hreactor]
        exact hkeeps
    exact hmoved.inv hs

/-- The end of a start or a loop, with its state. -/
theorem inv_finish (hs : Inv count s) (hstack : s.stack = frame :: rest)
    (hof : ReactorsFrame.isOf k frame = true) (hc : s.mayFinish k = true)
    (heffect : ∀ reads, ∃ fresh reads', Effect (count k) ⟨s.reactors k,[],reads⟩ fresh
      { (s.reactors k).processPendingBindings with state := .running } reads') :
    Inv count
      { s.setWires k { (s.wires k).processPendingBindings k with
          reactor := { (s.reactors k).processPendingBindings with state := .running } } with
        stack := rest } := by
  obtain ⟨hnil,_⟩ := hs.own_rest hstack hof
  obtain ⟨reads,hsound⟩ := hs.sound k
  have hothers : ∀ j, j ≠ k → Function.update s.reactors k
      { (s.reactors k).processPendingBindings with state := .running } j = s.reactors j :=
    fun j hj => Function.update_of_ne hj _ _
  have hself : Function.update s.reactors k
      { (s.reactors k).processPendingBindings with state := .running } k =
        { (s.reactors k).processPendingBindings with state := .running } :=
    Function.update_self _ _ _
  have hmoved : Moved count k s
      { s.setWires k { (s.wires k).processPendingBindings k with
          reactor := { (s.reactors k).processPendingBindings with state := .running } } with
        stack := rest } := by
    constructor
    · exact hs.fault
    · exact hothers
    · intro reads
      show ∃ fresh reads', Effect _ _ fresh (Function.update s.reactors k _ k) reads'
      rw [hself]
      exact heffect reads
    · show (Function.update s.reactors k _ k).state = .stopped → _
      rw [hself]
      nofun
    · exact fun j hj => frames_of_top hstack hof hj
    · show Placed k (Function.update s.reactors k _ k).state (own k rest)
      rw [hself,hnil]
      exact .outside (.inr rfl)
    · intro f hf
      apply hs.below
      rw [hstack]
      exact List.mem_of_mem_tail hf
    · intro ev h hmem hk
      show ∃ binding, (Function.update s.reactors k _ k).bindings _ = _ ∧ _
      rw [hself]
      exact (processPendingBindings_handled (hs.handled k)).handlers ev h hmem hk
    · exact processPendingBindings_sameForeign k (s.wires k)
    · intro h hmem
      have hlisted := mem_listed_cons hstack hmem
      obtain ⟨binding,hb,hkind⟩ := hs.notified h hlisted
      show ∃ binding, (Function.update s.reactors k _ h.reactor).bindings _ = _ ∧ _
      by_cases hk : h.reactor = k
      · rw [hk] at hb ⊢
        rw [hself]
        have hstays : goes (s.reactors k) h.binding = false := by
          have hok := List.all_eq_true.mp hc h hlisted
          simpa [hk] using hok
        obtain ⟨binding',hb',_,hkind'⟩ :=
          processPendingBindings_keeps hsound.wired hb hkind hstays
        exact ⟨binding',hb',hkind'.trans hkind⟩
      · rw [hothers _ hk]
        exact ⟨binding,hb,hkind⟩
  exact hmoved.inv hs

omit [DecidableEq Ev] in
theorem inv_pop (hs : Inv count s) (hstack : s.stack = frame :: rest)
    (hstopped : ∀ k, ReactorsFrame.isOf k frame = true → (s.reactors k).state = .stopped) :
    Inv count { s with stack := rest } := by
  refine inv_of_stack hs ?_ ?_ ?_
  · intro j
    cases hof : ReactorsFrame.isOf j frame with
    | true =>
      rw [(hs.own_rest hstack hof).1]
      exact .outside (.inl (hstopped j hof))
    | false =>
      have hplaced := hs.placed j
      rw [hstack,own_cons_other hof] at hplaced
      exact hplaced
  · intro f hf
    apply hs.below
    rw [hstack]
    exact List.mem_of_mem_tail hf
  · exact fun h hmem => hs.notified h (mem_listed_cons hstack hmem)

theorem moved_of_top (hs : Inv count s) {frame frame' : ReactorsFrame} {x : Reactor Ev}
    (hstack : s.stack = frame :: rest) (hof : ReactorsFrame.isOf k frame = true)
    (hof' : ReactorsFrame.isOf k frame' = true) (heffect : ∀ reads, ∃ fresh reads',
      Effect (count k) ⟨s.reactors k,[],reads⟩ fresh x reads') (hnotStopped : x.state ≠ .stopped)
    (hplaced : Placed k x.state [frame']) (hkeeps : Keeps (s.reactors k) x) :
    Moved count k s { s.setReactor k x with stack := frame' :: rest } := by
  obtain ⟨hnil,_⟩ := hs.own_rest hstack hof
  have hreactor : Function.update s.reactors k x k = x := Function.update_self _ _ _
  have hnotCalling : ∀ f : ReactorsFrame, ReactorsFrame.isOf k f = true → ∀ h,
      h ∈ listed { s with stack := f :: rest } → h ∈ listed { s with stack := rest } := by
    intro f hf h hmem
    rw [listed_cons] at hmem
    cases f with
    | calling _ => cases hf
    | _ => exact hmem
  refine moved_of_keeps hs rfl (fun j hj => Function.update_of_ne hj _ _) rfl ?_ ?_ ?_ ?_ ?_ ?_ ?_
  · show ∀ reads, ∃ fresh reads', Effect _ _ fresh (Function.update s.reactors k x k) reads'
    rw [hreactor]
    exact heffect
  · show (Function.update s.reactors k x k).state = .stopped → _
    rw [hreactor]
    exact fun hstopped => absurd hstopped hnotStopped
  · intro j hj
    show own j (frame' :: rest) = _
    rw [own_cons_other (isOf_other hof' hj)]
    exact frames_of_top hstack hof hj
  · show Placed k (Function.update s.reactors k x k).state (own k (frame' :: rest))
    rw [hreactor,own_cons_of hof',hnil]
    exact hplaced
  · intro f hf
    apply hs.below
    rw [hstack]
    exact hf
  · exact fun h hmem => mem_listed_cons hstack (hnotCalling frame' hof' h hmem)
  · show Keeps _ (Function.update s.reactors k x k)
    rw [hreactor]
    exact hkeeps

theorem inv_returns (hs : Inv count s) (hquiet : ∀ frame ∈ s.stack, isLooking frame = false)
    (hc : s.careful count .returns = true) (hstep : s.returns = some s') : Inv count s' := by
  unfold returns at hstep
  cases hstack : s.stack with
  | nil =>
    rw [hstack] at hstep
    cases hstep
  | cons frame rest =>
    rw [hstack] at hstep
    cases frame with
    | constructing k =>
      cases hstep
      have hof : ReactorsFrame.isOf k (.constructing k) = true := decide_eq_true rfl
      obtain ⟨_,hplaced⟩ := hs.own_rest hstack hof
      have hstopped : (s.reactors k).state = .stopped := by
        cases hplaced with
        | constructing h => exact h
      have heffect : ∀ reads, ∃ fresh reads', Effect (count k) ⟨s.reactors k,[],reads⟩ fresh
          { s.reactors k with state := .starting } reads' :=
        fun reads => ⟨true,reads,.started true hstopped⟩
      have hof' : ReactorsFrame.isOf k (.starting k) = true := decide_eq_true rfl
      exact (moved_of_top hs hstack hof hof' heffect (by nofun) (.starting (.inr rfl))
        (.of_eq rfl)).inv hs
    | starting k =>
      cases hstep
      have hof : ReactorsFrame.isOf k (.starting k) = true := decide_eq_true rfl
      obtain ⟨_,hplaced⟩ := hs.own_rest hstack hof
      unfold finishStart
      split
      · rename_i hstopped
        refine inv_pop hs hstack ?_
        intro j hj
        have hjk : k = j := of_decide_eq_true hj
        rw [← hjk]
        exact hstopped
      · rename_i hnotStopped
        have hstate : (s.reactors k).state = .starting := by
          cases hplaced with
          | starting h => exact h.resolve_left hnotStopped
        obtain ⟨reads,hsound⟩ := hs.sound k
        have hprocessed := (processPendingBindings_spec hsound.wired).state
        have hstarting : (s.reactors k).processPendingBindings.state = .starting :=
          hprocessed.trans hstate
        have hfinish : s.mayFinish k = true := by
          simp only [careful,hstack,hnotStopped,decide_false,Bool.false_or] at hc
          exact hc
        have hthis : ((s.wires k).processPendingBindings k).reactor.state = .starting :=
          hstarting
        simp only [hthis,if_true]
        exact inv_finish hs hstack hof hfinish
          fun reads => ⟨true,reads,.finishedStart true hstarting⟩
    | reacting k i =>
      have hof : ReactorsFrame.isOf k (.reacting k i) = true := decide_eq_true rfl
      obtain ⟨_,hplaced⟩ := hs.own_rest hstack hof
      dsimp only at hstep
      split at hstep
      · rename_i hstopped
        cases hstep
        refine inv_pop hs hstack ?_
        intro j hj
        have hjk : k = j := of_decide_eq_true hj
        rw [← hjk]
        exact hstopped
      · rename_i hnotStopped
        cases hstep
        have hstate : (s.reactors k).state = .reacting := by
          cases hplaced with
          | reacting _ h => exact h.resolve_left hnotStopped
        have hmoved : Moved count k s
            { s.setReactor k (s.reactors k) with stack := .looking k (some i) :: rest } :=
          moved_of_top hs hstack hof (decide_eq_true rfl)
            (fun reads => ⟨true,reads,.kept true⟩) hnotStopped
            (.looking (some i) hstate) (.refl _)
        have hsame : s.setReactor k (s.reactors k) = s := by
          unfold setReactor
          rw [Function.update_eq_self]
        rw [hsame] at hmoved
        exact hmoved.inv hs
    | looking k i =>
      have hlooking := hquiet (.looking k i) (by rw [hstack]; exact List.mem_cons_self)
      cases hlooking
    | handling =>
      cases hstep
      exact inv_pop hs hstack (by nofun)
    | calling _ => cases hstep

theorem inv_look (hs : Inv count s) {k : ℕ} {i : Option ℕ} (hstack : s.stack = .looking k i :: rest)
    (hc : s.careful count .look = true) :
    Inv count (s.look count k i rest) := by
  have hof : ReactorsFrame.isOf k (.looking k i) = true := decide_eq_true rfl
  obtain ⟨_,hplaced⟩ := hs.own_rest hstack hof
  have hstate : (s.reactors k).state = .reacting := by
    cases hplaced with
    | looking _ h => exact h
  obtain ⟨reads,hsound⟩ := hs.sound k
  unfold look
  cases hnext : (s.reactors k).nextReaction (count k) i with
  | none =>
    have hprocessed := (processPendingBindings_spec hsound.wired).state
    have hreacting : ((s.wires k).processPendingBindings k).reactor.state = .reacting :=
      hprocessed.trans hstate
    have hfinish : s.mayFinish k = true := by
      simp only [careful,hstack,hnext,Option.isSome_none,Bool.false_or] at hc
      exact hc
    have hnotStopped : ((s.wires k).processPendingBindings k).reactor.state ≠ .stopped := by
      rw [hreacting]
      nofun
    simp only [finishLoop,if_neg hnotStopped,if_pos hreacting]
    exact inv_finish hs hstack hof hfinish
      fun reads => ⟨true,reads,.finishedLoop true i hnext hreacting⟩
  | some j =>
    obtain ⟨hstate',_⟩ := activateReaction_frame ((s.reactors k).clearBit j) j
    have hreacting : (((s.reactors k).clearBit j).activateReaction j).2.state = .reacting :=
      hstate'.trans hstate
    have hnotStopped : (((s.reactors k).clearBit j).activateReaction j).2.state ≠ .stopped := by
      rw [hreacting]
      nofun
    have hkeeps : Keeps (s.reactors k) (((s.reactors k).clearBit j).activateReaction j).2 :=
      activateReaction_keeps ((s.reactors k).clearBit j) j
    have heffect : ∀ reads, ∃ fresh reads', Effect (count k) ⟨s.reactors k,[],reads⟩ fresh
        (((s.reactors k).clearBit j).activateReaction j).2 reads' :=
      fun reads => ⟨_,_,.activated i j hnext⟩
    dsimp only
    split
    · rename_i x hresult
      have hx : (((s.reactors k).clearBit j).activateReaction j).2 = x := by rw [hresult]
      rw [hx] at hreacting hnotStopped hkeeps heffect
      have hof' : ReactorsFrame.isOf k (.looking k (some j)) = true := decide_eq_true rfl
      exact (moved_of_top hs hstack hof hof' heffect hnotStopped (.looking _ hreacting)
        hkeeps).inv hs
    · rename_i x hresult
      have hx : (((s.reactors k).clearBit j).activateReaction j).2 = x := by rw [hresult]
      rw [hx] at hreacting hnotStopped hkeeps heffect
      rw [if_neg hnotStopped]
      have hof' : ReactorsFrame.isOf k (.reacting k j) = true := decide_eq_true rfl
      exact (moved_of_top hs hstack hof hof' heffect hnotStopped
        (.reacting j (.inr hreacting)) hkeeps).inv hs

theorem inv_onChanged (hs : Inv count s) (hquiet : ∀ frame ∈ s.stack, isLooking frame = false)
    {k b : ℕ} {binding : Binding Ev} (hb : (s.reactors k).bindings b = some binding)
    (hkind : binding.kind = .onChanged) : Inv count (s.onChanged k binding) := by
  obtain ⟨reads,hsound⟩ := hs.sound k
  have hmap : (s.reactors k).bindingMap binding.event = some b :=
    hsound.wired.listed b binding hb hkind
  have hmerged : ∀ reads, ∃ fresh reads', Effect (count k) ⟨s.reactors k,[],reads⟩ fresh
      (ReactorSystem.onChanged ⟨s.reactors k,[],reads⟩ binding).reactor reads' :=
    fun reads => ⟨true,reads,.merged true binding.event b binding hmap hb⟩
  have hnotStopped : (s.reactors k).state ≠ .stopped := by
    intro hstopped
    have hnew := hs.renewed k hstopped
    rw [hnew] at hb
    cases hb
  by_cases hrunning : (s.reactors k).state = .running
  · have hbegun : s.onChanged k binding =
        { s.setReactor k { (s.reactors k).mergePending binding with
            state := .reacting, activeReactions := [], activeBindings := [] } with
          stack := .looking k none :: s.stack } := if_neg fun hnot => hnot hrunning
    have hself : ∀ x, Function.update s.reactors k x k = x :=
      fun x => Function.update_self k x s.reactors
    have hof : ReactorsFrame.isOf k (.looking k none) = true := decide_eq_true rfl
    have hnil : own k s.stack = [] := by
      have hplaced := hs.placed k
      rw [hrunning] at hplaced
      cases hown : own k s.stack with
      | nil => rfl
      | cons frame l =>
        rw [hown] at hplaced
        cases hplaced with
        | constructing h => cases h
        | starting h => simp at h
        | reacting _ h => simp at h
        | looking _ h => cases h
    rw [hbegun]
    refine Moved.inv (k := k) ?_ hs
    refine moved_of_keeps hs rfl (fun j hj => Function.update_of_ne hj _ _) rfl
      ?_ ?_ ?_ ?_ hquiet ?_ ?_
    · intro reads
      obtain ⟨fresh,reads',heffect⟩ := hmerged reads
      refine ⟨fresh,reads',?_⟩
      show Effect _ _ _ (Function.update s.reactors k _ k) _
      rw [hself]
      have hloop : (ReactorSystem.onChanged ⟨s.reactors k,[],reads⟩ binding).reactor =
          { (s.reactors k).mergePending binding with
            state := .reacting, activeReactions := [], activeBindings := [] } := by
        simp [ReactorSystem.onChanged,mergePending,hrunning]
      rw [hloop] at heffect
      exact heffect
    · show (Function.update s.reactors k _ k).state = .stopped → _
      rw [hself]
      rintro ⟨⟩
    · intro j hj
      exact own_cons_other (isOf_other hof hj) _
    · show Placed k (Function.update s.reactors k _ k).state (own k (.looking k none :: s.stack))
      rw [hself,own_cons_of hof,hnil]
      exact .looking none rfl
    · intro h hmem
      have hmem' : h ∈ listed { s with stack := .looking k none :: s.stack } := hmem
      rw [listed_cons] at hmem'
      exact hmem'
    · show Keeps _ (Function.update s.reactors k _ k)
      rw [hself]
      exact .of_eq rfl
  · have hsame : s.onChanged k binding =
        s.setReactor k ((s.reactors k).mergePending binding) := if_pos hrunning
    have hself : (s.setReactor k ((s.reactors k).mergePending binding)).reactors k =
        (s.reactors k).mergePending binding := Function.update_self _ _ _
    rw [hsame]
    refine Moved.inv (k := k) ?_ hs
    refine moved_of_keeps hs rfl (fun j hj => Function.update_of_ne hj _ _) rfl
      ?_ ?_ (fun _ _ => rfl) ?_ hs.below (fun _ => id) ?_
    · intro reads
      obtain ⟨fresh,reads',heffect⟩ := hmerged reads
      refine ⟨fresh,reads',?_⟩
      have hmerge : (ReactorSystem.onChanged ⟨s.reactors k,[],reads⟩ binding).reactor =
          (s.reactors k).mergePending binding := by
        simp [ReactorSystem.onChanged,mergePending,hrunning]
      rw [hself,← hmerge]
      exact heffect
    · rw [hself]
      exact fun hstopped => absurd hstopped hnotStopped
    · rw [hself]
      exact hs.placed k
    · rw [hself]
      exact .of_eq rfl

theorem inv_call (hs : Inv count s) {handlers : List EventHandler}
    (hstack : s.stack = .calling handlers :: rest) : Inv count (s.call handlers rest) := by
  have hrest : ∀ frame ∈ rest, isLooking frame = false := by
    intro frame hmem
    apply hs.below
    rw [hstack]
    exact hmem
  unfold call
  cases handlers with
  | nil => exact inv_pop hs hstack (by nofun)
  | cons h handlers =>
    have hplaced : ∀ j, Placed j (s.reactors j).state (own j rest) := by
      intro j
      have hold := hs.placed j
      rw [hstack] at hold
      exact hold
    have hlisted : s.listed = listed { s with stack := .calling (h :: handlers) :: rest } := by
      unfold listed
      rw [hstack]
    have hfewer : ∀ g ∈ listed { s with stack := .calling handlers :: rest },
        g ∈ s.listed := by
      intro g hg
      rw [hlisted,listed_cons]
      rw [listed_cons] at hg
      rcases List.mem_append.mp hg with hg | hg
      · obtain ⟨hin,hkind⟩ := List.mem_filter.mp hg
        exact List.mem_append_left _ (List.mem_filter.mpr ⟨List.mem_cons_of_mem _ hin,hkind⟩)
      · exact List.mem_append_right _ hg
    dsimp only
    cases hkind : h.kind with
    | onEvent =>
      refine inv_of_stack hs hplaced ?_ ?_
      · intro frame hmem
        rcases List.mem_cons.mp hmem with rfl | hmem
        · rfl
        · exact hrest frame hmem
      · intro g hg
        rw [listed_cons] at hg
        exact hs.notified g (hfewer g hg)
    | onChanged =>
      have hin : h ∈ s.listed := by
        rw [hlisted,listed_cons]
        refine List.mem_append_left _ (List.mem_filter.mpr ⟨List.mem_cons_self,?_⟩)
        exact decide_eq_true hkind
      obtain ⟨binding,hb,honChanged⟩ := hs.notified h hin
      simp only [hb]
      have hnext : Inv count { s with stack := .calling handlers :: rest } :=
        inv_of_stack hs hplaced hrest fun g hg => hs.notified g (hfewer g hg)
      refine inv_onChanged hnext ?_ hb honChanged
      intro frame hmem
      rcases List.mem_cons.mp hmem with rfl | hmem
      · rfl
      · exact hrest frame hmem

theorem inv_program (hs : Inv count s) (hquiet : ∀ frame ∈ s.stack, isLooking frame = false)
    {a : ReactorsAction Ev} (hc : s.careful count a = true)
    (hstep : s.programStep count a = some s') : Inv count s' := by
  cases a with
  | start k =>
    cases hstep
    refine inv_start hs hquiet ?_
    rcases (Bool.or_eq_true _ _).mp hc with hstate | houtside
    · exact .inl (of_decide_eq_true hstate)
    · exact .inr houtside
  | stop k =>
    cases hstep
    exact (inv_stop hs hquiet hc).1
  | restart k =>
    cases hstep
    obtain ⟨houtside,hmay⟩ := (Bool.and_eq_true _ _).mp hc
    have hstop := (inv_stop hs hquiet hmay).1
    exact inv_start hstop hquiet (.inr houtside)
  | fire event =>
    cases hstep
    exact inv_fire hs hquiet event
  | addOnChangedBinding i event =>
    simp only [programStep,Reactor.addOnChangedBinding] at hstep
    exact inv_whileActive hs hstep fun k hactive =>
      ⟨rfl,.of_eq rfl,fun reads => ⟨true,_,.read true i event hactive⟩⟩
  | addOnEventBinding i event =>
    simp only [programStep,Reactor.addOnEventBinding] at hstep
    exact inv_whileActive hs hstep fun k hactive =>
      ⟨rfl,.of_eq rfl,fun reads => ⟨true,_,.heard true i event hactive⟩⟩
  | enterReactiveStmt from' to' =>
    simp only [programStep,Reactor.enterReactiveStmt] at hstep
    refine inv_whileActive hs hstep fun k hactive => ?_
    have hframe := foldl_activateReaction_frame (reactionRange from' to')
      ((s.reactors k).clearBitRange from' to')
    have hkeeps : Keeps (s.reactors k) ((reactionRange from' to').foldl
        (fun x i => (x.activateReaction i).2) ((s.reactors k).clearBitRange from' to')) :=
      foldl_activateReaction_keeps _ ((s.reactors k).clearBitRange from' to')
    exact ⟨hframe.1,hkeeps,fun reads => ⟨_,_,.entered _ from' to' hactive⟩⟩
  | returns => exact inv_returns hs hquiet hc hstep
  | look => cases hstep
  | call => cases hstep

theorem inv_step (hs : Inv count s) {a : ReactorsAction Ev} (hc : s.careful count a = true)
    (hstep : step count s a = some s') : Inv count s' := by
  unfold step at hstep
  rw [if_neg (by simp [hs.fault])] at hstep
  split at hstep
  · rename_i hstack
    cases hstep
    exact inv_look hs hstack hc
  · cases hstep
  · rename_i hstack
    cases hstep
    exact inv_call hs hstack
  · cases hstep
  · rename_i hnotLooking _ _ _
    refine inv_program hs ?_ hc hstep
    intro frame hmem
    cases hstack : s.stack with
    | nil =>
      rw [hstack] at hmem
      cases hmem
    | cons top rest =>
      rw [hstack] at hmem
      rcases List.mem_cons.mp hmem with rfl | hmem
      · cases frame with
        | looking k i => exact absurd hstack (hnotLooking k i rest)
        | _ => rfl
      · apply hs.below
        rw [hstack]
        exact hmem

end Reactors
end Jancy.Rtl
