import Jancy.Rtl.Reactors

/-! Which bindings a reactor keeps, and which handlers of it stand in the multicasts. -/
namespace Jancy.Rtl

namespace Reactor

variable {Ev : Type} {x y z : Reactor Ev}

/-- The bindings of `x` are there in `y`. -/
def Keeps (x y : Reactor Ev) : Prop :=
  ∀ b binding, x.bindings b = some binding → ∃ binding', y.bindings b = some binding' ∧
    binding'.event = binding.event ∧ binding'.kind = binding.kind

theorem Keeps.refl (x : Reactor Ev) : Keeps x x := fun _ binding hb => ⟨binding,hb,rfl,rfl⟩

theorem Keeps.trans (h : Keeps x y) (h' : Keeps y z) : Keeps x z := by
  intro b binding hb
  obtain ⟨binding',hb',hev,hkind⟩ := h b binding hb
  obtain ⟨binding'',hb'',hev',hkind'⟩ := h' b binding' hb'
  exact ⟨binding'',hb'',hev'.trans hev,hkind'.trans hkind⟩

theorem Keeps.of_eq (h : y.bindings = x.bindings) : Keeps x y := by
  intro b binding hb
  rw [← h] at hb
  exact ⟨binding,hb,rfl,rfl⟩

theorem activateReaction_keeps (x : Reactor Ev) (r : ℕ) : Keeps x (x.activateReaction r).2 := by
  unfold activateReaction
  split
  · exact .refl x
  · intro b binding hb
    obtain ⟨binding',hb',hev,hkind,_⟩ := (activate_spec x r).binding_of hb
    exact ⟨binding',hb',hev,hkind⟩

theorem foldl_activateReaction_keeps (l : List ℕ) (x : Reactor Ev) :
    Keeps x (l.foldl (fun x i => (x.activateReaction i).2) x) := by
  induction l generalizing x with
  | nil => exact .refl x
  | cons i l ih => exact (activateReaction_keeps x i).trans (ih _)

def Unused (x : Reactor Ev) : Prop := ∀ b, x.nextBinding ≤ b → x.bindings b = none

/-- The bindings of `x` are there in `y`, and none lost its last reaction. -/
structure Grows (x y : Reactor Ev) : Prop where
  unused : Unused x → Unused y
  bindings : Unused x → ∀ b binding, x.bindings b = some binding → ∃ binding',
    y.bindings b = some binding' ∧ binding'.event = binding.event ∧
      binding'.kind = binding.kind ∧ (binding.reactionMap ≠ [] → binding'.reactionMap ≠ [])
  activeBindings : y.activeBindings = x.activeBindings

theorem Grows.refl (x : Reactor Ev) : Grows x x :=
  ⟨id,fun _ _ binding hb => ⟨binding,hb,rfl,rfl,id⟩,rfl⟩

theorem Grows.trans (h : Grows x y) (h' : Grows y z) : Grows x z := by
  constructor
  · exact fun hx => h'.unused (h.unused hx)
  · intro hx b binding hb
    obtain ⟨binding',hb',hev,hkind,hmap⟩ := h.bindings hx b binding hb
    obtain ⟨binding'',hb'',hev',hkind',hmap'⟩ := h'.bindings (h.unused hx) b binding' hb'
    exact ⟨binding'',hb'',hev'.trans hev,hkind'.trans hkind,fun hne => hmap' (hmap hne)⟩
  · exact h'.activeBindings.trans h.activeBindings

theorem Grows.foldl {β : Type} {f : Reactor Ev → β → Reactor Ev} (hf : ∀ x c, Grows x (f x c))
    (l : List β) (x : Reactor Ev) : Grows x (l.foldl f x) := by
  induction l generalizing x with
  | nil => exact .refl x
  | cons c l ih => exact (hf x c).trans (ih (f x c))

theorem appendBinding_grows (x : Reactor Ev) (r b : ℕ) : Grows x (x.appendBinding r b) :=
  ⟨id,fun _ _ binding hb => ⟨binding,hb,rfl,rfl,id⟩,rfl⟩

theorem subscribe_grows (x : Reactor Ev) (event : Ev) (kind : BindingKind) :
    Grows x (x.subscribe event kind).2 := by
  constructor
  · intro hx b hle
    have hlt : x.nextBinding < b := hle
    show Function.update x.bindings x.nextBinding _ b = none
    rw [Function.update_of_ne (Nat.ne_of_gt hlt)]
    exact hx b (Nat.le_of_lt hlt)
  · intro hx b binding hb
    have hne : b ≠ x.nextBinding := by
      rintro rfl
      rw [hx _ (Nat.le_refl _)] at hb
      cases hb
    refine ⟨binding,?_,rfl,rfl,id⟩
    show Function.update x.bindings x.nextBinding _ b = some binding
    rw [Function.update_of_ne hne]
    exact hb
  · rfl

theorem setBinding_grows {b : ℕ} {binding new : Binding Ev} (hb : x.bindings b = some binding)
    (hev : new.event = binding.event) (hkind : new.kind = binding.kind)
    (hmap : binding.reactionMap ≠ [] → new.reactionMap ≠ []) : Grows x (x.setBinding b new) := by
  constructor
  · intro hx c hle
    have hne : c ≠ b := by
      rintro rfl
      rw [hx _ hle] at hb
      cases hb
    show Function.update x.bindings b _ c = none
    rw [Function.update_of_ne hne]
    exact hx c hle
  · intro _ c binding' hc
    by_cases hcb : c = b
    · subst hcb
      cases hb.symm.trans hc
      exact ⟨new,Function.update_self _ _ _,hev,hkind,hmap⟩
    · refine ⟨binding',?_,rfl,rfl,id⟩
      show Function.update x.bindings b _ c = some binding'
      rw [Function.update_of_ne hcb]
      exact hc
  · rfl

variable [DecidableEq Ev]

theorem visitBinding_grows (x : Reactor Ev) (ev : Ev) : Grows x (x.visitBinding ev).2 := by
  unfold visitBinding
  split
  · exact .refl x
  · have h := subscribe_grows x ev .onChanged
    exact ⟨h.unused,h.bindings,h.activeBindings⟩

theorem bindOnChanged_grows_visit (x : Reactor Ev) (pending : ℕ × Ev) :
    Grows (x.visitBinding pending.2).2 (x.bindOnChanged pending) := by
  unfold bindOnChanged
  dsimp only
  split
  · exact .refl _
  · rename_i binding hb
    split
    · exact .refl _
    · refine Grows.trans (setBinding_grows hb ?_ ?_ ?_) (appendBinding_grows _ _ _)
      · rfl
      · rfl
      · exact fun _ => List.cons_ne_nil _ _

theorem bindOnChanged_grows (x : Reactor Ev) (pending : ℕ × Ev) :
    Grows x (x.bindOnChanged pending) :=
  (visitBinding_grows x pending.2).trans (bindOnChanged_grows_visit x pending)

omit [DecidableEq Ev] in
theorem bindOnEvent_grows_subscribe (x : Reactor Ev) (pending : ℕ × Ev) :
    Grows (x.subscribe pending.2 .onEvent).2 (x.bindOnEvent pending) :=
  appendBinding_grows _ _ _

omit [DecidableEq Ev] in
theorem bindOnEvent_grows (x : Reactor Ev) (pending : ℕ × Ev) : Grows x (x.bindOnEvent pending) :=
  (subscribe_grows x pending.2 .onEvent).trans (bindOnEvent_grows_subscribe x pending)

theorem releaseBinding_bindings (x : Reactor Ev) (b c : ℕ) :
    (x.releaseBinding b).bindings c =
      if c = b then (x.bindings b).bind fun binding =>
        if binding.reactionMap ≠ [] then some { binding with active := false } else none
      else x.bindings c := by
  unfold releaseBinding
  cases hb : x.bindings b with
  | none =>
    by_cases hc : c = b
    · subst hc
      simp [hb]
    · simp [hc]
  | some binding =>
    dsimp only
    split
    · rename_i hne
      show Function.update x.bindings b _ c = _
      by_cases hc : c = b
      · subst hc
        simp [hne]
      · simp [hc]
    · rename_i hnil
      show Function.update x.bindings b none c = _
      by_cases hc : c = b
      · subst hc
        simp [hnil]
      · simp [hc]

theorem releaseBinding_nextBinding (x : Reactor Ev) (b : ℕ) :
    (x.releaseBinding b).nextBinding = x.nextBinding := by
  unfold releaseBinding
  split
  · rfl
  · split <;> rfl

theorem foldl_releaseBinding_keeps (l : List ℕ) {b : ℕ} {binding : Binding Ev}
    (hb : x.bindings b = some binding) (hstays : b ∈ l → binding.reactionMap ≠ []) :
    ∃ binding', (l.foldl releaseBinding x).bindings b = some binding' ∧
      binding'.event = binding.event ∧ binding'.kind = binding.kind := by
  induction l generalizing x binding with
  | nil => exact ⟨binding,hb,rfl,rfl⟩
  | cons c l ih =>
    by_cases hbc : b = c
    · subst hbc
      have hne := hstays List.mem_cons_self
      have hkept : (x.releaseBinding b).bindings b = some { binding with active := false } := by
        rw [releaseBinding_bindings,if_pos rfl,hb,Option.bind_some,if_pos hne]
      obtain ⟨binding',hb',hev,hkind⟩ := ih hkept fun _ => hne
      exact ⟨binding',hb',hev,hkind⟩
    · have hkept : (x.releaseBinding c).bindings b = some binding := by
        rw [releaseBinding_bindings,if_neg hbc]
        exact hb
      exact ih hkept fun hmem => hstays (List.mem_cons_of_mem c hmem)

omit [DecidableEq Ev] in
theorem foldl_releaseReaction_bindings (l : List ℕ) (x : Reactor Ev) :
    (l.foldl releaseReaction x).bindings = x.bindings ∧
      (l.foldl releaseReaction x).nextBinding = x.nextBinding := by
  induction l generalizing x with
  | nil => exact ⟨rfl,rfl⟩
  | cons r l ih => exact ih (x.releaseReaction r)

/-- The end of a start or a loop keeps the bindings that do not go. -/
theorem processPendingBindings_keeps {reads : ℕ → List Ev} (hwired : Wired x reads) {b : ℕ}
    {binding : Binding Ev} (hb : x.bindings b = some binding) (hkind : binding.kind = .onChanged)
    (hstays : Reactors.goes x b = false) :
    ∃ binding', x.processPendingBindings.bindings b = some binding' ∧
      binding'.event = binding.event ∧ binding'.kind = binding.kind := by
  obtain ⟨hchanged,hbounds⟩ := foldl_bindOnChanged x.pendingOnChangedBindings hwired (fun _ => id)
  let x₁ := x.pendingOnChangedBindings.foldl bindOnChanged x
  let x₂ := x₁.pendingOnEventBindings.foldl bindOnEvent x₁
  have h₁ : Grows x x₁ := .foldl bindOnChanged_grows _ x
  have h₂ : Grows x₁ x₂ := .foldl bindOnEvent_grows _ x₁
  obtain ⟨binding₁,hb₁,hev₁,hkind₁,hmap₁⟩ := h₁.bindings hwired.unused b binding hb
  obtain ⟨binding₂,hb₂,hev₂,hkind₂,hmap₂⟩ := h₂.bindings (h₁.unused hwired.unused) b binding₁ hb₁
  have hactive : x₂.activeBindings = x.activeBindings :=
    h₂.activeBindings.trans h₁.activeBindings
  have hreactions : b ∈ x₂.activeBindings → binding₂.reactionMap ≠ [] := by
    intro hmem
    apply hmap₂
    rw [hactive] at hmem
    by_cases hnil : binding.reactionMap = []
    · have hread : ∃ p ∈ x.pendingOnChangedBindings, p.2 = binding.event := by
        by_contra hnone
        have hgoes : Reactors.goes x b = true := by
          simp only [Reactors.goes,hb,Bool.and_eq_true,List.contains_iff_mem,List.isEmpty_iff,
            List.all_eq_true,decide_eq_true_eq]
          exact ⟨hmem,hnil,fun p hp hev => hnone ⟨p,hp,hev⟩⟩
        rw [hgoes] at hstays
        cases hstays
      obtain ⟨p,hp,hev⟩ := hread
      obtain ⟨c,found,hc,hfound,hbit⟩ := hbounds p hp
      -- There is just one `onchanged` binding for an event.
      have hlisted := (hchanged.wired hwired).listed b binding₁ hb₁ (hkind₁.trans hkind)
      rw [hev₁,← hev] at hlisted
      cases hc.symm.trans hlisted
      cases hfound.symm.trans hb₁
      exact List.ne_nil_of_mem hbit
    · exact hmap₁ hnil
  obtain ⟨binding₃,hb₃,hev₃,hkind₃⟩ := foldl_releaseBinding_keeps x₂.activeBindings hb₂ hreactions
  refine ⟨binding₃,?_,hev₃.trans (hev₂.trans hev₁),hkind₃.trans (hkind₂.trans hkind₁)⟩
  show ((x₂.activeBindings.foldl releaseBinding x₂).activeReactions.foldl releaseReaction
    (x₂.activeBindings.foldl releaseBinding x₂)).bindings b = some binding₃
  rw [(foldl_releaseReaction_bindings _ _).1]
  exact hb₃

end Reactor

namespace Wires

open Reactor

variable {Ev : Type} [DecidableEq Ev] {w : Wires Ev} {k : ℕ}

theorem mem_addHandler {handlers : Ev → List EventHandler} {event ev : Ev} {h h' : EventHandler} :
    h' ∈ addHandler handlers event h ev ↔ h' ∈ handlers ev ∨ (ev = event ∧ h' = h) := by
  unfold addHandler
  by_cases hev : ev = event
  · subst hev
    simp
  · simp [hev]

theorem mem_removeHandler {handlers : Ev → List EventHandler} {event ev : Ev}
    {h h' : EventHandler} :
    h' ∈ removeHandler handlers event h ev ↔ h' ∈ handlers ev ∧ ¬ (ev = event ∧ h' = h) := by
  unfold removeHandler
  by_cases hev : ev = event
  · subst hev
    simp
  · simp [hev]

/-- The handlers of reactor `k` are those of its bindings. -/
structure Handled (k : ℕ) (w : Wires Ev) : Prop where
  unused : Unused w.reactor
  handlers : ∀ ev, ∀ h ∈ w.handlers ev, h.reactor = k → ∃ binding,
    w.reactor.bindings h.binding = some binding ∧ binding.event = ev ∧ binding.kind = h.kind

/-- The handlers of other reactors are not touched. -/
def SameForeign (k : ℕ) (handlers handlers' : Ev → List EventHandler) : Prop :=
  ∀ ev, ∀ h ∈ handlers' ev, h.reactor ≠ k → h ∈ handlers ev

omit [DecidableEq Ev] in
theorem SameForeign.trans {handlers handlers' handlers'' : Ev → List EventHandler}
    (h : SameForeign k handlers handlers') (h' : SameForeign k handlers' handlers'') :
    SameForeign k handlers handlers'' :=
  fun ev g hg hne => h ev g (h' ev g hg hne) hne

theorem addHandler_sameForeign (handlers : Ev → List EventHandler) (event : Ev)
    (b : ℕ) (kind : BindingKind) :
    SameForeign k handlers (addHandler handlers event ⟨k,b,kind⟩) := by
  intro ev h hmem hne
  rcases mem_addHandler.mp hmem with hold | ⟨_,rfl⟩
  · exact hold
  · exact absurd rfl hne

omit [DecidableEq Ev] in
theorem Handled.of_grows {w' : Wires Ev} (h : Handled k w)
    (hgrows : Grows w.reactor w'.reactor)
    (hnew : ∀ ev, ∀ g ∈ w'.handlers ev, g ∈ w.handlers ev ∨ ∃ binding,
      w'.reactor.bindings g.binding = some binding ∧ binding.event = ev ∧
        binding.kind = g.kind) : Handled k w' := by
  constructor
  · exact hgrows.unused h.unused
  · intro ev g hg hk
    rcases hnew ev g hg with hold | hfound
    · obtain ⟨binding,hb,hev,hkind⟩ := h.handlers ev g hold hk
      obtain ⟨binding',hb',hev',hkind',_⟩ := hgrows.bindings h.unused _ binding hb
      exact ⟨binding',hb',hev'.trans hev,hkind'.trans hkind⟩
    · exact hfound

theorem bindOnChanged_handled (h : Handled k w) (pending : ℕ × Ev) :
    Handled k (w.bindOnChanged k pending) := by
  apply h.of_grows (bindOnChanged_grows w.reactor pending)
  intro ev g hg
  simp only [bindOnChanged] at hg
  split at hg
  · rename_i hmap
    rcases mem_addHandler.mp hg with hold | ⟨rfl,rfl⟩
    · exact .inl hold
    · have hvisit : (w.reactor.visitBinding pending.2).2.bindings w.reactor.nextBinding =
          some { event := pending.2, kind := .onChanged } := by
        simp only [visitBinding,hmap]
        exact Function.update_self _ _ _
      obtain ⟨binding,hb,hev,hkind,_⟩ := (bindOnChanged_grows_visit w.reactor pending).bindings
        ((visitBinding_grows w.reactor pending.2).unused h.unused) _ _ hvisit
      exact .inr ⟨binding,hb,hev,hkind⟩
  · exact .inl hg

theorem bindOnEvent_handled (h : Handled k w) (pending : ℕ × Ev) :
    Handled k (w.bindOnEvent k pending) := by
  apply h.of_grows (bindOnEvent_grows w.reactor pending)
  intro ev g hg
  rcases mem_addHandler.mp hg with hold | ⟨rfl,rfl⟩
  · exact .inl hold
  · exact .inr ⟨_,Function.update_self _ _ _,rfl,rfl⟩

theorem releaseBinding_subset (w : Wires Ev) (b : ℕ) {ev : Ev} {g : EventHandler}
    (hg : g ∈ (w.releaseBinding k b).handlers ev) : g ∈ w.handlers ev := by
  cases hb : w.reactor.bindings b with
  | none =>
    simp only [releaseBinding,hb] at hg
    exact hg
  | some binding =>
    by_cases hne : binding.reactionMap ≠ []
    · simp only [releaseBinding,hb,if_pos hne] at hg
      exact hg
    · simp only [releaseBinding,hb,if_neg hne] at hg
      exact (mem_removeHandler.mp hg).1

theorem releaseBinding_handled (h : Handled k w) (b : ℕ) : Handled k (w.releaseBinding k b) := by
  constructor
  · intro c hle
    have hle' : w.reactor.nextBinding ≤ c := by
      rw [← releaseBinding_nextBinding w.reactor b]
      exact hle
    show (w.reactor.releaseBinding b).bindings c = none
    have hc := h.unused c hle'
    rw [releaseBinding_bindings]
    split
    · rename_i hcb
      rw [← hcb,hc,Option.bind_none]
    · exact hc
  · intro ev g hg hk
    have hmem : g ∈ w.handlers ev := releaseBinding_subset w b hg
    obtain ⟨binding,hb,hev,hkind⟩ := h.handlers ev g hmem hk
    by_cases hgb : g.binding = b
    · subst hgb
      have hne : binding.reactionMap ≠ [] := by
        intro hnil
        simp only [releaseBinding,hb,hnil,ne_eq,not_true,if_false] at hg
        apply (mem_removeHandler.mp hg).2
        refine ⟨hev.symm,?_⟩
        rw [← hk,hkind]
      refine ⟨{ binding with active := false },?_,hev,hkind⟩
      show (w.reactor.releaseBinding g.binding).bindings g.binding = _
      rw [releaseBinding_bindings,if_pos rfl,hb,Option.bind_some,if_pos hne]
    · refine ⟨binding,?_,hev,hkind⟩
      show (w.reactor.releaseBinding b).bindings g.binding = _
      rw [releaseBinding_bindings,if_neg hgb]
      exact hb

omit [DecidableEq Ev] in
theorem foldl_handled {β : Type} {f : Wires Ev → β → Wires Ev}
    (hf : ∀ w c, Handled k w → Handled k (f w c)) (l : List β) (h : Handled k w) :
    Handled k (l.foldl f w) := by
  induction l generalizing w with
  | nil => exact h
  | cons c l ih => exact ih (hf w c h)

omit [DecidableEq Ev] in
theorem foldl_sameForeign {β : Type} {f : Wires Ev → β → Wires Ev}
    (hf : ∀ w c, SameForeign k w.handlers (f w c).handlers) (l : List β) (w : Wires Ev) :
    SameForeign k w.handlers (l.foldl f w).handlers := by
  induction l generalizing w with
  | nil => exact fun _ _ hg _ => hg
  | cons c l ih => exact (hf w c).trans (ih (f w c))

omit [DecidableEq Ev] in
theorem foldl_reactor {β : Type} {f : Wires Ev → β → Wires Ev} {g : Reactor Ev → β → Reactor Ev}
    (hf : ∀ w c, (f w c).reactor = g w.reactor c) (l : List β) (w : Wires Ev) :
    (l.foldl f w).reactor = l.foldl g w.reactor := by
  induction l generalizing w with
  | nil => rfl
  | cons c l ih =>
    rw [List.foldl_cons,List.foldl_cons,ih,hf]

theorem processPendingBindings_handled (h : Handled k w) :
    Handled k (w.processPendingBindings k) := by
  let w₁ := w.reactor.pendingOnChangedBindings.foldl (bindOnChanged k) w
  let w₂ := w₁.reactor.pendingOnEventBindings.foldl (bindOnEvent k) w₁
  let w₃ := w₂.reactor.activeBindings.foldl (releaseBinding k) w₂
  have h₁ : Handled k w₁ := foldl_handled (fun w c hw => bindOnChanged_handled hw c) _ h
  have h₂ : Handled k w₂ := foldl_handled (fun w c hw => bindOnEvent_handled hw c) _ h₁
  have h₃ : Handled k w₃ := foldl_handled (fun w c hw => releaseBinding_handled hw c) _ h₂
  let x₁ := w.reactor.pendingOnChangedBindings.foldl Reactor.bindOnChanged w.reactor
  let x₂ := x₁.pendingOnEventBindings.foldl Reactor.bindOnEvent x₁
  have hr₁ : w₁.reactor = x₁ := foldl_reactor (fun _ _ => rfl) _ w
  have hr₂ : w₂.reactor = x₂ := by
    have hfold : w₂.reactor = w₁.reactor.pendingOnEventBindings.foldl Reactor.bindOnEvent
      w₁.reactor := foldl_reactor (fun _ _ => rfl) _ w₁
    rw [hfold,hr₁]
  have hr₃ : w₃.reactor = x₂.activeBindings.foldl Reactor.releaseBinding x₂ := by
    have hfold : w₃.reactor = w₂.reactor.activeBindings.foldl Reactor.releaseBinding
      w₂.reactor := foldl_reactor (fun _ _ => rfl) _ w₂
    rw [hfold,hr₂]
  have hbindings := foldl_releaseReaction_bindings w₃.reactor.activeReactions w₃.reactor
  have hprocessed : (w.processPendingBindings k).reactor.bindings = w₃.reactor.bindings ∧
      (w.processPendingBindings k).reactor.nextBinding = w₃.reactor.nextBinding := by
    rw [hr₃] at hbindings ⊢
    exact hbindings
  constructor
  · intro b hle
    rw [hprocessed.2] at hle
    rw [hprocessed.1]
    exact h₃.unused b hle
  · rw [hprocessed.1]
    exact h₃.handlers

theorem processPendingBindings_sameForeign (k : ℕ) (w : Wires Ev) :
    SameForeign k w.handlers (w.processPendingBindings k).handlers := by
  let w₁ := w.reactor.pendingOnChangedBindings.foldl (bindOnChanged k) w
  let w₂ := w₁.reactor.pendingOnEventBindings.foldl (bindOnEvent k) w₁
  have h₁ : SameForeign k w.handlers w₁.handlers := by
    apply foldl_sameForeign
    intro w c
    simp only [bindOnChanged]
    split
    · exact addHandler_sameForeign _ _ _ _
    · exact fun _ _ hg _ => hg
  have h₂ : SameForeign k w₁.handlers w₂.handlers :=
    foldl_sameForeign (fun w c => addHandler_sameForeign _ _ _ _) _ w₁
  have h₃ : SameForeign k w₂.handlers (w.processPendingBindings k).handlers := by
    apply foldl_sameForeign
    exact fun w c ev g hg _ => releaseBinding_subset w c hg
  exact (h₁.trans h₂).trans h₃

theorem stop_handlers (h : Handled k w) (hstate : w.reactor.state ≠ .stopped) (ev : Ev) :
    ∀ g ∈ (w.stop k).handlers ev, g.reactor ≠ k ∧ g ∈ w.handlers ev := by
  have hfold : ∀ (l : List ℕ) (handlers : Ev → List EventHandler) (g : EventHandler),
      g ∈ l.foldl (w.dropHandler k) handlers ev → g ∈ handlers ev ∧
        ∀ b ∈ l, ∀ binding, w.reactor.bindings b = some binding →
          ¬ (ev = binding.event ∧ g = ⟨k,b,binding.kind⟩) := by
    intro l
    induction l with
    | nil => exact fun handlers g hg => ⟨hg,by nofun⟩
    | cons c l ih =>
      intro handlers g hg
      obtain ⟨hmem,hrest⟩ := ih _ g hg
      have hboth : g ∈ handlers ev ∧ ∀ binding, w.reactor.bindings c = some binding →
          ¬ (ev = binding.event ∧ g = ⟨k,c,binding.kind⟩) := by
        unfold dropHandler at hmem
        cases hc : w.reactor.bindings c with
        | none =>
          rw [hc] at hmem
          exact ⟨hmem,by nofun⟩
        | some binding =>
          rw [hc] at hmem
          obtain ⟨hold,hnot⟩ := mem_removeHandler.mp hmem
          refine ⟨hold,?_⟩
          intro found hfound
          cases hfound
          exact hnot
      refine ⟨hboth.1,?_⟩
      intro b hb
      rcases List.mem_cons.mp hb with rfl | hb
      · exact hboth.2
      · exact hrest b hb
  intro g hg
  simp only [stop,if_neg hstate] at hg
  obtain ⟨hmem,hnone⟩ := hfold _ _ g hg
  refine ⟨?_,hmem⟩
  intro hk
  obtain ⟨binding,hb,hev,hkind⟩ := h.handlers ev g hmem hk
  have hlt : g.binding < w.reactor.nextBinding := by
    by_contra hnot
    rw [h.unused _ (Nat.le_of_not_lt hnot)] at hb
    cases hb
  apply hnone g.binding (List.mem_range.mpr hlt) binding hb
  refine ⟨hev.symm,?_⟩
  rw [← hk,hkind]

end Wires
end Jancy.Rtl
