import Jancy.Rtl.Reactor

/-! What the functions of a reactor do to its wiring: bit maps, binding arrays and the binding map,
next to the record of what the reactions read. -/
namespace Jancy.Rtl.Reactor

variable {Ev : Type} {x y : Reactor Ev} {reads : ℕ → List Ev} {r b : ℕ} {ev : Ev}

/-- A change of `ev` would mark reaction `r`. -/
def Bound (x : Reactor Ev) (r : ℕ) (ev : Ev) : Prop :=
  ∃ b binding, x.bindingMap ev = some b ∧ x.bindings b = some binding ∧
    r ∈ binding.reactionMap

/-- What holds at any time: bindings stand in the map just under their events, a reaction is bound
to all that it read, and the bindings in its array have its bit. -/
structure Wired (x : Reactor Ev) (reads : ℕ → List Ev) : Prop where
  unused : ∀ b, x.nextBinding ≤ b → x.bindings b = none
  bounded : ∀ r, ∀ b ∈ (x.reactions r).bindingArray, b < x.nextBinding
  arrays : ∀ r, ∀ b ∈ (x.reactions r).bindingArray, ∀ binding,
    x.bindings b = some binding → binding.kind = .onChanged → r ∈ binding.reactionMap
  mapped : ∀ ev b, x.bindingMap ev = some b → ∃ binding, x.bindings b = some binding ∧
    binding.event = ev ∧ binding.kind = .onChanged
  listed : ∀ b binding, x.bindings b = some binding → binding.kind = .onChanged →
    x.bindingMap binding.event = some b
  onEvent : ∀ b binding, x.bindings b = some binding → binding.kind = .onEvent →
    binding.reactionMap = []
  complete : ∀ r, ∀ ev ∈ reads r, (r,ev) ∈ x.pendingOnChangedBindings ∨ x.Bound r ev
  recorded : ∀ r ev, (r,ev) ∈ x.pendingOnChangedBindings → ev ∈ reads r

/-- What holds besides where no binding is shared among active reactions: the bits are those of the
arrays, and a reaction is bound to nothing but what it read. -/
structure Exact (x : Reactor Ev) (reads : ℕ → List Ev) : Prop where
  arrays : ∀ b binding r, x.bindings b = some binding → r ∈ binding.reactionMap →
    b ∈ (x.reactions r).bindingArray
  read : ∀ b binding r, x.bindings b = some binding → r ∈ binding.reactionMap →
    binding.event ∈ reads r

/-- None of the `onchanged` bindings of the reaction is active already. -/
def isFresh (x : Reactor Ev) (reactionIdx : ℕ) : Bool :=
  (x.reactions reactionIdx).active ||
    (x.reactions reactionIdx).bindingArray.all fun b =>
      (x.bindings b).all fun binding => !binding.active || binding.kind = .onEvent

variable [DecidableEq Ev]

def activatedBinding (reactionIdx : ℕ) (binding : Binding Ev) : Binding Ev :=
  if binding.active then binding
  else { binding with
    reactionMap := binding.reactionMap.filter (· ≠ reactionIdx), active := true }

omit [DecidableEq Ev] in
theorem activatedBinding_twice (r : ℕ) (binding : Binding Ev) :
    activatedBinding r (activatedBinding r binding) = activatedBinding r binding := by
  cases hactive : binding.active with
  | true => simp [activatedBinding,hactive]
  | false => simp [activatedBinding,hactive]

omit [DecidableEq Ev] in
theorem activateBinding_bindings (r : ℕ) (x : Reactor Ev) (b c : ℕ) :
    (activateBinding r x b).bindings c =
      if c = b then (x.bindings c).map (activatedBinding r) else x.bindings c := by
  unfold activateBinding
  by_cases hc : c = b
  · subst hc
    rw [if_pos rfl]
    cases hb : x.bindings c with
    | none => exact hb
    | some binding =>
      cases hactive : binding.active with
      | true => simp [activatedBinding,hactive,hb]
      | false => simp [activatedBinding,hactive]
  · rw [if_neg hc]
    split
    · rfl
    · split
      · rfl
      · exact Function.update_of_ne hc _ _

omit [DecidableEq Ev] in
theorem foldl_activateBinding (r : ℕ) (l : List ℕ) (x : Reactor Ev) (c : ℕ) :
    (l.foldl (activateBinding r) x).bindings c =
      if c ∈ l then (x.bindings c).map (activatedBinding r) else x.bindings c := by
  induction l generalizing x with
  | nil => simp
  | cons b l ih =>
    rw [List.foldl_cons,ih,activateBinding_bindings]
    by_cases hc : c = b
    · subst hc
      rw [if_pos rfl,if_pos List.mem_cons_self]
      split
      · rw [Option.map_map]
        congr 1
        funext binding
        exact activatedBinding_twice r binding
      · rfl
    · rw [if_neg hc]
      simp only [List.mem_cons,hc,false_or]

omit [DecidableEq Ev] in
theorem foldl_activateBinding_frame (r : ℕ) (l : List ℕ) (x : Reactor Ev) :
    let y := l.foldl (activateBinding r) x
    y.state = x.state ∧ y.reactions = x.reactions ∧
      y.pendingReactionMap = x.pendingReactionMap ∧
      y.pendingOnChangedBindings = x.pendingOnChangedBindings ∧
      y.pendingOnEventBindings = x.pendingOnEventBindings ∧ y.nextBinding = x.nextBinding ∧
      y.bindingMap = x.bindingMap ∧ y.activeReactions = x.activeReactions := by
  induction l generalizing x with
  | nil => exact ⟨rfl,rfl,rfl,rfl,rfl,rfl,rfl,rfl⟩
  | cons b l ih =>
    have hstep := ih (activateBinding r x b)
    rw [List.foldl_cons]
    suffices h : (activateBinding r x b).state = x.state ∧
        (activateBinding r x b).reactions = x.reactions ∧
        (activateBinding r x b).pendingReactionMap = x.pendingReactionMap ∧
        (activateBinding r x b).pendingOnChangedBindings = x.pendingOnChangedBindings ∧
        (activateBinding r x b).pendingOnEventBindings = x.pendingOnEventBindings ∧
        (activateBinding r x b).nextBinding = x.nextBinding ∧
        (activateBinding r x b).bindingMap = x.bindingMap ∧
        (activateBinding r x b).activeReactions = x.activeReactions by
      obtain ⟨h₁,h₂,h₃,h₄,h₅,h₆,h₇,h₈⟩ := h
      rwa [h₁,h₂,h₃,h₄,h₅,h₆,h₇,h₈] at hstep
    unfold activateBinding
    split
    · exact ⟨rfl,rfl,rfl,rfl,rfl,rfl,rfl,rfl⟩
    · split <;> exact ⟨rfl,rfl,rfl,rfl,rfl,rfl,rfl,rfl⟩

/-- What an activation does. -/
structure Activated (x : Reactor Ev) (r : ℕ) (y : Reactor Ev) : Prop where
  state : y.state = x.state
  reactions : y.reactions = Function.update x.reactions r { active := true }
  pendingReactionMap : y.pendingReactionMap = x.pendingReactionMap
  pendingOnChanged : y.pendingOnChangedBindings = x.pendingOnChangedBindings
  pendingOnEvent : y.pendingOnEventBindings = x.pendingOnEventBindings
  nextBinding : y.nextBinding = x.nextBinding
  bindingMap : y.bindingMap = x.bindingMap
  bindings : ∀ b, y.bindings b =
    if b ∈ (x.reactions r).bindingArray then (x.bindings b).map (activatedBinding r)
    else x.bindings b

omit [DecidableEq Ev] in
theorem activate_spec (x : Reactor Ev) (r : ℕ) : Activated x r (x.activate r) := by
  obtain ⟨hstate,hreactions,hpending,honChanged,honEvent,hnext,hmap,_⟩ :=
    foldl_activateBinding_frame r (x.reactions r).bindingArray x
  constructor
  · exact hstate
  · exact congrArg (Function.update · r _) hreactions
  · exact hpending
  · exact honChanged
  · exact honEvent
  · exact hnext
  · exact hmap
  · exact foldl_activateBinding r _ x

section Activation

omit [DecidableEq Ev]

section

variable (h : Activated x r y)

include h

theorem Activated.array (i : ℕ) :
    (y.reactions i).bindingArray = if i = r then [] else (x.reactions i).bindingArray := by
  rw [h.reactions]
  by_cases hi : i = r
  · rw [if_pos hi,hi,Function.update_self]
  · rw [if_neg hi,Function.update_of_ne hi]

theorem Activated.binding_inv {binding : Binding Ev} (hb : y.bindings b = some binding) :
    ∃ old, x.bindings b = some old ∧
      binding.event = old.event ∧ binding.kind = old.kind ∧
      ∀ i, i ∈ binding.reactionMap ↔ i ∈ old.reactionMap ∧
        ¬ (i = r ∧ b ∈ (x.reactions r).bindingArray ∧ old.active = false) := by
  rw [h.bindings] at hb
  split at hb
  · rename_i hmem
    obtain ⟨old,hold,rfl⟩ := Option.map_eq_some_iff.mp hb
    refine ⟨old,hold,?_⟩
    unfold activatedBinding
    split
    · rename_i hactive
      exact ⟨rfl,rfl,fun i => by simp [hactive]⟩
    · rename_i hactive
      exact ⟨rfl,rfl,fun i => by simp [hactive,hmem]⟩
  · rename_i hmem
    exact ⟨binding,hb,rfl,rfl,fun i => by simp [hmem]⟩

theorem Activated.binding_of {old : Binding Ev} (hb : x.bindings b = some old) :
    ∃ binding, y.bindings b = some binding ∧
      binding.event = old.event ∧ binding.kind = old.kind ∧
      ∀ i ∈ old.reactionMap, i ≠ r → i ∈ binding.reactionMap := by
  have hy := h.bindings b
  rw [hb] at hy
  split at hy
  · refine ⟨_,hy,?_⟩
    unfold activatedBinding
    split
    · exact ⟨rfl,rfl,fun i hi _ => hi⟩
    · exact ⟨rfl,rfl,fun i hi hne => by simp [hi,hne]⟩
  · exact ⟨old,hy,rfl,rfl,fun i hi _ => hi⟩

theorem Activated.bound {i : ℕ} (hi : i ≠ r) (hb : x.Bound i ev) :
    y.Bound i ev := by
  obtain ⟨b,old,hmap,hold,hmem⟩ := hb
  obtain ⟨binding,hbinding,_,_,hkeep⟩ := h.binding_of hold
  exact ⟨b,binding,by rw [h.bindingMap]; exact hmap,hbinding,hkeep i hmem hi⟩

/-- What a reaction read is forgotten when it is activated, but for the current start or loop. -/
theorem Activated.wired (hx : Wired x reads) :
    Wired y (Function.update reads r (ReactorSystem.pendingReads x r)) := by
  have hreads : ∀ ev, ev ∈ ReactorSystem.pendingReads x r ↔
      (r,ev) ∈ x.pendingOnChangedBindings := by
    intro ev
    unfold ReactorSystem.pendingReads
    constructor
    · intro hm
      obtain ⟨⟨i,ev'⟩,hp,rfl⟩ := List.mem_map.mp hm
      obtain ⟨hmem,hi⟩ := List.mem_filter.mp hp
      have hi : i = r := of_decide_eq_true hi
      exact hi ▸ hmem
    · intro hm
      exact List.mem_map.mpr ⟨(r,ev),List.mem_filter.mpr ⟨hm,by simp⟩,rfl⟩
  constructor
  · intro b hle
    rw [h.nextBinding] at hle
    rw [h.bindings,hx.unused b hle]
    split <;> rfl
  · intro i b hb
    rw [h.array] at hb
    rw [h.nextBinding]
    split at hb
    · cases hb
    · exact hx.bounded i b hb
  · intro i b hb binding hbinding hkind
    rw [h.array] at hb
    split at hb
    · cases hb
    · rename_i hi
      obtain ⟨old,hold,_,hk,hmem⟩ := h.binding_inv hbinding
      have hbit := hx.arrays i b hb old hold (hk ▸ hkind)
      exact (hmem i).mpr ⟨hbit,fun hand => hi hand.1⟩
  · intro ev b hb
    rw [h.bindingMap] at hb
    obtain ⟨old,hold,hev,hk⟩ := hx.mapped ev b hb
    obtain ⟨binding,hbinding,hev',hk',_⟩ := h.binding_of hold
    exact ⟨binding,hbinding,hev'.trans hev,hk'.trans hk⟩
  · intro b binding hbinding hkind
    obtain ⟨old,hold,hev,hk,_⟩ := h.binding_inv hbinding
    rw [h.bindingMap,hev]
    exact hx.listed b old hold (hk ▸ hkind)
  · intro b binding hbinding hkind
    obtain ⟨old,hold,_,hk,hmem⟩ := h.binding_inv hbinding
    have hnil := hx.onEvent b old hold (hk ▸ hkind)
    apply List.eq_nil_iff_forall_not_mem.mpr
    intro i hi
    have hold := ((hmem i).mp hi).1
    rw [hnil] at hold
    cases hold
  · intro i ev hev
    rw [h.pendingOnChanged]
    by_cases hi : i = r
    · subst hi
      rw [Function.update_self] at hev
      exact .inl ((hreads ev).mp hev)
    · rw [Function.update_of_ne hi] at hev
      cases hx.complete i ev hev with
      | inl hp => exact .inl hp
      | inr hb => exact .inr (h.bound hi hb)
  · intro i ev hp
    rw [h.pendingOnChanged] at hp
    by_cases hi : i = r
    · subst hi
      rw [Function.update_self]
      exact (hreads ev).mpr hp
    · rw [Function.update_of_ne hi]
      exact hx.recorded i ev hp

theorem Activated.exact (hwired : Wired x reads) (hx : Exact x reads)
    (hidle : (x.reactions r).active = false) (hfresh : x.isFresh r = true) :
    Exact y (Function.update reads r (ReactorSystem.pendingReads x r)) := by
  have hgone : ∀ b binding, y.bindings b = some binding → r ∉ binding.reactionMap := by
    intro b binding hbinding hr
    obtain ⟨old,hold,_,_,hmem⟩ := h.binding_inv hbinding
    obtain ⟨hbit,hkept⟩ := (hmem r).mp hr
    have harray := hx.arrays b old r hold hbit
    have hinactive : old.active = false := by
      simp only [isFresh,hidle,Bool.false_or,List.all_eq_true] at hfresh
      have hb := hfresh b harray
      rw [hold] at hb
      cases hkind : old.kind with
      | onChanged => simpa [hkind] using hb
      | onEvent =>
        rw [hwired.onEvent b old hold hkind] at hbit
        cases hbit
    exact hkept ⟨rfl,harray,hinactive⟩
  constructor
  · intro b binding i hbinding hi
    have hne : i ≠ r := fun heq => hgone b binding hbinding (heq ▸ hi)
    obtain ⟨old,hold,_,_,hmem⟩ := h.binding_inv hbinding
    rw [h.array,if_neg hne]
    exact hx.arrays b old i hold ((hmem i).mp hi).1
  · intro b binding i hbinding hi
    have hne : i ≠ r := fun heq => hgone b binding hbinding (heq ▸ hi)
    obtain ⟨old,hold,hev,_,hmem⟩ := h.binding_inv hbinding
    rw [Function.update_of_ne hne,hev]
    exact hx.read b old i hold ((hmem i).mp hi).1

end

end Activation

/-- The wiring of `y` continues that of `x`. -/
structure Continues (reads : ℕ → List Ev) (x y : Reactor Ev) : Prop where
  state : y.state = x.state
  pendingReactionMap : y.pendingReactionMap = x.pendingReactionMap
  pendingOnChanged : y.pendingOnChangedBindings = x.pendingOnChangedBindings
  pendingOnEvent : y.pendingOnEventBindings = x.pendingOnEventBindings
  wired : Wired x reads → Wired y reads
  exact : Wired x reads → Exact x reads → Exact y reads
  bound : Wired x reads → ∀ r ev, x.Bound r ev → y.Bound r ev

omit [DecidableEq Ev] in
theorem Continues.refl (reads : ℕ → List Ev) (x : Reactor Ev) : Continues reads x x :=
  ⟨rfl,rfl,rfl,rfl,id,fun _ => id,fun _ _ _ => id⟩

omit [DecidableEq Ev] in
theorem Continues.trans {z : Reactor Ev} (h : Continues reads x y) (h' : Continues reads y z) :
    Continues reads x z where
  state := h'.state.trans h.state
  pendingReactionMap := h'.pendingReactionMap.trans h.pendingReactionMap
  pendingOnChanged := h'.pendingOnChanged.trans h.pendingOnChanged
  pendingOnEvent := h'.pendingOnEvent.trans h.pendingOnEvent
  wired hx := h'.wired (h.wired hx)
  exact hx he := h'.exact (h.wired hx) (h.exact hx he)
  bound hx r ev hb := h'.bound (h.wired hx) r ev (h.bound hx r ev hb)

omit [DecidableEq Ev] in
theorem Continues.foldl {β : Type} {f : Reactor Ev → β → Reactor Ev} {l : List β}
    (hf : ∀ x, ∀ c ∈ l, Continues reads x (f x c)) (x : Reactor Ev) :
    Continues reads x (l.foldl f x) := by
  induction l generalizing x with
  | nil => exact .refl reads x
  | cons c l ih =>
    have hhead := hf x c List.mem_cons_self
    have htail := ih (fun x c hc => hf x c (List.mem_cons_of_mem _ hc)) (f x c)
    exact hhead.trans htail

omit [DecidableEq Ev] in

variable {binding : Binding Ev}

omit [DecidableEq Ev] in
theorem Wired.binding_lt (hx : Wired x reads) (h : x.bindings b = some binding) :
    b < x.nextBinding := by
  by_contra hnot
  rw [hx.unused b (Nat.le_of_not_lt hnot)] at h
  cases h

/-- A new binding has no reaction yet. -/
theorem subscribe_continues (reads : ℕ → List Ev) (x : Reactor Ev) (ev : Ev) (kind : BindingKind)
    (hfree : kind = .onChanged → x.bindingMap ev = none) {map : Ev → Option ℕ}
    (hmap : ∀ ev', map ev' =
      if kind = .onChanged ∧ ev' = ev then some x.nextBinding else x.bindingMap ev') :
    Continues reads x { (x.subscribe ev kind).2 with bindingMap := map } := by
  have hnew : ∀ {b binding}, Function.update x.bindings x.nextBinding
      (some { event := ev, kind }) b = some binding →
      (b = x.nextBinding ∧ binding = { event := ev, kind }) ∨ x.bindings b = some binding := by
    intro b binding hb
    by_cases hne : b = x.nextBinding
    · rw [hne,Function.update_self] at hb
      exact .inl ⟨hne,(Option.some.inj hb).symm⟩
    · rw [Function.update_of_ne hne] at hb
      exact .inr hb
  have hold : ∀ {b binding}, Wired x reads → x.bindings b = some binding →
      Function.update x.bindings x.nextBinding (some { event := ev, kind }) b =
        some binding := by
    intro b binding hx hb
    rw [Function.update_of_ne (Nat.ne_of_lt (hx.binding_lt hb)),hb]
  have hkept : ∀ {ev' b}, x.bindingMap ev' = some b → map ev' = some b := by
    intro ev' b hb
    rw [hmap,if_neg]
    · exact hb
    · rintro ⟨hkind,rfl⟩
      rw [hfree hkind] at hb
      cases hb
  have hbound : Wired x reads → ∀ i ev', x.Bound i ev' →
      Bound { (x.subscribe ev kind).2 with bindingMap := map } i ev' := by
    intro hx i ev' hb
    obtain ⟨b,binding,hb,hbinding,hi⟩ := hb
    exact ⟨b,binding,hkept hb,hold hx hbinding,hi⟩
  constructor
  · rfl
  · rfl
  · rfl
  · rfl
  · intro hx
    constructor
    · intro b hle
      have hlt : x.nextBinding < b := hle
      have hb := hx.unused b (Nat.le_of_lt hlt)
      rw [← hb]
      exact Function.update_of_ne (Nat.ne_of_gt hlt) _ _
    · intro i b hb
      have hlt : b < x.nextBinding := hx.bounded i b hb
      exact Nat.lt_succ_of_lt hlt
    · intro i b hb binding hbinding hkind
      have hlt : b < x.nextBinding := hx.bounded i b hb
      cases hnew hbinding with
      | inl hnew => exact absurd hnew.1 (Nat.ne_of_lt hlt)
      | inr hbinding => exact hx.arrays i b hb binding hbinding hkind
    · intro ev' b hb
      have hb : map ev' = some b := hb
      rw [hmap] at hb
      split at hb
      · rename_i hand
        cases hb
        exact ⟨_,Function.update_self _ _ _,hand.2.symm,hand.1⟩
      · obtain ⟨binding,hbinding,hev,hk⟩ := hx.mapped ev' b hb
        exact ⟨binding,hold hx hbinding,hev,hk⟩
    · intro b binding hbinding hkind
      cases hnew hbinding with
      | inl hnew =>
        obtain ⟨rfl,rfl⟩ := hnew
        exact (hmap _).trans (if_pos ⟨hkind,rfl⟩)
      | inr hbinding => exact hkept (hx.listed b binding hbinding hkind)
    · intro b binding hbinding hkind
      cases hnew hbinding with
      | inl hnew => rw [hnew.2]
      | inr hbinding => exact hx.onEvent b binding hbinding hkind
    · intro i ev' hev
      cases hx.complete i ev' hev with
      | inl hp => exact .inl hp
      | inr hb => exact .inr (hbound hx i ev' hb)
    · exact hx.recorded
  · intro hx he
    constructor
    · intro b binding i hbinding hi
      cases hnew hbinding with
      | inl hnew =>
        rw [hnew.2] at hi
        cases hi
      | inr hbinding => exact he.arrays b binding i hbinding hi
    · intro b binding i hbinding hi
      cases hnew hbinding with
      | inl hnew =>
        rw [hnew.2] at hi
        cases hi
      | inr hbinding => exact he.read b binding i hbinding hi
  · exact hbound

omit [DecidableEq Ev] in
theorem appendBinding_array (x : Reactor Ev) (r b i : ℕ) :
    ((x.appendBinding r b).reactions i).bindingArray =
      if i = r then (x.reactions i).bindingArray ++ [b] else (x.reactions i).bindingArray := by
  show (Function.update x.reactions r _ i).bindingArray = _
  by_cases hi : i = r
  · rw [if_pos hi,hi,Function.update_self]
  · rw [if_neg hi,Function.update_of_ne hi]

omit [DecidableEq Ev] in
theorem mem_appendBinding {x : Reactor Ev} {r b i c : ℕ} :
    c ∈ ((x.appendBinding r b).reactions i).bindingArray ↔
      c ∈ (x.reactions i).bindingArray ∨ (i = r ∧ c = b) := by
  rw [appendBinding_array]
  by_cases hi : i = r
  · simp [hi]
  · simp [hi]

omit [DecidableEq Ev] in
theorem appendBinding_continues (reads : ℕ → List Ev) (hb : x.bindings b = some binding)
    (hbit : binding.kind = .onChanged → r ∈ binding.reactionMap) :
    Continues reads x (x.appendBinding r b) := by
  constructor
  · rfl
  · rfl
  · rfl
  · rfl
  · intro hx
    constructor
    · exact hx.unused
    · intro i c hc
      cases mem_appendBinding.mp hc with
      | inl hc => exact hx.bounded i c hc
      | inr hnew =>
        rw [hnew.2]
        exact hx.binding_lt hb
    · intro i c hc binding' hbinding hkind
      have hbinding : x.bindings c = some binding' := hbinding
      cases mem_appendBinding.mp hc with
      | inl hc => exact hx.arrays i c hc binding' hbinding hkind
      | inr hnew =>
        obtain ⟨rfl,rfl⟩ := hnew
        cases hb.symm.trans hbinding
        exact hbit hkind
    · exact hx.mapped
    · exact hx.listed
    · exact hx.onEvent
    · exact hx.complete
    · exact hx.recorded
  · intro hx he
    constructor
    · intro c binding' i hbinding hi
      exact mem_appendBinding.mpr (.inl (he.arrays c binding' i hbinding hi))
    · exact he.read
  · exact fun _ _ _ => id

theorem bindOnEvent_continues (reads : ℕ → List Ev) (x : Reactor Ev) (pending : ℕ × Ev) :
    Continues reads x (x.bindOnEvent pending) := by
  have hsubscribe : Continues reads x (x.subscribe pending.2 .onEvent).2 :=
    subscribe_continues reads x pending.2 .onEvent (by nofun) (by simp)
  have happend : Continues reads (x.subscribe pending.2 .onEvent).2 (x.bindOnEvent pending) :=
    appendBinding_continues reads (Function.update_self _ _ _) (by nofun)
  exact hsubscribe.trans happend

theorem visitBinding_spec (reads : ℕ → List Ev) (x : Reactor Ev) (ev : Ev) :
    Continues reads x (x.visitBinding ev).2 ∧
      (x.visitBinding ev).2.bindingMap ev = some (x.visitBinding ev).1 := by
  unfold visitBinding
  cases hmap : x.bindingMap ev with
  | some b => exact ⟨.refl reads x,hmap⟩
  | none =>
    have hnew : ∀ ev', Function.update x.bindingMap ev (some x.nextBinding) ev' =
        if BindingKind.onChanged = .onChanged ∧ ev' = ev then some x.nextBinding
        else x.bindingMap ev' := by
      intro ev'
      by_cases hev : ev' = ev
      · rw [if_pos ⟨rfl,hev⟩,hev,Function.update_self]
      · rw [if_neg (fun h => hev h.2),Function.update_of_ne hev]
    have hsubscribe := subscribe_continues reads x ev .onChanged (fun _ => hmap) hnew
    exact ⟨hsubscribe,Function.update_self _ _ _⟩

omit [DecidableEq Ev] in
theorem bindReaction_continues (hmap : x.bindingMap ev = some b) (hb : x.bindings b = some binding)
    (hpending : (r,ev) ∈ x.pendingOnChangedBindings) :
    Continues reads x ((x.setBinding b
      { binding with reactionMap := r :: binding.reactionMap }).appendBinding r b) := by
  have hnew : ∀ {c binding'}, Function.update x.bindings b (some { binding with
      reactionMap := r :: binding.reactionMap }) c = some binding' →
      ∃ old, x.bindings c = some old ∧ binding'.event = old.event ∧ binding'.kind = old.kind ∧
        ∀ i, i ∈ binding'.reactionMap ↔ i ∈ old.reactionMap ∨ (i = r ∧ c = b) := by
    intro c binding' hc
    by_cases hne : c = b
    · subst hne
      rw [Function.update_self] at hc
      cases hc
      exact ⟨binding,hb,rfl,rfl,fun i => by simp [or_comm]⟩
    · rw [Function.update_of_ne hne] at hc
      exact ⟨binding',hc,rfl,rfl,fun i => by simp [hne]⟩
  have hold : ∀ {c old}, x.bindings c = some old → ∃ binding',
      Function.update x.bindings b (some { binding with
        reactionMap := r :: binding.reactionMap }) c = some binding' ∧
      binding'.event = old.event ∧ binding'.kind = old.kind ∧
        ∀ i ∈ old.reactionMap, i ∈ binding'.reactionMap := by
    intro c old hc
    by_cases hne : c = b
    · subst hne
      cases hb.symm.trans hc
      exact ⟨_,Function.update_self _ _ _,rfl,rfl,fun i hi => List.mem_cons_of_mem _ hi⟩
    · exact ⟨old,by rw [Function.update_of_ne hne,hc],rfl,rfl,fun i hi => hi⟩
  have hbound : ∀ i ev', x.Bound i ev' → Bound ((x.setBinding b
      { binding with reactionMap := r :: binding.reactionMap }).appendBinding r b) i ev' := by
    intro i ev' hbound
    obtain ⟨c,old,hc,hold',hi⟩ := hbound
    obtain ⟨binding',hbinding,_,_,hkeep⟩ := hold hold'
    exact ⟨c,binding',hc,hbinding,hkeep i hi⟩
  constructor
  · rfl
  · rfl
  · rfl
  · rfl
  · intro hx
    obtain ⟨found,hfound,hev,hkind⟩ := hx.mapped ev b hmap
    cases hb.symm.trans hfound
    constructor
    · intro c hle
      have hc := hx.unused c hle
      have hne : c ≠ b := by
        rintro rfl
        cases hb.symm.trans hc
      rw [← hc]
      exact Function.update_of_ne hne _ _
    · intro i c hc
      cases mem_appendBinding.mp hc with
      | inl hc => exact hx.bounded i c hc
      | inr hnew =>
        rw [hnew.2]
        exact hx.binding_lt hb
    · intro i c hc binding' hbinding hkind'
      obtain ⟨old,hold',_,hk,hmem⟩ := hnew hbinding
      apply (hmem i).mpr
      cases mem_appendBinding.mp hc with
      | inl hc => exact .inl (hx.arrays i c hc old hold' (hk ▸ hkind'))
      | inr hnew => exact .inr hnew
    · intro ev' c hc
      obtain ⟨old,hold',hev',hk⟩ := hx.mapped ev' c hc
      obtain ⟨binding',hbinding,hev'',hk',_⟩ := hold hold'
      exact ⟨binding',hbinding,hev''.trans hev',hk'.trans hk⟩
    · intro c binding' hbinding hkind'
      obtain ⟨old,hold',hev',hk,_⟩ := hnew hbinding
      rw [hev']
      exact hx.listed c old hold' (hk ▸ hkind')
    · intro c binding' hbinding hkind'
      obtain ⟨old,hold',_,hk,hmem⟩ := hnew hbinding
      have hnil := hx.onEvent c old hold' (hk ▸ hkind')
      apply List.eq_nil_iff_forall_not_mem.mpr
      intro i hi
      cases (hmem i).mp hi with
      | inl hi =>
        rw [hnil] at hi
        cases hi
      | inr hi =>
        obtain ⟨rfl,rfl⟩ := hi
        cases hb.symm.trans hold'
        rw [← hk,hkind'] at hkind
        cases hkind
    · intro i ev' hev'
      cases hx.complete i ev' hev' with
      | inl hp => exact .inl hp
      | inr hb => exact .inr (hbound i ev' hb)
    · exact hx.recorded
  · intro hx he
    obtain ⟨found,hfound,hev,hkind⟩ := hx.mapped ev b hmap
    cases hb.symm.trans hfound
    constructor
    · intro c binding' i hbinding hi
      obtain ⟨old,hold',_,_,hmem⟩ := hnew hbinding
      apply mem_appendBinding.mpr
      cases (hmem i).mp hi with
      | inl hi => exact .inl (he.arrays c old i hold' hi)
      | inr hi => exact .inr hi
    · intro c binding' i hbinding hi
      obtain ⟨old,hold',hev',_,hmem⟩ := hnew hbinding
      rw [hev']
      cases (hmem i).mp hi with
      | inl hi => exact he.read c old i hold' hi
      | inr hi =>
        obtain ⟨rfl,rfl⟩ := hi
        cases hb.symm.trans hold'
        rw [hev]
        exact hx.recorded i ev hpending
  · exact fun _ => hbound

theorem bindOnChanged_spec (hwired : Wired x reads)
    (hpending : (r,ev) ∈ x.pendingOnChangedBindings) :
    Continues reads x (x.bindOnChanged (r,ev)) ∧ (x.bindOnChanged (r,ev)).Bound r ev := by
  obtain ⟨hvisit,hmap⟩ := visitBinding_spec reads x ev
  obtain ⟨binding,hb,_,_⟩ := (hvisit.wired hwired).mapped ev _ hmap
  have hbody : x.bindOnChanged (r,ev) =
      if r ∈ binding.reactionMap then (x.visitBinding ev).2
      else ((x.visitBinding ev).2.setBinding (x.visitBinding ev).1
        { binding with reactionMap := r :: binding.reactionMap }).appendBinding r
          (x.visitBinding ev).1 := by
    unfold bindOnChanged
    simp only [hb]
  rw [hbody]
  split
  · rename_i hbit
    exact ⟨hvisit,_,binding,hmap,hb,hbit⟩
  · have hpending' : (r,ev) ∈ (x.visitBinding ev).2.pendingOnChangedBindings := by
      rw [hvisit.pendingOnChanged]
      exact hpending
    have hbind := @bindReaction_continues _ _ reads _ _ _ _ hmap hb hpending'
    have hbit : r ∈ r :: binding.reactionMap := List.mem_cons_self
    exact ⟨hvisit.trans hbind,_,_,hmap,Function.update_self _ _ _,hbit⟩

theorem foldl_bindOnChanged (l : List (ℕ × Ev)) (hwired : Wired x reads)
    (hl : ∀ p ∈ l, p ∈ x.pendingOnChangedBindings) :
    Continues reads x (l.foldl bindOnChanged x) ∧
      ∀ p ∈ l, (l.foldl bindOnChanged x).Bound p.1 p.2 := by
  induction l generalizing x with
  | nil => exact ⟨.refl reads x,by nofun⟩
  | cons p l ih =>
    obtain ⟨hhead,hbound⟩ := bindOnChanged_spec hwired (hl p List.mem_cons_self)
    have hrest : ∀ q ∈ l, q ∈ (x.bindOnChanged p).pendingOnChangedBindings := by
      intro q hq
      rw [hhead.pendingOnChanged]
      exact hl q (List.mem_cons_of_mem _ hq)
    obtain ⟨htail,hbounds⟩ := ih (hhead.wired hwired) hrest
    constructor
    · exact hhead.trans htail
    · intro q hq
      cases List.mem_cons.mp hq with
      | inl heq =>
        rw [heq]
        exact htail.bound (hhead.wired hwired) _ _ hbound
      | inr hq => exact hbounds q hq

omit [DecidableEq Ev] in
/-- Bindings may go if no reaction is bound to them, and only with their entries in the map. -/
theorem Continues.of_retained (hstate : y.state = x.state)
    (hreactionMap : y.pendingReactionMap = x.pendingReactionMap)
    (honChanged : y.pendingOnChangedBindings = x.pendingOnChangedBindings)
    (honEvent : y.pendingOnEventBindings = x.pendingOnEventBindings)
    (hnext : y.nextBinding = x.nextBinding)
    (harray : ∀ i, (y.reactions i).bindingArray = (x.reactions i).bindingArray)
    (hsource : ∀ {b binding}, y.bindings b = some binding → ∃ old, x.bindings b = some old ∧
      binding.event = old.event ∧ binding.kind = old.kind ∧
      binding.reactionMap = old.reactionMap)
    (hmap : ∀ {ev b}, y.bindingMap ev = some b → x.bindingMap ev = some b)
    (hkept : Wired x reads → ∀ {ev b old}, x.bindingMap ev = some b → x.bindings b = some old →
      (∃ r, r ∈ old.reactionMap) ∨ y.bindings b ≠ none ∨ y.bindingMap ev ≠ none →
      y.bindingMap ev = some b ∧ y.bindings b ≠ none) :
    Continues reads x y := by
  have hbound : Wired x reads → ∀ r ev, x.Bound r ev → y.Bound r ev := by
    intro hx r ev hb
    obtain ⟨b,old,hev,hold,hr⟩ := hb
    obtain ⟨hev',hne⟩ := hkept hx hev hold (.inl ⟨r,hr⟩)
    obtain ⟨binding,hbinding⟩ := Option.ne_none_iff_exists'.mp hne
    obtain ⟨old',hold',_,_,hreactions⟩ := hsource hbinding
    cases hold.symm.trans hold'
    exact ⟨b,binding,hev',hbinding,hreactions ▸ hr⟩
  constructor
  · exact hstate
  · exact hreactionMap
  · exact honChanged
  · exact honEvent
  · intro hx
    constructor
    · intro b hle
      rw [hnext] at hle
      by_contra hne
      obtain ⟨binding,hbinding⟩ := Option.ne_none_iff_exists'.mp hne
      obtain ⟨old,hold,_⟩ := hsource hbinding
      rw [hx.unused b hle] at hold
      cases hold
    · intro i b hb
      rw [harray] at hb
      rw [hnext]
      exact hx.bounded i b hb
    · intro i b hb binding hbinding hkind
      obtain ⟨old,hold,_,hk,hreactions⟩ := hsource hbinding
      rw [harray] at hb
      rw [hreactions]
      exact hx.arrays i b hb old hold (hk ▸ hkind)
    · intro ev b hev
      obtain ⟨old,hold,hevent,hkind⟩ := hx.mapped ev b (hmap hev)
      have hne : y.bindingMap ev ≠ none := by
        rw [hev]
        nofun
      obtain ⟨_,hsome⟩ := hkept hx (hmap hev) hold (.inr (.inr hne))
      obtain ⟨binding,hbinding⟩ := Option.ne_none_iff_exists'.mp hsome
      obtain ⟨old',hold',hev',hk',_⟩ := hsource hbinding
      cases hold.symm.trans hold'
      exact ⟨binding,hbinding,hev'.trans hevent,hk'.trans hkind⟩
    · intro b binding hbinding hkind
      obtain ⟨old,hold,hev,hk,_⟩ := hsource hbinding
      have hlisted := hx.listed b old hold (hk ▸ hkind)
      have hne : y.bindings b ≠ none := by
        rw [hbinding]
        nofun
      rw [hev]
      exact (hkept hx hlisted hold (.inr (.inl hne))).1
    · intro b binding hbinding hkind
      obtain ⟨old,hold,_,hk,hreactions⟩ := hsource hbinding
      rw [hreactions]
      exact hx.onEvent b old hold (hk ▸ hkind)
    · intro r ev hev
      rw [honChanged]
      cases hx.complete r ev hev with
      | inl hp => exact .inl hp
      | inr hb => exact .inr (hbound hx r ev hb)
    · intro r ev hp
      rw [honChanged] at hp
      exact hx.recorded r ev hp
  · intro hx he
    constructor
    · intro b binding i hbinding hi
      obtain ⟨old,hold,_,_,hreactions⟩ := hsource hbinding
      rw [harray]
      exact he.arrays b old i hold (hreactions ▸ hi)
    · intro b binding i hbinding hi
      obtain ⟨old,hold,hev,_,hreactions⟩ := hsource hbinding
      rw [hev]
      exact he.read b old i hold (hreactions ▸ hi)
  · exact hbound

omit [DecidableEq Ev] in
theorem releaseReaction_continues (reads : ℕ → List Ev) (x : Reactor Ev) (r : ℕ) :
    Continues reads x (x.releaseReaction r) := by
  apply Continues.of_retained
  iterate 5 · rfl
  · intro i
    show (Function.update x.reactions r _ i).bindingArray = _
    by_cases hi : i = r
    · rw [hi,Function.update_self]
    · rw [Function.update_of_ne hi]
  · intro b binding hbinding
    exact ⟨binding,hbinding,rfl,rfl,rfl⟩
  · exact id
  · intro _ ev b old hev hold _
    have hold : (x.releaseReaction r).bindings b = some old := hold
    exact ⟨hev,by rw [hold]; nofun⟩

theorem releaseBinding_continues (reads : ℕ → List Ev) (x : Reactor Ev) (b : ℕ) :
    Continues reads x (x.releaseBinding b) := by
  unfold releaseBinding
  cases hb : x.bindings b with
  | none => exact .refl reads x
  | some released =>
    dsimp only
    split
    · apply Continues.of_retained
      iterate 5 · rfl
      · exact fun _ => rfl
      · intro c binding hbinding
        have hbinding : Function.update x.bindings b _ c = some binding := hbinding
        by_cases hc : c = b
        · subst hc
          rw [Function.update_self] at hbinding
          cases hbinding
          exact ⟨released,hb,rfl,rfl,rfl⟩
        · rw [Function.update_of_ne hc] at hbinding
          exact ⟨binding,hbinding,rfl,rfl,rfl⟩
      · exact id
      · intro _ ev c old hev hold _
        constructor
        · exact hev
        · show Function.update x.bindings b _ c ≠ none
          by_cases hc : c = b
          · rw [hc,Function.update_self]
            nofun
          · rw [Function.update_of_ne hc,hold]
            nofun
    · rename_i hnil
      have hnil : released.reactionMap = [] := not_not.mp hnil
      apply Continues.of_retained
      iterate 5 · rfl
      · exact fun _ => rfl
      · intro c binding hbinding
        have hbinding : Function.update x.bindings b none c = some binding := hbinding
        by_cases hc : c = b
        · rw [hc,Function.update_self] at hbinding
          cases hbinding
        · rw [Function.update_of_ne hc] at hbinding
          exact ⟨binding,hbinding,rfl,rfl,rfl⟩
      · intro ev c hev
        simp only [unsubscribe] at hev
        split at hev
        · by_cases heq : ev = released.event
          · rw [heq,Function.update_self] at hev
            cases hev
          · rwa [Function.update_of_ne heq] at hev
        · exact hev
      · intro hx ev c old hev hold hused
        have hfound : ∀ {kind}, released.kind = kind → kind = .onChanged →
            released.event = ev → c = b := by
          intro kind hkind hkind' hevent
          have hlisted := hx.listed b released hb (hkind.trans hkind')
          rw [hevent,hev] at hlisted
          exact Option.some.inj hlisted
        have hne : c ≠ b := by
          rintro rfl
          cases hb.symm.trans hold
          obtain ⟨_,hfound,hevent,hkind⟩ := hx.mapped ev c hev
          cases hb.symm.trans hfound
          rcases hused with ⟨r,hr⟩ | hsome | hsome
          · rw [hnil] at hr
            cases hr
          · exact hsome (Function.update_self _ _ _)
          · apply hsome
            simp only [unsubscribe,if_pos hkind]
            rw [← hevent]
            exact Function.update_self _ _ _
        constructor
        · simp only [unsubscribe]
          split
          · rename_i hkind
            rw [Function.update_of_ne]
            · exact hev
            · intro heq
              exact hne (hfound hkind rfl heq.symm)
          · exact hev
        · show Function.update x.bindings b none c ≠ none
          rw [Function.update_of_ne hne,hold]
          nofun

/-- What `processPendingBindings` leaves behind. -/
structure Processed (reads : ℕ → List Ev) (x y : Reactor Ev) : Prop where
  state : y.state = x.state
  pendingReactionMap : y.pendingReactionMap = x.pendingReactionMap
  pendingOnChanged : y.pendingOnChangedBindings = []
  wired : Wired y reads
  exact : Exact x reads → Exact y reads

theorem processPendingBindings_spec (hx : Wired x reads) :
    Processed reads x x.processPendingBindings := by
  obtain ⟨hchanged,hbounds⟩ := foldl_bindOnChanged x.pendingOnChangedBindings hx (fun _ => id)
  let x₁ := x.pendingOnChangedBindings.foldl bindOnChanged x
  let x₂ := x₁.pendingOnEventBindings.foldl bindOnEvent x₁
  let x₃ := x₂.activeBindings.foldl releaseBinding x₂
  let x₄ := x₃.activeReactions.foldl releaseReaction x₃
  have hevents : Continues reads x₁ x₂ :=
    .foldl (fun z c _ => bindOnEvent_continues reads z c) x₁
  have hbindings : Continues reads x₂ x₃ :=
    .foldl (fun z c _ => releaseBinding_continues reads z c) x₂
  have hreactions : Continues reads x₃ x₄ :=
    .foldl (fun z c _ => releaseReaction_continues reads z c) x₃
  have hall : Continues reads x₁ x₄ := (hevents.trans hbindings).trans hreactions
  have hwired₁ : Wired x₁ reads := hchanged.wired hx
  have hwired₄ : Wired x₄ reads := hall.wired hwired₁
  have hpending : x₄.pendingOnChangedBindings = x.pendingOnChangedBindings :=
    hall.pendingOnChanged.trans hchanged.pendingOnChanged
  have hbound : ∀ r, ∀ ev ∈ reads r, x₄.Bound r ev := by
    intro r ev hev
    cases hwired₄.complete r ev hev with
    | inl hp =>
      rw [hpending] at hp
      exact hall.bound hwired₁ r ev (hbounds (r,ev) hp)
    | inr hb => exact hb
  constructor
  · exact hall.state.trans hchanged.state
  · exact hall.pendingReactionMap.trans hchanged.pendingReactionMap
  · rfl
  · constructor
    · exact hwired₄.unused
    · exact hwired₄.bounded
    · exact hwired₄.arrays
    · exact hwired₄.mapped
    · exact hwired₄.listed
    · exact hwired₄.onEvent
    · exact fun r ev hev => .inr (hbound r ev hev)
    · nofun
  · intro he
    have hexact := hall.exact hwired₁ (hchanged.exact hx he)
    exact ⟨hexact.arrays,hexact.read⟩

end Jancy.Rtl.Reactor
