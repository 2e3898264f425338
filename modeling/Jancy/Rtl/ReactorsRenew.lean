import Jancy.Rtl.ReactorsRun

/-! The lifecycle of reactors. A reactor that is started again goes through the same states as a new
one: what `stop` leaves in the list of active reactions is never observed. -/
namespace Jancy.Rtl

namespace Reactor

variable {Ev : Type} {x : Reactor Ev} {l : List ℕ}

def relist (x : Reactor Ev) (l : List ℕ) : Reactor Ev := { x with activeReactions := l }

/-- The list holds the active reactions, and maybe others. -/
def Covers (x : Reactor Ev) (l : List ℕ) : Prop := ∀ r, x.isActive r = true → r ∈ l

theorem Flagged.covers (h : Flagged x) : Covers x x.activeReactions := by
  intro r hr
  cases hstate : x.state with
  | stopped =>
    rw [h.idle (.inl hstate)] at hr
    cases hr
  | running =>
    rw [h.idle (.inr hstate)] at hr
    cases hr
  | starting => exact h.busy (.inl hstate) r hr
  | reacting => exact h.busy (.inr hstate) r hr

theorem foldl_relist {β : Type} {f : Reactor Ev → β → Reactor Ev}
    (hf : ∀ x c, f (x.relist l) c = (f x c).relist l) (cs : List β) (x : Reactor Ev) :
    cs.foldl f (x.relist l) = (cs.foldl f x).relist l := by
  induction cs generalizing x with
  | nil => rfl
  | cons c cs ih => rw [List.foldl_cons,List.foldl_cons,hf,ih]

theorem activateBinding_relist (r : ℕ) (x : Reactor Ev) (b : ℕ) :
    activateBinding r (x.relist l) b = (activateBinding r x b).relist l := by
  simp only [activateBinding,relist]
  split
  · rfl
  · split <;> rfl

theorem activate_relist (x : Reactor Ev) (r : ℕ) :
    (x.relist l).activate r = (x.activate r).relist (l ++ [r]) := by
  have hfold := foldl_relist (activateBinding_relist (l := l) r) (x.reactions r).bindingArray x
  have hbindings : ((x.relist l).reactions r).bindingArray = (x.reactions r).bindingArray := rfl
  simp only [activate,hbindings,hfold]
  rfl

theorem activateReaction_relist (x : Reactor Ev) (l : List ℕ) (r : ℕ) :
    ∃ l', (x.relist l).activateReaction r =
      ((x.activateReaction r).1,(x.activateReaction r).2.relist l') := by
  have hflag : ((x.relist l).reactions r).active = (x.reactions r).active := rfl
  unfold activateReaction
  rw [hflag]
  split
  · exact ⟨l,rfl⟩
  · exact ⟨l ++ [r],by rw [activate_relist]⟩

theorem foldl_activateReaction_relist (is : List ℕ) (x : Reactor Ev) (l : List ℕ) :
    ∃ l', is.foldl (fun x i => (x.activateReaction i).2) (x.relist l) =
      (is.foldl (fun x i => (x.activateReaction i).2) x).relist l' := by
  induction is generalizing x l with
  | nil => exact ⟨l,rfl⟩
  | cons i is ih =>
    obtain ⟨l₁,hhead⟩ := activateReaction_relist x l i
    obtain ⟨l₂,htail⟩ := ih (x.activateReaction i).2 l₁
    refine ⟨l₂,?_⟩
    rw [List.foldl_cons,List.foldl_cons,hhead,htail]

theorem releaseReactions_eq (is : List ℕ) (x : Reactor Ev) :
    is.foldl releaseReaction x =
      { x with reactions := fun r =>
          if r ∈ is then { x.reactions r with active := false } else x.reactions r } := by
  induction is generalizing x with
  | nil => simp
  | cons i is ih =>
    rw [List.foldl_cons,ih]
    simp only [releaseReaction]
    congr 1
    funext r
    by_cases hr : r = i
    · subst hr
      simp
    · simp [hr]

theorem releaseReactions_covers {is js : List ℕ} (hi : Covers x is) (hj : Covers x js) :
    is.foldl releaseReaction x = js.foldl releaseReaction x := by
  rw [releaseReactions_eq,releaseReactions_eq]
  congr 1
  funext r
  cases hactive : x.isActive r with
  | true => rw [if_pos (hi r hactive),if_pos (hj r hactive)]
  | false =>
    have hsame : ({ x.reactions r with active := false } : Reaction) = x.reactions r := by
      have hflag : (x.reactions r).active = false := hactive
      rw [← hflag]
    rw [hsame,ite_self,ite_self]

variable [DecidableEq Ev]

theorem visitBinding_relist (x : Reactor Ev) (ev : Ev) :
    (x.relist l).visitBinding ev = ((x.visitBinding ev).1,(x.visitBinding ev).2.relist l) := by
  simp only [visitBinding,relist]
  split <;> rfl

theorem bindOnChanged_relist (x : Reactor Ev) (pending : ℕ × Ev) :
    (x.relist l).bindOnChanged pending = (x.bindOnChanged pending).relist l := by
  have hbindings : ∀ (y : Reactor Ev) b, (y.relist l).bindings b = y.bindings b := fun _ _ => rfl
  simp only [bindOnChanged,visitBinding_relist,hbindings]
  split
  · rfl
  · split <;> rfl

theorem releaseBinding_relist (x : Reactor Ev) (b : ℕ) :
    (x.relist l).releaseBinding b = (x.releaseBinding b).relist l := by
  simp only [releaseBinding,relist]
  split
  · rfl
  · split <;> rfl

/-- The first three loops of `processPendingBindings`. -/
def rebind (x : Reactor Ev) : Reactor Ev :=
  let x := x.pendingOnChangedBindings.foldl bindOnChanged x
  let x := x.pendingOnEventBindings.foldl bindOnEvent x
  x.activeBindings.foldl releaseBinding x

def clearLists (x : Reactor Ev) : Reactor Ev :=
  { x with
    activeBindings := []
    activeReactions := []
    pendingOnChangedBindings := []
    pendingOnEventBindings := [] }

theorem processPendingBindings_eq (x : Reactor Ev) : x.processPendingBindings =
    clearLists (x.rebind.activeReactions.foldl releaseReaction x.rebind) := rfl

theorem rebind_relist (x : Reactor Ev) : (x.relist l).rebind = x.rebind.relist l := by
  have h₁ : (x.relist l).pendingOnChangedBindings.foldl bindOnChanged (x.relist l) =
      (x.pendingOnChangedBindings.foldl bindOnChanged x).relist l :=
    foldl_relist (fun y c => bindOnChanged_relist y c) _ x
  have h₂ : ∀ y : Reactor Ev, (y.relist l).pendingOnEventBindings.foldl bindOnEvent (y.relist l) =
      (y.pendingOnEventBindings.foldl bindOnEvent y).relist l :=
    fun y => foldl_relist (fun _ _ => rfl) _ y
  have h₃ : ∀ y : Reactor Ev, (y.relist l).activeBindings.foldl releaseBinding (y.relist l) =
      (y.activeBindings.foldl releaseBinding y).relist l :=
    fun y => foldl_relist (fun y c => releaseBinding_relist y c) _ y
  simp only [rebind,h₁,h₂,h₃]

theorem rebind_sameActive (x : Reactor Ev) : SameActive x x.rebind := by
  have h₁ : SameActive x (x.pendingOnChangedBindings.foldl bindOnChanged x) :=
    .foldl bindOnChanged_sameActive _ x
  exact (h₁.trans (.foldl bindOnEvent_sameActive _ _)).trans
    (.foldl releaseBinding_sameActive _ _)

theorem processPendingBindings_relist (hx : Covers x x.activeReactions) (hl : Covers x l) :
    (x.relist l).processPendingBindings = x.processPendingBindings := by
  have hsame := rebind_sameActive x
  have hcovers : ∀ l, Covers x l → Covers x.rebind l := by
    intro l hl r hr
    rw [hsame.flags] at hr
    exact hl r hr
  have hlists : l.foldl releaseReaction x.rebind =
      x.rebind.activeReactions.foldl releaseReaction x.rebind := by
    apply releaseReactions_covers (hcovers l hl)
    rw [hsame.listed]
    exact hcovers _ hx
  have hrelist : l.foldl releaseReaction (x.rebind.relist l) =
      (l.foldl releaseReaction x.rebind).relist l := foldl_relist (fun _ _ => rfl) l x.rebind
  have hlist : (x.rebind.relist l).activeReactions = l := rfl
  rw [processPendingBindings_eq,processPendingBindings_eq,rebind_relist,hlist,hrelist,hlists]
  rfl

omit [DecidableEq Ev] in
theorem stop_relist (x : Reactor Ev) : (x.relist l).stop = x.stop.relist l := by
  have hstate : (x.relist l).state = x.state := rfl
  unfold stop
  rw [hstate]
  split <;> rfl

end Reactor

namespace Wires

open Reactor

variable {Ev : Type} [DecidableEq Ev] {l : List ℕ}

def relist (w : Wires Ev) (l : List ℕ) : Wires Ev := { w with reactor := w.reactor.relist l }

omit [DecidableEq Ev] in
theorem foldl_relist {β : Type} {f : Wires Ev → β → Wires Ev}
    (hf : ∀ w c, f (w.relist l) c = (f w c).relist l) (cs : List β) (w : Wires Ev) :
    cs.foldl f (w.relist l) = (cs.foldl f w).relist l := by
  induction cs generalizing w with
  | nil => rfl
  | cons c cs ih => rw [List.foldl_cons,List.foldl_cons,hf,ih]

/-- The loops of `processPendingBindings` that change multicasts. -/
def rebind (k : ℕ) (w : Wires Ev) : Wires Ev :=
  let w := w.reactor.pendingOnChangedBindings.foldl (bindOnChanged k) w
  let w := w.reactor.pendingOnEventBindings.foldl (bindOnEvent k) w
  w.reactor.activeBindings.foldl (releaseBinding k) w

theorem processPendingBindings_eq (k : ℕ) (w : Wires Ev) : w.processPendingBindings k =
    ⟨w.reactor.processPendingBindings,(w.rebind k).handlers⟩ := rfl

theorem rebind_relist (k : ℕ) (w : Wires Ev) :
    (w.relist l).rebind k = (w.rebind k).relist l := by
  have h₁ : ∀ (w : Wires Ev) c, (w.relist l).bindOnChanged k c =
      (w.bindOnChanged k c).relist l := by
    intro w c
    simp only [bindOnChanged,relist,bindOnChanged_relist]
    rfl
  have h₃ : ∀ (w : Wires Ev) c, (w.relist l).releaseBinding k c =
      (w.releaseBinding k c).relist l := by
    intro w c
    simp only [releaseBinding,relist,releaseBinding_relist]
    rfl
  have hfold₁ : (w.relist l).reactor.pendingOnChangedBindings.foldl (bindOnChanged k)
      (w.relist l) = (w.reactor.pendingOnChangedBindings.foldl (bindOnChanged k) w).relist l :=
    foldl_relist h₁ _ w
  have hfold₂ : ∀ w : Wires Ev, (w.relist l).reactor.pendingOnEventBindings.foldl (bindOnEvent k)
      (w.relist l) = (w.reactor.pendingOnEventBindings.foldl (bindOnEvent k) w).relist l :=
    fun w => foldl_relist (fun _ _ => rfl) _ w
  have hfold₃ : ∀ w : Wires Ev, (w.relist l).reactor.activeBindings.foldl (releaseBinding k)
      (w.relist l) = (w.reactor.activeBindings.foldl (releaseBinding k) w).relist l :=
    fun w => foldl_relist h₃ _ w
  simp only [rebind,hfold₁,hfold₂,hfold₃]

theorem processPendingBindings_relist (k : ℕ) (w : Wires Ev)
    (hw : Covers w.reactor w.reactor.activeReactions) (hl : Covers w.reactor l) :
    (w.relist l).processPendingBindings k = w.processPendingBindings k := by
  have hreactor : (w.relist l).reactor.processPendingBindings =
      w.reactor.processPendingBindings := Reactor.processPendingBindings_relist hw hl
  rw [processPendingBindings_eq,processPendingBindings_eq,rebind_relist,hreactor]
  rfl

theorem stop_relist (k : ℕ) (w : Wires Ev) : (w.relist l).stop k = (w.stop k).relist l := by
  have hstate : (w.relist l).reactor.state = w.reactor.state := rfl
  have hreactor : (w.relist l).reactor.stop = w.reactor.stop.relist l :=
    Reactor.stop_relist w.reactor
  unfold stop
  rw [hstate,hreactor]
  split <;> rfl

end Wires

namespace Reactors

open Reactor Wires

variable {Ev : Type} {s s' t : Reactors Ev} {count : ℕ → ℕ}

/-- The same reactors, but for their lists of active reactions. -/
def relist (s : Reactors Ev) (l : ℕ → List ℕ) : Reactors Ev :=
  { s with reactors := fun k => (s.reactors k).relist (l k) }

def Alike (s t : Reactors Ev) : Prop := ∃ l, t = s.relist l

theorem setReactor_relist (s : Reactors Ev) (k : ℕ) (x : Reactor Ev) (l : ℕ → List ℕ)
    (m : List ℕ) : Alike (s.setReactor k x) ((s.relist l).setReactor k (x.relist m)) := by
  refine ⟨Function.update l k m,?_⟩
  unfold setReactor relist
  congr 1
  funext j
  by_cases hj : j = k
  · subst hj
    simp
  · simp [hj]

/-- A reactor as it was when it was constructed. -/
def renew (s : Reactors Ev) (k : ℕ) : Reactors Ev :=
  s.setReactor k { nextBinding := (s.reactors k).nextBinding }

theorem alike_renew {k : ℕ} (h : Renewed (s.reactors k)) : Alike s (s.renew k) := by
  have hsame : s.setReactor k (s.reactors k) = s := by
    unfold setReactor
    rw [Function.update_eq_self]
  have hrelist : (s.reactors k).relist [] = { nextBinding := (s.reactors k).nextBinding } := by
    rw [h]
    rfl
  have halike := setReactor_relist s k (s.reactors k) (fun j => (s.reactors j).activeReactions) []
  rw [hsame,hrelist] at halike
  exact halike

theorem Alike.stack (h : Alike s t) (stack : List ReactorsFrame) :
    Alike { s with stack := stack } { t with stack := stack } := by
  obtain ⟨l,rfl⟩ := h
  exact ⟨l,rfl⟩

theorem Alike.fault (h : Alike s t) (fault : Option ReactorFault) :
    Alike { s with fault := fault } { t with fault := fault } := by
  obtain ⟨l,rfl⟩ := h
  exact ⟨l,rfl⟩

theorem setWires_relist (s : Reactors Ev) (k : ℕ) (w : Wires Ev) (l : ℕ → List ℕ)
    (m : List ℕ) : Alike (s.setWires k w) ((s.relist l).setWires k (w.relist m)) := by
  obtain ⟨l',h⟩ := setReactor_relist { s with handlers := w.handlers } k w.reactor l m
  exact ⟨l',h⟩

theorem setWires_alike (s : Reactors Ev) (k : ℕ) (w : Wires Ev) (l : ℕ → List ℕ) :
    Alike (s.setWires k w) ((s.relist l).setWires k w) :=
  setWires_relist s k w l w.reactor.activeReactions

variable [DecidableEq Ev] {l : ℕ → List ℕ}

theorem stop_alike (s : Reactors Ev) (l : ℕ → List ℕ) (k : ℕ) :
    Alike (s.stop k) ((s.relist l).stop k) := by
  have hwires : (s.relist l).wires k = (s.wires k).relist (l k) := rfl
  unfold stop
  rw [hwires,Wires.stop_relist]
  exact setWires_relist s k _ l (l k)

omit [DecidableEq Ev] in
theorem start_alike (h : Alike s t) (k : ℕ) : Alike (s.start k) (t.start k) := by
  obtain ⟨l,rfl⟩ := h
  have hstate : ((s.relist l).reactors k).state = (s.reactors k).state := rfl
  unfold start
  rw [hstate]
  split
  · exact ⟨l,rfl⟩
  · exact Alike.stack ⟨l,rfl⟩ _

theorem process_alike (hs : Inv count s) (ht : Inv count (s.relist l)) (k : ℕ) :
    ((s.relist l).wires k).processPendingBindings k = (s.wires k).processPendingBindings k := by
  have hwires : (s.relist l).wires k = (s.wires k).relist (l k) := rfl
  rw [hwires]
  exact Wires.processPendingBindings_relist k (s.wires k) (hs.flagged k).covers
    (ht.flagged k).covers

theorem finishStart_alike (hs : Inv count s) (ht : Inv count (s.relist l)) (k : ℕ)
    (rest : List ReactorsFrame) : Alike (s.finishStart k rest) ((s.relist l).finishStart k rest) := by
  have hstate : ((s.relist l).reactors k).state = (s.reactors k).state := rfl
  unfold finishStart
  rw [hstate,process_alike hs ht]
  split
  · exact Alike.stack ⟨l,rfl⟩ _
  · dsimp only
    split
    · exact (setWires_alike s k _ l).stack rest
    · exact Alike.fault ⟨l,rfl⟩ _

theorem finishLoop_alike (hs : Inv count s) (ht : Inv count (s.relist l)) (k : ℕ)
    (rest : List ReactorsFrame) : Alike (s.finishLoop k rest) ((s.relist l).finishLoop k rest) := by
  unfold finishLoop
  rw [process_alike hs ht]
  dsimp only
  split
  · exact (setWires_alike s k _ l).stack rest
  · split
    · exact (setWires_alike s k _ l).stack rest
    · exact Alike.fault ⟨l,rfl⟩ _

theorem look_alike (hs : Inv count s) (ht : Inv count (s.relist l)) (k : ℕ) (i : Option ℕ)
    (rest : List ReactorsFrame) :
    Alike (s.look count k i rest) ((s.relist l).look count k i rest) := by
  have hnext : ((s.relist l).reactors k).nextReaction (count k) i =
      (s.reactors k).nextReaction (count k) i := rfl
  unfold look
  rw [hnext]
  cases (s.reactors k).nextReaction (count k) i with
  | none => exact finishLoop_alike hs ht k rest
  | some j =>
    have hclear : ((s.relist l).reactors k).clearBit j =
        ((s.reactors k).clearBit j).relist (l k) := rfl
    obtain ⟨m,hactivate⟩ := activateReaction_relist ((s.reactors k).clearBit j) (l k) j
    dsimp only
    rw [hclear,hactivate]
    cases hresult : ((s.reactors k).clearBit j).activateReaction j with
    | mk result x =>
      cases result with
      | false => exact (setReactor_relist s k x l m).stack _
      | true =>
        have hstate : (x.relist m).state = x.state := rfl
        dsimp only
        rw [hstate]
        split
        · exact Alike.fault ⟨l,rfl⟩ _
        · exact (setReactor_relist s k x l m).stack _

omit [DecidableEq Ev] in
theorem onChanged_alike (s : Reactors Ev) (l : ℕ → List ℕ) (k : ℕ) (binding : Binding Ev) :
    Alike (s.onChanged k binding) ((s.relist l).onChanged k binding) := by
  have hstate : (((s.relist l).reactors k).mergePending binding).state =
      ((s.reactors k).mergePending binding).state := rfl
  unfold onChanged
  dsimp only
  rw [hstate]
  split
  · exact setReactor_relist s k _ l (l k)
  · exact (setReactor_relist s k { (s.reactors k).mergePending binding with
      state := .reacting, activeReactions := [], activeBindings := [] } l []).stack _

omit [DecidableEq Ev] in
theorem call_alike (s : Reactors Ev) (l : ℕ → List ℕ) (handlers : List EventHandler)
    (rest : List ReactorsFrame) : Alike (s.call handlers rest) ((s.relist l).call handlers rest) := by
  unfold call
  cases handlers with
  | nil => exact Alike.stack ⟨l,rfl⟩ _
  | cons h handlers =>
    dsimp only
    cases h.kind with
    | onEvent => exact Alike.stack ⟨l,rfl⟩ _
    | onChanged =>
      have hbinding : ((s.relist l).reactors h.reactor).bindings h.binding =
          (s.reactors h.reactor).bindings h.binding := rfl
      dsimp only
      rw [hbinding]
      cases (s.reactors h.reactor).bindings h.binding with
      | none => exact Alike.fault ⟨l,rfl⟩ _
      | some binding =>
        exact onChanged_alike { s with stack := .calling handlers :: rest } l _ binding

omit [DecidableEq Ev] in
theorem byFunction_alike (s : Reactors Ev) (l : ℕ → List ℕ)
    {f : ℕ → Reactor Ev → Option (Reactor Ev)}
    (hf : ∀ k x m, Option.Rel (fun y z => ∃ m', z = Reactor.relist y m') (f k x)
      (f k (x.relist m))) :
    Option.Rel Alike (s.byFunction f) ((s.relist l).byFunction f) := by
  have hstack : (s.relist l).stack = s.stack := rfl
  unfold byFunction
  rw [hstack]
  cases current s.stack with
  | none => exact .none
  | some k =>
    have hreactor : (s.relist l).reactors k = (s.reactors k).relist (l k) := rfl
    dsimp only
    rw [hreactor]
    generalize hy : f k (s.reactors k) = y
    generalize hz : f k ((s.reactors k).relist (l k)) = z
    have hrel := hf k (s.reactors k) (l k)
    rw [hy,hz] at hrel
    cases hrel with
    | none => exact .none
    | some h =>
      obtain ⟨m,rfl⟩ := h
      exact .some (setReactor_relist s k _ l m)

omit [DecidableEq Ev] in
theorem whileActive_relist (x y : Reactor Ev) (m : List ℕ) {m' : List ℕ} :
    Option.Rel (fun y z => ∃ m', z = Reactor.relist y m') (x.whileActive y)
      ((x.relist m).whileActive (y.relist m')) := by
  have hstate : (x.relist m).state = x.state := rfl
  unfold whileActive
  rw [hstate]
  cases x.state with
  | stopped => exact .some ⟨m,rfl⟩
  | running => exact .none
  | starting => exact .some ⟨m',rfl⟩
  | reacting => exact .some ⟨m',rfl⟩

theorem returns_alike (hs : Inv count s) (ht : Inv count (s.relist l)) :
    Option.Rel Alike s.returns (s.relist l).returns := by
  have hstack : (s.relist l).stack = s.stack := rfl
  unfold returns
  rw [hstack]
  cases s.stack with
  | nil => exact .none
  | cons frame rest =>
    cases frame with
    | constructing k => exact .some ((setReactor_relist s k _ l (l k)).stack _)
    | starting k => exact .some (finishStart_alike hs ht k rest)
    | reacting k i =>
      have hstate : ((s.relist l).reactors k).state = (s.reactors k).state := rfl
      dsimp only
      rw [hstate]
      split
      · exact .some (Alike.stack ⟨l,rfl⟩ _)
      · exact .some (Alike.stack ⟨l,rfl⟩ _)
    | looking _ _ => exact .none
    | handling => exact .some (Alike.stack ⟨l,rfl⟩ _)
    | calling _ => exact .none

theorem programStep_alike (hs : Inv count s) (ht : Inv count (s.relist l))
    (a : ReactorsAction Ev) :
    Option.Rel Alike (s.programStep count a) ((s.relist l).programStep count a) := by
  cases a with
  | start k => exact .some (start_alike ⟨l,rfl⟩ k)
  | stop k => exact .some (stop_alike s l k)
  | restart k => exact .some (start_alike (stop_alike s l k) k)
  | fire event => exact .some (Alike.stack ⟨l,rfl⟩ _)
  | addOnChangedBinding i event =>
    simp only [programStep]
    refine byFunction_alike s l ?_
    intro k x m
    split
    · exact whileActive_relist x _ m
    · exact .none
  | addOnEventBinding i event =>
    simp only [programStep]
    refine byFunction_alike s l ?_
    intro k x m
    split
    · exact whileActive_relist x _ m
    · exact .none
  | enterReactiveStmt from' to' =>
    simp only [programStep]
    refine byFunction_alike s l ?_
    intro k x m
    split
    · obtain ⟨m',hfold⟩ := foldl_activateReaction_relist (reactionRange from' to')
        (x.clearBitRange from' to') m
      have hclear : (x.relist m).clearBitRange from' to' =
          (x.clearBitRange from' to').relist m := rfl
      unfold enterReactiveStmt
      rw [hclear,hfold]
      exact whileActive_relist x _ m
    · exact .none
  | returns => exact returns_alike hs ht
  | look => exact .none
  | call => exact .none

theorem step_alike (hs : Inv count s) (ht : Inv count (s.relist l)) (a : ReactorsAction Ev) :
    Option.Rel Alike (step count s a) (step count (s.relist l) a) := by
  have hstack : (s.relist l).stack = s.stack := rfl
  have hfault : (s.relist l).fault = s.fault := rfl
  unfold step
  rw [hstack,hfault]
  split
  · exact .none
  · split
    · exact .some (look_alike hs ht _ _ _)
    · exact .none
    · exact .some (call_alike s l _ _)
    · exact .none
    · exact programStep_alike hs ht _

theorem exec_alike (h : Alike s t) (hs : Inv count s) (ht : Inv count t)
    {as : List (ReactorsAction Ev)}
    (hc : Run.Along (step count) (fun s a => s.careful count a = true) s as) :
    Option.Rel Alike (Run.exec (step count) s as) (Run.exec (step count) t as) := by
  induction as generalizing s t with
  | nil => exact .some h
  | cons a as ih =>
    obtain ⟨l,rfl⟩ := h
    have hstep := step_alike hs ht a
    unfold Run.exec
    unfold Run.Along at hc
    cases hu : step count s a with
    | none =>
      rw [hu] at hstep
      generalize hv : step count (s.relist l) a = v at hstep
      cases hstep
      exact .none
    | some u =>
      rw [hu] at hstep hc
      generalize hv : step count (s.relist l) a = v at hstep
      cases hstep with
      | some halike =>
        have hu' := inv_step hs hc.1 hu
        have hv' := inv_step ht hc.1 hv
        exact ih halike hu' hv' hc.2

/-- What the lifecycle promises. `fault` is about the assertions of `start` and `onChanged`, about
notifications and about the reactions of stopped reactors. -/
structure Kept (count : ℕ → ℕ) (s : Reactors Ev) : Prop where
  fault : s.fault = none
  handlers : ∀ k, (s.reactors k).state = .stopped → ∀ ev, ∀ h ∈ s.handlers ev, h.reactor ≠ k
  marks : ∀ k, (s.reactors k).state = .stopped →
    (∀ r, (s.reactors k).isActive r = false) ∧ (s.reactors k).pendingReactionMap = []
  again : ∀ k, (s.reactors k).state = .stopped → ∀ as,
    Run.Along (step count) (fun s a => s.careful count a = true) s as →
      Option.Rel Alike (Run.exec (step count) s as) (Run.exec (step count) (s.renew k) as)

omit [DecidableEq Ev] in
theorem inv_renew (hs : Inv count s) {k : ℕ} (hstate : (s.reactors k).state = .stopped) :
    Inv count (s.renew k) := by
  have hnew := hs.renewed k hstate
  have hself : (s.renew k).reactors k = { nextBinding := (s.reactors k).nextBinding } :=
    Function.update_self _ _ _
  have hempty : ∀ b, (s.reactors k).bindings b = none := by
    rw [hnew]
    exact fun _ => rfl
  have hothers : ∀ j, j ≠ k → (s.renew k).reactors j = s.reactors j :=
    fun j hj => Function.update_of_ne hj _ _
  have hstates : ∀ j, ((s.renew k).reactors j).state = (s.reactors j).state := by
    intro j
    by_cases hj : j = k
    · subst hj
      rw [hself]
      exact hstate.symm
    · rw [hothers j hj]
  have hbindings : ∀ j, ((s.renew k).reactors j).bindings = (s.reactors j).bindings := by
    intro j
    by_cases hj : j = k
    · subst hj
      rw [hself]
      exact (funext hempty).symm
    · rw [hothers j hj]
  constructor
  · exact hs.fault
  · intro j hj
    by_cases hjk : j = k
    · subst hjk
      rw [hself]
      rfl
    · rw [hothers j hjk] at hj ⊢
      exact hs.renewed j hj
  · intro j
    by_cases hj : j = k
    · subst hj
      rw [hself]
      refine ⟨fun _ => [],?_,?_⟩
      · exact Reactor.wired_of_empty (fun _ => rfl) (fun _ => rfl) (fun _ => rfl) rfl
      · exact .of_unsubscribed ⟨fun _ => rfl,fun _ => rfl,rfl,rfl,rfl⟩
    · rw [hothers j hj]
      exact hs.sound j
  · intro j
    by_cases hj : j = k
    · subst hj
      rw [hself]
      exact .of_idle fun _ => rfl
    · rw [hothers j hj]
      exact hs.flagged j
  · intro j
    rw [hstates]
    exact hs.placed j
  · exact hs.below
  · intro j
    constructor
    · intro b hle
      show ((s.renew k).reactors j).bindings b = none
      have hnext : ((s.renew k).reactors j).nextBinding = (s.reactors j).nextBinding := by
        by_cases hj : j = k
        · subst hj
          rw [hself]
        · rw [hothers j hj]
      rw [hbindings]
      exact (hs.handled j).unused b (hnext ▸ hle)
    · intro ev h hmem hj
      show ∃ binding, ((s.renew k).reactors j).bindings _ = _ ∧ _
      rw [hbindings]
      exact (hs.handled j).handlers ev h hmem hj
  · intro h hmem
    rw [hbindings]
    exact hs.notified h hmem

theorem Inv.kept (hs : Inv count s) : Kept count s := by
  constructor
  · exact hs.fault
  · intro k hstate ev h hmem hk
    obtain ⟨binding,hb,_⟩ := (hs.handled k).handlers ev h hmem hk
    have hnone : (s.reactors k).bindings h.binding = none := by
      rw [hs.renewed k hstate]
    exact absurd (hb.symm.trans hnone) (by nofun)
  · intro k hstate
    rw [hs.renewed k hstate]
    exact ⟨fun _ => rfl,rfl⟩
  · intro k hstate as hc
    exact exec_alike (alike_renew (hs.renewed k hstate)) hs (inv_renew hs hstate) hc

/-- A reaction of reactor `0` stops reactor `1`, which is then started again, and so is `0`. -/
def sharedRun : List (ReactorsAction ℕ) :=
  [.start 0,.returns,.addOnChangedBinding 0 7,.returns,
    .start 1,.returns,.addOnChangedBinding 0 8,.returns,
    .fire 7,.call,.look,.addOnChangedBinding 0 7,.stop 1,.returns,.look,.call,
    .start 1,.returns,.addOnChangedBinding 0 7,.returns,
    .restart 0,.returns,.addOnChangedBinding 0 7,.returns,.fire 7,.call]

def restartRun : List (ReactorsAction ℕ) :=
  [.start 0,.returns,.addOnChangedBinding 0 7,.returns,.fire 7,.call,.look,
    .restart 0,.returns,.addOnChangedBinding 0 7,.returns,.returns,.look]

/-- A reaction of reactor `0` stops reactor `1`, whose handler stands in the same snapshot. -/
def stopRun : List (ReactorsAction ℕ) :=
  [.start 0,.returns,.addOnChangedBinding 0 7,.returns,
    .start 1,.returns,.addOnChangedBinding 0 7,.returns,
    .fire 7,.call,.look,.stop 1,.returns,.look,.call]

/-- Or it changes what reactor `1` reads, which then does not read the event any more. -/
def unreadRun : List (ReactorsAction ℕ) :=
  [.start 0,.returns,.addOnChangedBinding 0 7,.returns,
    .start 1,.returns,.addOnChangedBinding 0 8,.addOnChangedBinding 0 7,.returns,
    .fire 7,.call,.look,.fire 8,.call,.look,.addOnChangedBinding 0 8,.returns,.look,.call,
    .returns,.look,.call]

theorem not_always_of_fault {as : List (ReactorsAction Ev)} (h : Run.exec (step count) s as = some t)
    (hfault : t.fault ≠ none) : ¬ Run.Always (step count) (Kept count) s as :=
  fun hall => hfault (hall.last h).fault

end Reactors
end Jancy.Rtl
