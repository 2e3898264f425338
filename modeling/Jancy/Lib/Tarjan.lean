import Mathlib.Algebra.BigOperators.Group.Finset.Basic
import Mathlib.Algebra.GroupWithZero.Nat

/-! Strongly connected components by an explicit stack of frames. A component is closed when its
root is done; it reaches only itself and components that were closed before. -/
namespace Tarjan

/-- A node under way, and its successors that are still to be looked at. -/
structure Frame (V : Type) where
  node : V
  rest : List V

/-- Stacks have their top first, and components the one closed last. -/
structure State (V : Type) where
  index : V → Option ℕ
  lowlink : V → ℕ
  component : V → Option ℕ
  counter : ℕ
  stack : List V
  frames : List (Frame V)
  components : List (List V)

variable {V : Type} [DecidableEq V]

/-- The nodes of a stack down to `v`, and those below it. -/
def popUntil (v : V) : List V → List V × List V
  | [] => ([],[])
  | u :: stack =>
      if u = v then ([u],stack)
      else
        let (popped,rest) := popUntil v stack
        (u :: popped,rest)

namespace State

variable (succ : V → List V) (s : State V)

def number (v : V) : ℕ := (s.index v).getD 0

def discover (v : V) : State V :=
  { s with
    index := Function.update s.index v (some s.counter)
    lowlink := Function.update s.lowlink v s.counter
    counter := s.counter + 1
    stack := v :: s.stack
    frames := ⟨v,succ v⟩ :: s.frames }

def lower (v : V) (n : ℕ) : State V :=
  { s with lowlink := Function.update s.lowlink v (min (s.lowlink v) n) }

def close (v : V) : State V :=
  let (popped,rest) := popUntil v s.stack
  { s with
    component := fun u => if u ∈ popped then some s.components.length else s.component u
    stack := rest
    components := popped :: s.components }

/-- One round of the loop, until there are no frames. -/
def step : Option (State V) :=
  match s.frames with
  | [] => none
  | ⟨v,w :: rest⟩ :: frames =>
      let s := { s with frames := ⟨v,rest⟩ :: frames }
      match s.index w with
      | some n => if s.component w = none then some (s.lower v n) else some s
      | none => some (s.discover succ w)
  | ⟨v,[]⟩ :: frames =>
      let s := { s with frames }
      let s := if s.index v = some (s.lowlink v) then s.close v else s
      match frames with
      | [] => some s
      | parent :: _ => some (s.lower parent.node (s.lowlink v))

end State

def Reach (succ : V → List V) : V → V → Prop := Relation.ReflTransGen fun v w => w ∈ succ v

/-- What does not look at the frames. -/
structure Core (succ : V → List V) (s : State V) : Prop where
  stack : ∀ v, v ∈ s.stack ↔ s.index v ≠ none ∧ s.component v = none
  sorted : s.stack.Pairwise fun v w => s.number w < s.number v
  counter : ∀ v, s.index v ≠ none → s.number v < s.counter
  lowlink : ∀ v ∈ s.stack, s.lowlink v ≤ s.number v ∧
    ∃ u ∈ s.stack, s.number u = s.lowlink v ∧ Reach succ v u
  visited : ∀ v, s.component v ≠ none → s.index v ≠ none
  closed : ∀ v k, s.component v = some k → ∀ u ∈ succ v, ∃ l ≤ k, s.component u = some l
  strong : ∀ v w, s.component v ≠ none → s.component v = s.component w → Reach succ v w
  members : ∀ v k, s.component v = some k ↔ ∃ c, s.components.reverse[k]? = some c ∧ v ∈ c
  nodup : ∀ c ∈ s.components, c.Nodup

/-- A successor of the part of a frame is known, and counted if it is on the stack. -/
def Covered (s : State V) (v u : V) : Prop :=
  s.index u ≠ none ∧ (s.component u = none → s.lowlink v ≤ s.number u)

structure Part (succ : V → List V) (s : State V) (f : Frame V) (above : List V) : Prop where
  processed : ∃ before, succ f.node = before ++ f.rest ∧ ∀ u ∈ before, Covered s f.node u
  covered : ∀ w ∈ above, ∀ u ∈ succ w, Covered s f.node u
  reach : ∀ w ∈ above, Reach succ f.node w
  lowlink : ∀ w ∈ above, s.lowlink f.node ≤ s.lowlink w
  finished : ∀ w ∈ above, s.lowlink w < s.number w

def Parts (succ : V → List V) (s : State V) : List (Frame V) → List V → Prop
  | [],stack => stack = []
  | f :: frames,stack => ∃ above rest, stack = above ++ f.node :: rest ∧ Part succ s f above ∧
      (∀ parent ∈ frames.head?, f.node ∈ succ parent.node) ∧ Parts succ s frames rest

structure Inv (succ : V → List V) (s : State V) : Prop where
  core : Core succ s
  parts : Parts succ s s.frames s.stack

variable {succ : V → List V} {s s' : State V} {v w u : V} {f : Frame V} {frames : List (Frame V)}
  {above rest stack : List V}

/-- Nodes stay visited, with their numbers, and no component is taken away. -/
structure Extends (s s' : State V) : Prop where
  index : ∀ u, s.index u ≠ none → s'.index u = s.index u
  component : ∀ u, s'.component u = none → s.component u = none

omit [DecidableEq V] in
theorem Extends.number (h : Extends s s') (hu : s.index u ≠ none) : s'.number u = s.number u := by
  unfold State.number
  rw [h.index u hu]

omit [DecidableEq V] in
theorem Covered.mono (h : Covered s v u) (hext : Extends s s') (hlow : s'.lowlink w ≤ s.lowlink v) :
    Covered s' w u := by
  constructor
  · rw [hext.index u h.1]
    exact h.1
  · intro hu
    rw [hext.number h.1]
    exact Nat.le_trans hlow (h.2 (hext.component u hu))

omit [DecidableEq V] in
theorem Part.mono (h : Part succ s f above) (hext : Extends s s')
    (hnode : s'.lowlink f.node ≤ s.lowlink f.node)
    (habove : ∀ w ∈ above, s.index w ≠ none ∧ s'.lowlink w = s.lowlink w) :
    Part succ s' f above := by
  obtain ⟨before,hsplit,hbefore⟩ := h.processed
  constructor
  · exact ⟨before,hsplit,fun u hu => (hbefore u hu).mono hext hnode⟩
  · exact fun w hw u hu => (h.covered w hw u hu).mono hext hnode
  · exact h.reach
  · intro w hw
    rw [(habove w hw).2]
    exact Nat.le_trans hnode (h.lowlink w hw)
  · intro w hw
    rw [(habove w hw).2,hext.number (habove w hw).1]
    exact h.finished w hw

omit [DecidableEq V] in
theorem Parts.mono (hext : Extends s s') :
    ∀ {frames : List (Frame V)} {stack : List V}, Parts succ s frames stack →
      (∀ w ∈ stack, s.index w ≠ none ∧ s'.lowlink w = s.lowlink w) →
      Parts succ s' frames stack := by
  intro frames
  induction frames with
  | nil =>
    intro stack h _
    exact h
  | cons f frames ih =>
    intro stack h hkeep
    obtain ⟨above,rest,rfl,hpart,hparent,hrest⟩ := h
    refine ⟨above,rest,rfl,?_,hparent,ih hrest ?_⟩
    · apply hpart.mono hext
      · exact Nat.le_of_eq (hkeep f.node (by simp)).2
      · intro w hw
        exact hkeep w (List.mem_append_left _ hw)
    · intro w hw
      exact hkeep w (by simp [hw])

theorem popUntil_append (hv : v ∉ above) (rest : List V) :
    popUntil v (above ++ v :: rest) = (above ++ [v],rest) := by
  induction above with
  | nil => simp [popUntil]
  | cons u above ih =>
    have hne : u ≠ v := by
      rintro rfl
      exact hv List.mem_cons_self
    have habove : v ∉ above := fun h => hv (List.mem_cons_of_mem _ h)
    rw [List.cons_append,popUntil,if_neg hne,ih habove]
    rfl

omit [DecidableEq V] in
theorem Core.nodup_stack (h : Core succ s) : s.stack.Nodup := by
  apply h.sorted.imp
  rintro v w hlt rfl
  exact Nat.lt_irrefl _ hlt

omit [DecidableEq V] in
theorem Core.visited_of_mem (h : Core succ s) (hv : v ∈ s.stack) : s.index v ≠ none :=
  ((h.stack v).mp hv).1

omit [DecidableEq V] in
theorem Core.split (h : Core succ s) (hstack : s.stack = above ++ v :: rest) :
    (∀ w ∈ above, s.number v < s.number w) ∧ (∀ w ∈ rest, s.number w < s.number v) ∧
      (∀ w ∈ s.stack, s.number v ≤ s.number w → w ∈ above ++ [v]) := by
  have hsorted := h.sorted
  rw [hstack,List.pairwise_append,List.pairwise_cons] at hsorted
  obtain ⟨_,⟨hbelow,_⟩,hover⟩ := hsorted
  refine ⟨fun w hw => hover w hw v List.mem_cons_self,hbelow,?_⟩
  intro w hw hle
  rw [hstack] at hw
  cases List.mem_append.mp hw with
  | inl hw => exact List.mem_append_left _ hw
  | inr hw =>
    cases List.mem_cons.mp hw with
    | inl heq => simp [heq]
    | inr hw =>
      have hlt := hbelow w hw
      omega

theorem extends_discover (h : s.index v = none) : Extends s (s.discover succ v) := by
  constructor
  · intro u hu
    apply Function.update_of_ne
    rintro rfl
    exact hu h
  · exact fun u hu => hu

theorem number_discover_self : (s.discover succ v).number v = s.counter := by
  simp [State.number,State.discover]

theorem lowlink_discover_of_ne (h : u ≠ v) : (s.discover succ v).lowlink u = s.lowlink u :=
  Function.update_of_ne h _ _

theorem Core.discover (h : Core succ s) (hv : s.index v = none) :
    Core succ (s.discover succ v) := by
  have hext : Extends s (s.discover succ v) := extends_discover hv
  have hnone : s.component v = none := by
    by_contra hne
    exact h.visited v hne hv
  have hself : (s.discover succ v).index v = some s.counter := Function.update_self _ _ _
  have hne : ∀ u, s.index u ≠ none → u ≠ v := by
    rintro u hu rfl
    exact hu hv
  constructor
  · intro u
    show u ∈ v :: s.stack ↔ _ ∧ s.component u = none
    by_cases heq : u = v
    · subst heq
      simp [hself,hnone]
    · have hindex : (s.discover succ v).index u = s.index u := Function.update_of_ne heq _ _
      rw [List.mem_cons,hindex]
      simp [heq,h.stack u]
  · apply List.pairwise_cons.mpr
    constructor
    · intro u hu
      have hvis := h.visited_of_mem hu
      rw [number_discover_self,hext.number hvis]
      exact h.counter u hvis
    · apply h.sorted.imp_of_mem
      intro a b ha hb hlt
      rw [hext.number (h.visited_of_mem ha),hext.number (h.visited_of_mem hb)]
      exact hlt
  · intro u hu
    show _ < s.counter + 1
    by_cases heq : u = v
    · subst heq
      rw [number_discover_self]
      exact Nat.lt_succ_self _
    · have hindex : (s.discover succ v).index u = s.index u := Function.update_of_ne heq _ _
      rw [hindex] at hu
      rw [hext.number hu]
      exact Nat.lt_succ_of_lt (h.counter u hu)
  · intro u hu
    cases List.mem_cons.mp hu with
    | inl heq =>
      subst heq
      have hlow : (s.discover succ u).lowlink u = s.counter := Function.update_self _ _ _
      rw [hlow,number_discover_self]
      exact ⟨Nat.le_refl _,u,List.mem_cons_self,number_discover_self,.refl⟩
    | inr hu =>
      have hvis := h.visited_of_mem hu
      obtain ⟨hle,x,hx,hnum,hreach⟩ := h.lowlink u hu
      rw [lowlink_discover_of_ne (hne u hvis),hext.number hvis]
      refine ⟨hle,x,List.mem_cons_of_mem _ hx,?_,hreach⟩
      rw [hext.number (h.visited_of_mem hx)]
      exact hnum
  · intro u hu
    have hvis := h.visited u hu
    rw [hext.index u hvis]
    exact hvis
  · exact h.closed
  · exact h.strong
  · exact h.members
  · exact h.nodup

theorem Parts.discover (hcore : Core succ s) (hv : s.index v = none)
    (h : Parts succ s frames s.stack) :
    Parts succ (s.discover succ v) frames s.stack := by
  apply h.mono (extends_discover hv)
  intro w hw
  have hvis := hcore.visited_of_mem hw
  refine ⟨hvis,lowlink_discover_of_ne ?_⟩
  rintro rfl
  exact hvis hv

theorem part_discover (s : State V) (v : V) : Part succ (s.discover succ v) ⟨v,succ v⟩ [] := by
  constructor
  · exact ⟨[],rfl,by simp⟩
  · simp
  · simp
  · simp
  · simp

theorem lowlink_lower_self (s : State V) (v : V) (n : ℕ) :
    (s.lower v n).lowlink v = min (s.lowlink v) n :=
  Function.update_self _ _ _

theorem lowlink_lower_of_ne (n : ℕ) (h : u ≠ v) : (s.lower v n).lowlink u = s.lowlink u :=
  Function.update_of_ne h _ _

theorem Core.lower (h : Core succ s) {n : ℕ}
    (hn : ∃ u ∈ s.stack, s.number u = n ∧ Reach succ v u) : Core succ (s.lower v n) := by
  constructor
  · exact h.stack
  · exact h.sorted
  · exact h.counter
  · intro w hw
    obtain ⟨hle,hlow⟩ := h.lowlink w hw
    by_cases heq : w = v
    · subst heq
      rw [lowlink_lower_self]
      refine ⟨Nat.le_trans (Nat.min_le_left _ _) hle,?_⟩
      cases Nat.le_total (s.lowlink w) n with
      | inl hmin =>
        rw [Nat.min_eq_left hmin]
        exact hlow
      | inr hmin =>
        rw [Nat.min_eq_right hmin]
        exact hn
    · rw [lowlink_lower_of_ne n heq]
      exact ⟨hle,hlow⟩
  · exact h.visited
  · exact h.closed
  · exact h.strong
  · exact h.members
  · exact h.nodup

theorem lower_of_le {n : ℕ} (h : s.lowlink v ≤ n) : s.lower v n = s := by
  have hlow : Function.update s.lowlink v (min (s.lowlink v) n) = s.lowlink := by
    rw [Nat.min_eq_left h,Function.update_eq_self]
  rw [State.lower,hlow]

omit [DecidableEq V] in
theorem Core.reach_root (h : Core succ s) (hstack : s.stack = above ++ v :: rest)
    (hpart : Part succ s f above) (hf : f.node = v) (hroot : s.lowlink v = s.number v) :
    ∀ n, ∀ w ∈ above, s.number w ≤ n → Reach succ w v := by
  subst hf
  intro n
  induction n with
  | zero =>
    intro w hw hle
    have hlt := hpart.finished w hw
    omega
  | succ n ih =>
    intro w hw hle
    have hmem : w ∈ s.stack := by simp [hstack,hw]
    obtain ⟨_,u,hu,hnum,hreach⟩ := h.lowlink w hmem
    have hlow := hpart.lowlink w hw
    have hlt := hpart.finished w hw
    cases List.mem_append.mp ((h.split hstack).2.2 u hu (by omega)) with
    | inl habove => exact hreach.trans (ih u habove (by omega))
    | inr heq =>
      rw [List.mem_singleton.mp heq] at hreach
      exact hreach

/-- What is popped when the root `v` is done: the nodes of its part and `v` itself. -/
structure Popped (succ : V → List V) (s : State V) (v : V) (popped rest : List V) : Prop where
  stack : s.stack = popped ++ rest
  close : popUntil v s.stack = (popped,rest)
  older : ∀ w ∈ rest, s.number w < s.number v
  newer : ∀ w ∈ s.stack, s.number v ≤ s.number w → w ∈ popped
  upTo : ∀ w ∈ popped, s.number v ≤ s.number w
  covered : ∀ w ∈ popped, ∀ u ∈ succ w, s.index u ≠ none ∧
    (s.component u = none → s.number v ≤ s.number u)
  reach : ∀ w ∈ popped, Reach succ v w ∧ Reach succ w v

theorem Core.popped (h : Core succ s) (hstack : s.stack = above ++ v :: rest)
    (hpart : Part succ s ⟨v,[]⟩ above) (hroot : s.lowlink v = s.number v) :
    Popped succ s v (above ++ [v]) rest := by
  obtain ⟨habove,hbelow,hfrom⟩ := h.split hstack
  have hv : v ∉ above := fun hv => Nat.lt_irrefl _ (habove v hv)
  constructor
  · rw [hstack,List.append_assoc]
    rfl
  · rw [hstack,popUntil_append hv]
  · exact hbelow
  · exact hfrom
  · intro w hw
    cases List.mem_append.mp hw with
    | inl hw => exact Nat.le_of_lt (habove w hw)
    | inr hw => rw [List.mem_singleton.mp hw]
  · intro w hw u hu
    rw [← hroot]
    cases List.mem_append.mp hw with
    | inl hw => exact hpart.covered w hw u hu
    | inr hw =>
      obtain ⟨before,hsplit,hbefore⟩ := hpart.processed
      rw [List.mem_singleton.mp hw,hsplit,List.append_nil] at hu
      exact hbefore u hu
  · intro w hw
    cases List.mem_append.mp hw with
    | inl hw =>
      exact ⟨hpart.reach w hw,
        h.reach_root hstack hpart rfl hroot (s.number w) w hw (Nat.le_refl _)⟩
    | inr hw =>
      rw [List.mem_singleton.mp hw]
      exact ⟨.refl,.refl⟩

section Popped

variable {popped : List V}

theorem Popped.close_eq (h : Popped succ s v popped rest) :
    s.close v =
      { s with
        component := fun u => if u ∈ popped then some s.components.length else s.component u
        stack := rest
        components := popped :: s.components } := by
  rw [State.close,h.close]

theorem Popped.component_eq (h : Popped succ s v popped rest) (u : V) :
    (s.close v).component u =
      if u ∈ popped then some s.components.length else s.component u := by
  rw [h.close_eq]

omit [DecidableEq V] in
theorem Core.component_lt (h : Core succ s) {k : ℕ} (hu : s.component u = some k) :
    k < s.components.length := by
  obtain ⟨c,hc,_⟩ := (h.members u k).mp hu
  have hlength := (List.getElem?_eq_some_iff.mp hc).1
  rwa [List.length_reverse] at hlength

section

variable (h : Popped succ s v popped rest)

include h

theorem Popped.component_none (hcore : Core succ s) (hw : w ∈ popped) : s.component w = none := by
  have hmem : w ∈ s.stack := by
    rw [h.stack]
    exact List.mem_append_left _ hw
  exact ((hcore.stack w).mp hmem).2

theorem Popped.not_mem (hw : w ∈ rest) : w ∉ popped := by
  intro hw'
  have hlt := h.older w hw
  have hle := h.upTo w hw'
  omega

theorem Popped.closed (hcore : Core succ s) {k : ℕ} (hw : (s.close v).component w = some k)
    (hu : u ∈ succ w) :
    ∃ l ≤ k, (s.close v).component u = some l := by
  rw [h.component_eq] at hw ⊢
  split at hw
  · rename_i hmem
    cases hw
    obtain ⟨hvis,hcount⟩ := h.covered w hmem u hu
    split
    · exact ⟨_,Nat.le_refl _,rfl⟩
    · rename_i hout
      cases hu' : s.component u with
      | none =>
        have hstacked : u ∈ s.stack := (hcore.stack u).mpr ⟨hvis,hu'⟩
        exact absurd (h.newer u hstacked (hcount hu')) hout
      | some l => exact ⟨l,Nat.le_of_lt (hcore.component_lt hu'),rfl⟩
  · obtain ⟨l,hl,hul⟩ := hcore.closed w k hw u hu
    have hout : u ∉ popped := by
      intro hmem
      rw [h.component_none hcore hmem] at hul
      cases hul
    rw [if_neg hout]
    exact ⟨l,hl,hul⟩

theorem Popped.strong (hcore : Core succ s) (hw : (s.close v).component w ≠ none)
    (heq : (s.close v).component w = (s.close v).component u) : Reach succ w u := by
  rw [h.component_eq] at hw
  rw [h.component_eq,h.component_eq] at heq
  by_cases hwmem : w ∈ popped <;> by_cases humem : u ∈ popped
  · exact (h.reach w hwmem).2.trans (h.reach u humem).1
  · rw [if_pos hwmem,if_neg humem] at heq
    exact absurd (hcore.component_lt heq.symm) (Nat.lt_irrefl _)
  · rw [if_neg hwmem,if_pos humem] at heq
    exact absurd (hcore.component_lt heq) (Nat.lt_irrefl _)
  · rw [if_neg hwmem,if_neg humem] at heq
    rw [if_neg hwmem] at hw
    exact hcore.strong w u hw heq

theorem Popped.members (hcore : Core succ s) (w : V) (k : ℕ) :
    (s.close v).component w = some k ↔
      ∃ c, (popped :: s.components).reverse[k]? = some c ∧ w ∈ c := by
  rw [h.component_eq,List.reverse_cons]
  have hold : ∀ c, k < s.components.reverse.length →
      ((s.components.reverse ++ [popped])[k]? = some c ↔ s.components.reverse[k]? = some c) := by
    intro c hk
    rw [List.getElem?_append_left hk]
  have hnew : ∀ c, ¬ k < s.components.reverse.length →
      (s.components.reverse ++ [popped])[k]? = some c → k = s.components.length ∧ c = popped := by
    intro c hk hc
    have hk' := (List.getElem?_eq_some_iff.mp hc).1
    simp only [List.length_append,List.length_reverse,List.length_singleton] at hk hk'
    have hlast : k = s.components.length := by omega
    subst hlast
    simp at hc
    exact ⟨rfl,hc.symm⟩
  split
  · rename_i hmem
    constructor
    · intro hk
      cases hk
      exact ⟨popped,by simp,hmem⟩
    · rintro ⟨c,hc,hwc⟩
      by_cases hk : k < s.components.reverse.length
      · have hcomp := (hcore.members w k).mpr ⟨c,(hold c hk).mp hc,hwc⟩
        rw [h.component_none hcore hmem] at hcomp
        cases hcomp
      · rw [(hnew c hk hc).1]
  · rename_i hmem
    rw [hcore.members w k]
    constructor
    · rintro ⟨c,hc,hwc⟩
      have hk := (List.getElem?_eq_some_iff.mp hc).1
      exact ⟨c,(hold c hk).mpr hc,hwc⟩
    · rintro ⟨c,hc,hwc⟩
      by_cases hk : k < s.components.reverse.length
      · exact ⟨c,(hold c hk).mp hc,hwc⟩
      · rw [(hnew c hk hc).2] at hwc
        exact absurd hwc hmem

end

theorem Core.close (hcore : Core succ s) (h : Popped succ s v popped rest) :
    Core succ (s.close v) := by
  have hclose := h.close_eq
  have hnumber : ∀ u, (s.close v).number u = s.number u := by
    intro u
    rw [hclose]
    rfl
  have hstack : (s.close v).stack = rest := by rw [hclose]
  have hindex : (s.close v).index = s.index := by rw [hclose]
  have hlowlink : (s.close v).lowlink = s.lowlink := by rw [hclose]
  have hmem : ∀ w ∈ rest, w ∈ s.stack := by
    intro w hw
    rw [h.stack]
    exact List.mem_append_right _ hw
  constructor
  · intro w
    rw [hstack,hindex,h.component_eq]
    split
    · rename_i hw
      simp only [reduceCtorEq,and_false,iff_false]
      exact fun hw' => h.not_mem hw' hw
    · rename_i hw
      rw [← hcore.stack w,h.stack,List.mem_append]
      simp [hw]
  · rw [hstack]
    simp only [hnumber]
    have hsorted := hcore.sorted
    rw [h.stack,List.pairwise_append] at hsorted
    exact hsorted.2.1
  · intro w hw
    rw [hindex] at hw
    rw [hnumber,hclose]
    exact hcore.counter w hw
  · intro w hw
    rw [hstack] at hw
    obtain ⟨hle,u,hu,hnum,hreach⟩ := hcore.lowlink w (hmem w hw)
    rw [hlowlink,hnumber,hstack]
    refine ⟨hle,u,?_,(hnumber u).trans hnum,hreach⟩
    rw [h.stack] at hu
    cases List.mem_append.mp hu with
    | inl hu =>
      have hold := h.older w hw
      have hup := h.upTo u hu
      omega
    | inr hu => exact hu
  · intro w hw
    rw [h.component_eq] at hw
    rw [hindex]
    by_cases hpop : w ∈ popped
    · apply hcore.visited_of_mem
      rw [h.stack]
      exact List.mem_append_left _ hpop
    · rw [if_neg hpop] at hw
      exact hcore.visited w hw
  · exact fun w k hw u hu => h.closed hcore hw hu
  · exact fun w u hw heq => h.strong hcore hw heq
  · intro w k
    rw [h.members hcore w k,hclose]
  · intro c hc
    rw [hclose] at hc
    cases List.mem_cons.mp hc with
    | inl heq =>
      rw [heq]
      have hnodup := hcore.nodup_stack
      rw [h.stack] at hnodup
      exact hnodup.of_append_left
    | inr hc => exact hcore.nodup c hc

end Popped

theorem extends_close (s : State V) (v : V) : Extends s (s.close v) := by
  constructor
  · exact fun _ _ => rfl
  · intro u hu
    have hu' : (if u ∈ (popUntil v s.stack).1 then some s.components.length
      else s.component u) = none := hu
    split at hu'
    · cases hu'
    · exact hu'

omit [DecidableEq V] in
theorem Core.withFrames (h : Core succ s) (frames : List (Frame V)) :
    Core succ { s with frames } :=
  ⟨h.stack,h.sorted,h.counter,h.lowlink,h.visited,h.closed,h.strong,h.members,h.nodup⟩

omit [DecidableEq V] in
theorem Parts.withFrames (h : Parts succ s frames stack) (frames' : List (Frame V)) :
    Parts succ { s with frames := frames' } frames stack := by
  induction frames generalizing stack with
  | nil => exact h
  | cons f frames ih =>
    obtain ⟨above,rest,hstack,hpart,hparent,hrest⟩ := h
    exact ⟨above,rest,hstack,⟨hpart.processed,hpart.covered,hpart.reach,hpart.lowlink,
      hpart.finished⟩,hparent,ih hrest⟩

omit [DecidableEq V] in
theorem Part.advance {rest : List V} (h : Part succ s ⟨v,w :: rest⟩ above)
    (hw : Covered s v w) : Part succ s ⟨v,rest⟩ above := by
  obtain ⟨before,hsplit,hbefore⟩ := h.processed
  refine ⟨⟨before ++ [w],?_,?_⟩,h.covered,h.reach,h.lowlink,h.finished⟩
  · rw [List.append_assoc]
    exact hsplit
  · intro u hu
    cases List.mem_append.mp hu with
    | inl hu => exact hbefore u hu
    | inr hu =>
      rw [List.mem_singleton.mp hu]
      exact hw

omit [DecidableEq V] in
theorem number_eq {n : ℕ} (h : s.index v = some n) : s.number v = n := by
  rw [State.number,h]
  rfl

section

variable (h : Inv succ s)

include h

theorem Inv.revisit {rest : List V} {n : ℕ} (hframes : s.frames = ⟨v,w :: rest⟩ :: frames)
    (hw : s.index w = some n) :
    Inv succ (if s.component w = none then
        { s with frames := ⟨v,rest⟩ :: frames }.lower v n
      else { s with frames := ⟨v,rest⟩ :: frames }) := by
  have hparts := h.parts
  rw [hframes] at hparts
  obtain ⟨above,below,hstack,hpart,hparent,hbelow⟩ := hparts
  have hvis : s.index w ≠ none := by simp [hw]
  have hedge : w ∈ succ v := by
    obtain ⟨before,hsplit,_⟩ := hpart.processed
    simp [show succ v = _ from hsplit]
  let s₁ : State V := { s with frames := ⟨v,rest⟩ :: frames }
  have hcore : Core succ s₁ := h.core.withFrames _
  split
  · rename_i hnone
    have hstacked : w ∈ s.stack := (h.core.stack w).mpr ⟨hvis,hnone⟩
    constructor
    · apply hcore.lower
      exact ⟨w,hstacked,number_eq hw,Relation.ReflTransGen.single hedge⟩
    · have hext : Extends s (s₁.lower v n) := ⟨fun _ _ => rfl,fun _ h => h⟩
      have hlow : (s₁.lower v n).lowlink v ≤ s.lowlink v := by
        rw [lowlink_lower_self]
        exact Nat.min_le_left _ _
      have hnodup := h.core.nodup_stack
      rw [hstack] at hnodup
      have hkeep : ∀ u ∈ above ++ below, s.index u ≠ none ∧
          (s₁.lower v n).lowlink u = s.lowlink u := by
        intro u hu
        have hne : u ≠ v := by
          rintro rfl
          exact (List.nodup_middle.mp hnodup).notMem hu
        refine ⟨h.core.visited_of_mem ?_,lowlink_lower_of_ne n hne⟩
        rw [hstack]
        cases List.mem_append.mp hu with
        | inl hu => exact List.mem_append_left _ hu
        | inr hu => exact List.mem_append_right _ (List.mem_cons_of_mem _ hu)
      refine ⟨above,below,hstack,?_,hparent,?_⟩
      · apply Part.advance (w := w)
        · exact hpart.mono hext hlow fun u hu => hkeep u (List.mem_append_left _ hu)
        · refine ⟨hvis,fun _ => ?_⟩
          rw [lowlink_lower_self,hext.number hvis,number_eq hw]
          exact Nat.min_le_right _ _
      · exact hbelow.mono hext fun u hu => hkeep u (List.mem_append_right _ hu)
  · rename_i hclosed
    refine ⟨hcore,above,below,hstack,?_,hparent,hbelow.withFrames _⟩
    have hext : Extends s s₁ := ⟨fun _ _ => rfl,fun _ h => h⟩
    apply Part.advance (w := w)
    · exact hpart.mono hext (Nat.le_refl _) fun u hu => ⟨h.core.visited_of_mem (by
        rw [hstack]
        exact List.mem_append_left _ hu),rfl⟩
    · exact ⟨hvis,fun hnone => absurd hnone hclosed⟩

theorem Inv.descend {rest : List V} (hframes : s.frames = ⟨v,w :: rest⟩ :: frames)
    (hw : s.index w = none) :
    Inv succ ({ s with frames := ⟨v,rest⟩ :: frames }.discover succ w) := by
  have hparts := h.parts
  rw [hframes] at hparts
  let s₁ : State V := { s with frames := ⟨v,rest⟩ :: frames }
  have hcore : Core succ s₁ := h.core.withFrames _
  refine ⟨hcore.discover hw,[],s.stack,rfl,part_discover s₁ w,?_,?_⟩
  · intro parent hparent
    obtain ⟨_,_,_,hpart,_,_⟩ := hparts
    obtain ⟨before,hsplit,_⟩ := hpart.processed
    cases hparent
    simp [show succ v = _ from hsplit]
  · obtain ⟨above,below,hstack,hpart,hparent,hbelow⟩ :=
      Parts.discover h.core hw hparts
    refine ⟨above,below,hstack,?_,hparent,hbelow.withFrames (s₁.discover succ w).frames⟩
    have hcovered : Covered (s₁.discover succ w) v w := by
      have hv : v ∈ s₁.stack := by
        show v ∈ s.stack
        rw [hstack]
        simp
      have hne : v ≠ w := by
        rintro rfl
        exact h.core.visited_of_mem hv hw
      constructor
      · rw [State.discover]
        simp
      · intro _
        rw [number_discover_self,lowlink_discover_of_ne hne]
        have hlt := hcore.counter v (hcore.visited_of_mem hv)
        have hle := (hcore.lowlink v hv).1
        omega
    have hpart' : Part succ (s₁.discover succ w) ⟨v,w :: rest⟩ above :=
      ⟨hpart.processed,hpart.covered,hpart.reach,hpart.lowlink,hpart.finished⟩
    exact hpart'.advance hcovered

/-- A node that is not a root goes over to its parent. -/
theorem Inv.ascend {parent : Frame V} (hframes : s.frames = ⟨v,[]⟩ :: parent :: frames)
    (hroot : s.lowlink v ≠ s.number v) :
    Inv succ ({ s with frames := parent :: frames }.lower parent.node (s.lowlink v)) := by
  have hparts := h.parts
  rw [hframes] at hparts
  obtain ⟨above,below,hstack,hpart,hparent,above',rest,rfl,hpart',hgrand,hrest⟩ := hparts
  have hedge : v ∈ succ parent.node := hparent parent rfl
  let s₁ : State V := { s with frames := parent :: frames }
  let s₂ : State V := s₁.lower parent.node (s.lowlink v)
  have hcore : Core succ s₁ := h.core.withFrames _
  have hv : v ∈ s.stack := by simp [hstack]
  obtain ⟨hle,x,hx,hnum,hreach⟩ := h.core.lowlink v hv
  have hext : Extends s s₂ := ⟨fun _ _ => rfl,fun _ h => h⟩
  have hnodup := h.core.nodup_stack
  have hne : ∀ u ∈ above ++ v :: above' ++ rest, u ≠ parent.node := by
    rintro u hu rfl
    have hnodup' : (above ++ v :: above' ++ parent.node :: rest).Nodup := by
      rw [hstack] at hnodup
      simpa using hnodup
    exact (List.nodup_middle.mp hnodup').notMem hu
  have hkeep : ∀ u ∈ above ++ v :: above' ++ rest, s.index u ≠ none ∧
      s₂.lowlink u = s.lowlink u := by
    intro u hu
    refine ⟨h.core.visited_of_mem ?_,lowlink_lower_of_ne _ (hne u hu)⟩
    rw [hstack]
    simp only [List.mem_append,List.mem_cons] at hu ⊢
    tauto
  have hlow : s₂.lowlink parent.node ≤ s.lowlink v := by
    rw [lowlink_lower_self]
    exact Nat.min_le_right _ _
  have hlow' : s₂.lowlink parent.node ≤ s.lowlink parent.node := by
    rw [lowlink_lower_self]
    exact Nat.min_le_left _ _
  have hpartₚ : Part succ s₂ parent above' := hpart'.mono hext hlow'
    fun u hu => hkeep u (by simp [hu])
  constructor
  · apply hcore.lower
    exact ⟨x,hx,hnum,Relation.ReflTransGen.head hedge hreach⟩
  · refine ⟨above ++ v :: above',rest,?_,?_,hgrand,?_⟩
    · show s.stack = _
      rw [hstack]
      simp
    · constructor
      · exact hpartₚ.processed
      · intro w hw u hu
        simp only [List.mem_append,List.mem_cons] at hw
        obtain hw | rfl | hw := hw
        · exact (hpart.covered w hw u hu).mono hext hlow
        · obtain ⟨before,hsplit,hbefore⟩ := hpart.processed
          rw [show succ w = _ from hsplit,List.append_nil] at hu
          exact (hbefore u hu).mono hext hlow
        · exact hpartₚ.covered w hw u hu
      · intro w hw
        simp only [List.mem_append,List.mem_cons] at hw
        obtain hw | rfl | hw := hw
        · exact Relation.ReflTransGen.head hedge (hpart.reach w hw)
        · exact Relation.ReflTransGen.single hedge
        · exact hpartₚ.reach w hw
      · intro w hw
        rw [(hkeep w (List.mem_append_left _ hw)).2]
        simp only [List.mem_append,List.mem_cons] at hw
        obtain hw | rfl | hw := hw
        · exact Nat.le_trans hlow (hpart.lowlink w hw)
        · exact hlow
        · exact Nat.le_trans hlow' (hpart'.lowlink w hw)
      · intro w hw
        have hkept := hkeep w (List.mem_append_left _ hw)
        rw [hkept.2,hext.number hkept.1]
        simp only [List.mem_append,List.mem_cons] at hw
        obtain hw | rfl | hw := hw
        · exact hpart.finished w hw
        · omega
        · exact hpart'.finished w hw
    · exact hrest.mono hext fun u hu => hkeep u (List.mem_append_right _ hu)

theorem Inv.finish (hframes : s.frames = ⟨v,[]⟩ :: frames) (hroot : s.lowlink v = s.number v) :
    Inv succ ({ s with frames }.close v) ∧ ∀ parent ∈ frames.head?,
      ({ s with frames }.close v).lowlink parent.node ≤ s.lowlink v := by
  have hparts := h.parts
  rw [hframes] at hparts
  obtain ⟨above,below,hstack,hpart,_,hbelow⟩ := hparts
  dsimp only at hstack
  let s₁ : State V := { s with frames }
  have hcore : Core succ s₁ := h.core.withFrames _
  have hpart₁ : Part succ s₁ ⟨v,[]⟩ above :=
    ⟨hpart.processed,hpart.covered,hpart.reach,hpart.lowlink,hpart.finished⟩
  have hpopped := hcore.popped hstack hpart₁ hroot
  have hclose := hpopped.close_eq
  have hstack' : (s₁.close v).stack = below := by rw [hclose]
  have hext : Extends s (s₁.close v) :=
    ⟨(extends_close s₁ v).index,(extends_close s₁ v).component⟩
  refine ⟨⟨hcore.close hpopped,?_⟩,?_⟩
  · show Parts succ (s₁.close v) frames (s₁.close v).stack
    rw [hstack']
    apply hbelow.mono hext
    intro w hw
    refine ⟨h.core.visited_of_mem ?_,rfl⟩
    rw [hstack]
    exact List.mem_append_right _ (List.mem_cons_of_mem _ hw)
  · intro parent hparent
    show s.lowlink parent.node ≤ s.lowlink v
    have hmem : parent.node ∈ below := by
      cases frames with
      | nil => cases hparent
      | cons f frames =>
        cases hparent
        obtain ⟨_,_,rfl,_⟩ := hbelow
        simp
    have hstacked : parent.node ∈ s.stack := by
      rw [hstack]
      exact List.mem_append_right _ (List.mem_cons_of_mem _ hmem)
    have hle := (h.core.lowlink parent.node hstacked).1
    have hlt := (h.core.split hstack).2.1 parent.node hmem
    omega

theorem Inv.step (hstep : s.step succ = some s') : Inv succ s' := by
  unfold State.step at hstep
  split at hstep
  · cases hstep
  · rename_i v w rest frames hframes
    dsimp only at hstep
    split at hstep
    · rename_i n hw
      have hinv := h.revisit hframes hw
      split at hstep <;> rename_i hcomp <;> cases hstep
      · rw [if_pos hcomp] at hinv
        exact hinv
      · rw [if_neg hcomp] at hinv
        exact hinv
    · rename_i hw
      cases hstep
      exact h.descend hframes hw
  · rename_i v frames hframes
    dsimp only at hstep
    have hparts := h.parts
    rw [hframes] at hparts
    obtain ⟨above,below,hstack,_,_,hbelow⟩ := hparts
    dsimp only at hstack
    have hv : v ∈ s.stack := by simp [hstack]
    have hvis := h.core.visited_of_mem hv
    have hnumber : s.index v = some (s.number v) := by
      obtain ⟨n,hn⟩ := Option.ne_none_iff_exists'.mp hvis
      rw [number_eq hn]
      exact hn
    by_cases hroot : s.lowlink v = s.number v
    · have hindex : s.index v = some (s.lowlink v) := by rw [hroot,hnumber]
      obtain ⟨hinv,hlow⟩ := h.finish hframes hroot
      rw [if_pos hindex] at hstep
      cases frames with
      | nil =>
        cases hstep
        exact hinv
      | cons parent frames =>
        cases hstep
        show Inv succ (({ s with frames := parent :: frames }.close v).lower parent.node
          (s.lowlink v))
        rw [lower_of_le (hlow parent rfl)]
        exact hinv
    · have hindex : s.index v ≠ some (s.lowlink v) := by
        intro heq
        rw [hnumber] at heq
        exact hroot (Option.some.inj heq).symm
      rw [if_neg hindex] at hstep
      cases frames with
      | nil =>
        exfalso
        -- the bottom of the stack has the smallest number, so it is a root
        obtain ⟨hle,u,hu,hnum,_⟩ := h.core.lowlink v hv
        have hempty : below = [] := hbelow
        obtain ⟨habove,_,_⟩ := h.core.split hstack
        rw [hstack,hempty] at hu
        cases List.mem_append.mp hu with
        | inl hu =>
          have hlt := habove u hu
          omega
        | inr hu =>
          rw [List.mem_singleton.mp hu] at hnum
          omega
      | cons parent frames =>
        cases hstep
        exact h.ascend hframes hroot

end

/-- The rounds left: one for each frame and each successor, now or when a node is discovered. -/
def weight (succ : V → List V) (nodes : Finset V) (s : State V) : ℕ :=
  (∑ v ∈ nodes with s.index v = none, ((succ v).length + 1)) +
    (s.frames.map fun f => f.rest.length + 1).sum

theorem weight_discover {nodes : Finset V} (hv : v ∈ nodes) (hnone : s.index v = none) :
    weight succ nodes (s.discover succ v) = weight succ nodes s := by
  have herase : (nodes.filter fun u => (s.discover succ v).index u = none) =
      (nodes.filter fun u => s.index u = none).erase v := by
    ext u
    rw [Finset.mem_filter,Finset.mem_erase,Finset.mem_filter]
    by_cases heq : u = v
    · subst heq
      simp [State.discover]
    · have hindex : (s.discover succ v).index u = s.index u := Function.update_of_ne heq _ _
      rw [hindex]
      simp [heq]
  have hmem : v ∈ nodes.filter fun u => s.index u = none := by simp [hv,hnone]
  have hsum := Finset.add_sum_erase _ (fun u => (succ u).length + 1) hmem
  unfold weight
  rw [herase,← hsum]
  simp only [State.discover,List.map_cons,List.sum_cons]
  omega

theorem weight_step {nodes : Finset V} (hnodes : ∀ v, ∀ w ∈ succ v, w ∈ nodes)
    (h : Inv succ s) (hstep : s.step succ = some s') :
    weight succ nodes s' + 1 = weight succ nodes s := by
  unfold State.step at hstep
  split at hstep
  · cases hstep
  · rename_i v w rest frames hframes
    dsimp only at hstep
    have hparts := h.parts
    rw [hframes] at hparts
    obtain ⟨_,_,_,hpart,_,_⟩ := hparts
    obtain ⟨before,hsplit,_⟩ := hpart.processed
    have hedge : w ∈ succ v := by simp [show succ v = _ from hsplit]
    have hframe : weight succ nodes { s with frames := ⟨v,rest⟩ :: frames } + 1 =
        weight succ nodes s := by
      unfold weight
      rw [hframes]
      simp only [List.map_cons,List.sum_cons,List.length_cons]
      omega
    split at hstep
    · split at hstep <;> cases hstep <;> exact hframe
    · rename_i hw
      cases hstep
      have hdiscover := @weight_discover _ _ succ { s with frames := ⟨v,rest⟩ :: frames } w nodes
        (hnodes v w hedge) hw
      rw [hdiscover]
      exact hframe
  · rename_i v frames hframes
    dsimp only at hstep
    have hframe : (∑ u ∈ nodes with s.index u = none, ((succ u).length + 1)) +
        (frames.map fun f => f.rest.length + 1).sum + 1 = weight succ nodes s := by
      unfold weight
      rw [hframes]
      simp only [List.map_cons,List.sum_cons,List.length_nil]
      omega
    split at hstep <;> split at hstep <;> cases hstep <;> exact hframe

/-- The loop, with a bound on its rounds. -/
def run (succ : V → List V) : ℕ → State V → Option (State V)
  | fuel,s =>
      match s.step succ with
      | none => some s
      | some s' =>
          match fuel with
          | 0 => none
          | fuel + 1 => run succ fuel s'

theorem step_eq_none_iff : s.step succ = none ↔ s.frames = [] := by
  unfold State.step
  split
  · rename_i hframes
    simp [hframes]
  · rename_i hframes
    dsimp only
    rw [hframes]
    split
    · split <;> simp
    · simp
  · rename_i hframes
    dsimp only
    rw [hframes]
    split <;> simp

theorem discovered_step (hstep : s.step succ = some s') (hv : s.index v ≠ none) :
    s'.index v = s.index v := by
  unfold State.step at hstep
  split at hstep
  · cases hstep
  · dsimp only at hstep
    split at hstep
    · split at hstep <;> cases hstep <;> rfl
    · rename_i hw
      cases hstep
      apply Function.update_of_ne
      rintro rfl
      exact hv hw
  · dsimp only at hstep
    split at hstep <;> split at hstep <;> cases hstep <;> rfl

theorem run_spec {nodes : Finset V} (hnodes : ∀ v, ∀ w ∈ succ v, w ∈ nodes) :
    ∀ {fuel : ℕ} {s : State V}, Inv succ s → weight succ nodes s ≤ fuel →
      ∃ s', run succ fuel s = some s' ∧ Inv succ s' ∧ s'.frames = [] ∧
        weight succ nodes s' ≤ weight succ nodes s ∧
        ∀ v, s.index v ≠ none → s'.index v = s.index v := by
  intro fuel
  induction fuel with
  | zero =>
    intro s h hfuel
    have hnone : s.step succ = none := by
      by_contra hsome
      obtain ⟨s',hs'⟩ := Option.ne_none_iff_exists'.mp hsome
      have hweight := weight_step hnodes h hs'
      omega
    refine ⟨s,?_,h,step_eq_none_iff.mp hnone,Nat.le_refl _,fun _ _ => rfl⟩
    rw [run,hnone]
  | succ fuel ih =>
    intro s h hfuel
    cases hstep : s.step succ with
    | none =>
      refine ⟨s,?_,h,step_eq_none_iff.mp hstep,Nat.le_refl _,fun _ _ => rfl⟩
      rw [run,hstep]
    | some s' =>
      have hweight := weight_step hnodes h hstep
      obtain ⟨s'',hrun,hinv,hframes,hle,hindex⟩ := ih (h.step hstep) (by omega)
      refine ⟨s'',?_,hinv,hframes,by omega,?_⟩
      · rw [run,hstep]
        exact hrun
      · intro v hv
        have hv' := discovered_step hstep hv
        rw [hindex v (by rwa [hv']),hv']

omit [DecidableEq V] in
theorem Inv.stack_nil (h : Inv succ s) (hframes : s.frames = []) : s.stack = [] := by
  have hparts := h.parts
  rw [hframes] at hparts
  exact hparts

theorem Inv.root (h : Inv succ s) (hframes : s.frames = []) (hv : s.index v = none) :
    Inv succ (s.discover succ v) := by
  have hstack := h.stack_nil hframes
  refine ⟨h.core.discover hv,[],s.stack,rfl,part_discover s v,?_,?_⟩
  · rw [hframes]
    simp
  · rw [hframes]
    exact hstack

omit [DecidableEq V] in
theorem Core.order (h : Core succ s) {k : ℕ} (hv : s.component v = some k)
    (hreach : Reach succ v w) : ∃ l ≤ k, s.component w = some l := by
  induction hreach with
  | refl => exact ⟨k,Nat.le_refl k,hv⟩
  | tail _ hedge ih =>
    obtain ⟨l,hl,hcomp⟩ := ih
    obtain ⟨m,hm,hcomp'⟩ := h.closed _ l hcomp _ hedge
    exact ⟨m,Nat.le_trans hm hl,hcomp'⟩

omit [DecidableEq V] in
theorem Core.component_eq (h : Core succ s) {c : List V} {k : ℕ} (hc : s.components[k]? = some c)
    (hv : v ∈ c) : s.component v = some (s.components.length - 1 - k) := by
  apply (h.members v _).mpr
  have hk := (List.getElem?_eq_some_iff.mp hc).1
  refine ⟨c,?_,hv⟩
  rw [List.getElem?_reverse (by omega)]
  rwa [show s.components.length - 1 - (s.components.length - 1 - k) = k by omega]

omit [DecidableEq V] in
theorem Core.mem_flatten (h : Core succ s) : v ∈ s.components.flatten ↔ s.component v ≠ none := by
  rw [List.mem_flatten]
  constructor
  · rintro ⟨c,hc,hv⟩
    obtain ⟨k,hk⟩ := List.mem_iff_getElem?.mp hc
    rw [h.component_eq hk hv]
    simp
  · intro hv
    obtain ⟨k,hk⟩ := Option.ne_none_iff_exists'.mp hv
    obtain ⟨c,hc,hvc⟩ := (h.members v k).mp hk
    exact ⟨c,List.mem_reverse.mp (List.mem_of_getElem? hc),hvc⟩

omit [DecidableEq V] in
theorem Core.nodup_flatten (h : Core succ s) : s.components.flatten.Nodup := by
  apply List.nodup_flatten.mpr
  refine ⟨h.nodup,?_⟩
  apply List.pairwise_iff_getElem.mpr
  intro i j hi hj hij v hvi hvj
  have heq := h.component_eq (List.getElem?_eq_getElem hi) hvi
  rw [h.component_eq (List.getElem?_eq_getElem hj) hvj] at heq
  have hsame := Option.some.inj heq
  omega

omit [DecidableEq V] in
theorem Core.split_components (h : Core succ s) {k l : ℕ} (hv : s.component v = some k)
    (hw : s.component w = some l) (hlt : l < k) :
    ∃ later earlier, s.components = later ++ earlier ∧ v ∈ later.flatten ∧ w ∉ later.flatten := by
  obtain ⟨c,hc,hvc⟩ := (h.members v k).mp hv
  have hk := (List.getElem?_eq_some_iff.mp hc).1
  rw [List.length_reverse] at hk
  rw [List.getElem?_reverse hk] at hc
  refine ⟨s.components.take (s.components.length - k),s.components.drop (s.components.length - k),
    (List.take_append_drop _ _).symm,?_,?_⟩
  · apply List.mem_flatten.mpr
    refine ⟨c,?_,hvc⟩
    apply List.mem_of_getElem? (i := s.components.length - 1 - k)
    rw [List.getElem?_take_of_lt (by omega)]
    exact hc
  · intro hmem
    obtain ⟨c',hc',hwc'⟩ := List.mem_flatten.mp hmem
    obtain ⟨m,hm⟩ := List.mem_iff_getElem?.mp hc'
    have hlength := (List.getElem?_eq_some_iff.mp hm).1
    rw [List.length_take] at hlength
    rw [List.getElem?_take_of_lt (by omega)] at hm
    have heq := h.component_eq hm hwc'
    rw [hw] at heq
    have hsame := Option.some.inj heq
    omega

omit [DecidableEq V] in
theorem Inv.start (h : ∀ v, s.index v = none) (hcomp : ∀ v, s.component v = none)
    (hstack : s.stack = []) (hframes : s.frames = []) (hcomps : s.components = []) :
    Inv succ s := by
  constructor
  · constructor
    · simp [hstack,h]
    · rw [hstack]
      exact List.Pairwise.nil
    · simp [h]
    · simp [hstack]
    · simp [hcomp]
    · simp [hcomp]
    · simp [hcomp]
    · simp [hcomp,hcomps]
    · simp [hcomps]
  · rw [hframes]
    exact hstack

end Tarjan
