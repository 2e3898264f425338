import Jancy.Rt.DestructGraph
import Jancy.Lib.Tarjan

/-! The loops of `DestructGraph::tarjan` close the components of the graph one by one: they follow
the loop over frames with lists of successors. -/
namespace Jancy.Rt.DestructGraph

open Tarjan (Frame State Inv popUntil)

variable {Box : Type}

section Sorted

variable {α : Type} (key : α → ℕ) {l : List α}

section

variable (h : l.Pairwise fun a b => key a ≤ key b)

include h

theorem filter_append_of_sorted (i : ℕ) :
    l.filter (key · < i) ++ l.filter (i ≤ key ·) = l := by
  induction h with
  | nil => rfl
  | @cons a l hle _ ih =>
    by_cases ha : key a < i
    · have ha' : ¬ i ≤ key a := Nat.not_le.mpr ha
      simp only [List.filter_cons,ha,ha',decide_true,decide_false,if_true,Bool.false_eq_true,
        if_false,List.cons_append]
      rw [ih]
    · have ha' : i ≤ key a := Nat.le_of_not_lt ha
      have hlow : l.filter (key · < i) = [] := by
        apply List.filter_eq_nil_iff.mpr
        intro b hb
        have hab := hle b hb
        simp only [decide_eq_true_eq]
        omega
      rw [hlow,List.nil_append] at ih
      simp only [List.filter_cons,ha,ha',decide_true,decide_false,if_true,Bool.false_eq_true,
        if_false,hlow,List.nil_append]
      rw [ih]

theorem drop_countP_of_sorted (i : ℕ) :
    l.drop (l.countP (key · < i)) = l.filter (i ≤ key ·) := by
  rw [List.countP_eq_length_filter]
  nth_rewrite 2 [← filter_append_of_sorted key h i]
  exact List.drop_left

theorem slice_of_sorted (i : ℕ) :
    (l.drop (l.countP (key · < i))).take (l.countP (key · < i + 1) - l.countP (key · < i)) =
      l.filter (key · = i) := by
  rw [drop_countP_of_sorted key h]
  have hsub : (l.filter (i ≤ key ·)).Pairwise fun a b => key a ≤ key b :=
    h.sublist List.filter_sublist
  have hsplit := filter_append_of_sorted key hsub (i + 1)
  have hkey : (l.filter (i ≤ key ·)).filter (key · < i + 1) = l.filter (key · = i) := by
    rw [List.filter_filter]
    apply List.filter_congr
    intro a _
    rw [← Bool.decide_and]
    apply decide_eq_decide.mpr
    omega
  have hcount : l.countP (key · < i + 1) - l.countP (key · < i) =
      (l.filter (key · = i)).length := by
    have hsum : l.countP (key · < i + 1) =
        l.countP (key · < i) + l.countP (key · = i) := by
      clear h hsub hsplit hkey
      induction l with
      | nil => rfl
      | cons a l ih =>
        simp only [List.countP_cons,ih,decide_eq_true_eq]
        split <;> split <;> split <;> omega
    rw [hsum,Nat.add_sub_cancel_left,List.countP_eq_length_filter]
  rw [hcount,← hkey]
  nth_rewrite 2 [← hsplit]
  exact List.take_left

end

end Sorted

def succ (g : DestructGraph Box) (i : ℕ) : List ℕ :=
  ((g.sortedEdgeArray.drop (g.edgeBase i)).take (g.edgeBase (i + 1) - g.edgeBase i)).map
    Edge.dstIdx

def frameOf (g : DestructGraph Box) (f : TarjanDfsFrame) : Frame ℕ :=
  ⟨f.nodeIdx,((g.sortedEdgeArray.drop f.edgeIdx).take (f.edgeEndIdx - f.edgeIdx)).map Edge.dstIdx⟩

/-- The state with its components, the one closed last first. -/
def view (g : DestructGraph Box) (t : TarjanState) (components : List (List ℕ)) : State ℕ :=
  ⟨t.tarjanIdx,t.tarjanLowlinkIdx,t.tarjanSccIdx,t.dfsCounter,t.tarjanStack,
    t.tarjanDfsStack.map g.frameOf,components⟩

/-- Where lists begin, one after the other. -/
def bases : ℕ → List (List ℕ) → List ℕ
  | _,[] => []
  | n,c :: cs => n :: bases (n + c.length) cs

theorem bases_length (n : ℕ) (cs : List (List ℕ)) : (bases n cs).length = cs.length := by
  induction cs generalizing n with
  | nil => rfl
  | cons c cs ih => rw [bases,List.length_cons,List.length_cons,ih]

theorem bases_append (n : ℕ) (cs cs' : List (List ℕ)) :
    bases n (cs ++ cs') = bases n cs ++ bases (n + cs.flatten.length) cs' := by
  induction cs generalizing n with
  | nil => rfl
  | cons c cs ih =>
    rw [List.cons_append,bases,ih,bases,List.cons_append,List.flatten_cons,List.length_append,
      Nat.add_assoc]

structure Encodes (g : DestructGraph Box) (t : TarjanState) (components : List (List ℕ)) : Prop where
  nodes : t.tarjanSccNodeArray = components.reverse.flatten
  bases : t.tarjanSccBaseArray = bases 0 components.reverse
  frames : ∀ f ∈ t.tarjanDfsStack, f.edgeEndIdx ≤ g.sortedEdgeArray.length

variable {g : DestructGraph Box} {t t' : TarjanState} {components : List (List ℕ)}

theorem popNodes_eq (nodeIdx sccIdx : ℕ) (stack : List ℕ) :
    ∀ (component : ℕ → Option ℕ) (nodes : List ℕ),
      popNodes nodeIdx sccIdx component nodes stack =
        ((popUntil nodeIdx stack).2,
          (fun u => if u ∈ (popUntil nodeIdx stack).1 then some sccIdx else component u),
          nodes ++ (popUntil nodeIdx stack).1) := by
  induction stack with
  | nil =>
    intro component nodes
    simp [popNodes,popUntil]
  | cons j stack ih =>
    intro component nodes
    rw [popNodes,popUntil]
    dsimp only
    by_cases hj : j = nodeIdx
    · rw [if_pos hj,if_pos hj]
      refine Prod.ext rfl (Prod.ext (funext fun u => ?_) rfl)
      simp only [List.mem_singleton]
      by_cases hu : u = j
      · rw [hu,if_pos rfl,Function.update_self]
      · rw [if_neg hu,Function.update_of_ne hu]
    · rw [if_neg hj,if_neg hj,ih]
      refine Prod.ext rfl (Prod.ext (funext fun u => ?_) ?_)
      · simp only [List.mem_cons]
        by_cases hu : u = j
        · subst hu
          simp
        · simp [hu]
      · show nodes ++ [j] ++ _ = nodes ++ (j :: _)
        rw [List.append_assoc]
        rfl

theorem Encodes.popComponent (h : Encodes g t components) (nodeIdx : ℕ) :
    view g (popComponent t nodeIdx) ((popUntil nodeIdx t.tarjanStack).1 :: components) =
        (view g t components).close nodeIdx ∧
      Encodes g (popComponent t nodeIdx) ((popUntil nodeIdx t.tarjanStack).1 :: components) := by
  have hcount : t.tarjanSccBaseArray.length = components.length := by
    rw [h.bases,bases_length,List.length_reverse]
  unfold DestructGraph.popComponent
  dsimp only
  rw [popNodes_eq,hcount]
  refine ⟨rfl,?_,?_,h.frames⟩
  · rw [List.reverse_cons,List.flatten_append,← h.nodes]
    simp
  · rw [List.reverse_cons,bases_append,← h.bases,← h.nodes]
    simp [DestructGraph.bases]

def EdgesInside (g : DestructGraph Box) : Prop := ∀ i, g.edgeBase i ≤ g.sortedEdgeArray.length

theorem Encodes.visit (hg : EdgesInside g) (h : Encodes g t components) (i : ℕ) :
    Encodes g (g.visit t i) components := by
  refine ⟨h.nodes,h.bases,?_⟩
  intro f hf
  cases List.mem_cons.mp hf with
  | inl heq =>
    rw [heq]
    exact hg (i + 1)
  | inr hf => exact h.frames f hf

theorem frameOf_next {f : TarjanDfsFrame} (hend : f.edgeEndIdx ≤ g.sortedEdgeArray.length)
    (hlt : f.edgeIdx < f.edgeEndIdx) :
    g.frameOf f = ⟨f.nodeIdx,(g.sortedEdgeArray.getD f.edgeIdx ⟨0,0⟩).dstIdx ::
      (g.frameOf { f with edgeIdx := f.edgeIdx + 1 }).rest⟩ := by
  have hidx : f.edgeIdx < g.sortedEdgeArray.length := Nat.lt_of_lt_of_le hlt hend
  have hcount : f.edgeEndIdx - f.edgeIdx = f.edgeEndIdx - (f.edgeIdx + 1) + 1 := by omega
  unfold frameOf
  rw [List.drop_eq_getElem_cons hidx,hcount,List.take_succ_cons,List.map_cons]
  simp [List.getD,hidx]

theorem frameOf_done {f : TarjanDfsFrame} (hge : ¬ f.edgeIdx < f.edgeEndIdx) :
    g.frameOf f = ⟨f.nodeIdx,[]⟩ := by
  have hzero : f.edgeEndIdx - f.edgeIdx = 0 := by omega
  simp [frameOf,hzero]

theorem round_none (hround : g.tarjanRound t = none) (components : List (List ℕ)) :
    (view g t components).step g.succ = none := by
  have hstack : t.tarjanDfsStack = [] := by
    unfold tarjanRound at hround
    split at hround
    · assumption
    · dsimp only at hround
      split at hround
      · split at hround
        · split at hround <;> cases hround
        · cases hround
      · split at hround <;> cases hround
  apply Tarjan.step_eq_none_iff.mpr
  show t.tarjanDfsStack.map g.frameOf = []
  rw [hstack]
  rfl

theorem Encodes.round (hg : EdgesInside g) (h : Encodes g t components)
    (hround : g.tarjanRound t = some t') :
    ∃ components', (view g t components).step g.succ = some (view g t' components') ∧
      Encodes g t' components' := by
  unfold tarjanRound at hround
  split at hround
  · cases hround
  · rename_i frame frames hstack
    have hframe := h.frames frame (by simp [hstack])
    have hrest : ∀ f ∈ frames, f.edgeEndIdx ≤ g.sortedEdgeArray.length :=
      fun f hf => h.frames f (by simp [hstack,hf])
    have hframes : (view g t components).frames = g.frameOf frame :: frames.map g.frameOf := by
      simp [view,hstack]
    dsimp only at hround
    split at hround
    · rename_i hlt
      rw [frameOf_next hframe hlt] at hframes
      let next : TarjanDfsFrame := { frame with edgeIdx := frame.edgeIdx + 1 }
      let t₁ : TarjanState := { t with tarjanDfsStack := next :: frames }
      have h₁ : Encodes g t₁ components := by
        refine ⟨h.nodes,h.bases,?_⟩
        intro f hf
        cases List.mem_cons.mp hf with
        | inl heq =>
          rw [heq]
          exact hframe
        | inr hf => exact hrest f hf
      unfold State.step
      rw [hframes]
      split at hround
      · rename_i idx hidx
        have hindex : (view g t components).index
            (g.sortedEdgeArray.getD frame.edgeIdx ⟨0,0⟩).dstIdx = some idx := hidx
        dsimp only
        rw [hindex]
        split at hround <;> rename_i hscc <;> cases hround
        · exact ⟨components,if_pos hscc,⟨h₁.nodes,h₁.bases,h₁.frames⟩⟩
        · exact ⟨components,if_neg hscc,h₁⟩
      · rename_i hidx
        have hindex : (view g t components).index
            (g.sortedEdgeArray.getD frame.edgeIdx ⟨0,0⟩).dstIdx = none := hidx
        dsimp only
        rw [hindex]
        cases hround
        exact ⟨components,rfl,h₁.visit hg _⟩
    · rename_i hge
      rw [frameOf_done hge] at hframes
      unfold State.step
      rw [hframes]
      dsimp only
      by_cases hroot : t.tarjanIdx frame.nodeIdx = some (t.tarjanLowlinkIdx frame.nodeIdx)
      · have hroot' : (view g t components).index frame.nodeIdx =
            some ((view g t components).lowlink frame.nodeIdx) := hroot
        rw [if_pos hroot] at hround
        rw [if_pos hroot']
        let t₁ : TarjanState := { t with tarjanDfsStack := frames }
        have h₁ : Encodes g t₁ components := ⟨h.nodes,h.bases,hrest⟩
        obtain ⟨hview,hencodes⟩ := h₁.popComponent frame.nodeIdx
        cases frames with
        | nil =>
          cases hround
          exact ⟨_,congrArg some hview.symm,hencodes⟩
        | cons parent frames =>
          cases hround
          have hlower := congrArg
            (fun s : State ℕ => s.lower parent.nodeIdx (t.tarjanLowlinkIdx frame.nodeIdx)) hview
          exact ⟨_,congrArg some hlower.symm,⟨hencodes.nodes,hencodes.bases,hencodes.frames⟩⟩
      · have hroot' : ¬ (view g t components).index frame.nodeIdx =
            some ((view g t components).lowlink frame.nodeIdx) := hroot
        rw [if_neg hroot] at hround
        rw [if_neg hroot']
        cases frames with
        | nil =>
          cases hround
          exact ⟨components,rfl,h.nodes,h.bases,hrest⟩
        | cons parent frames =>
          cases hround
          exact ⟨components,rfl,h.nodes,h.bases,hrest⟩

theorem Encodes.loop (hg : EdgesInside g) :
    ∀ {fuel : ℕ} {t : TarjanState} {components : List (List ℕ)} {s' : State ℕ},
      Encodes g t components → Tarjan.run g.succ fuel (view g t components) = some s' →
      ∃ t' components', g.tarjanLoop fuel t = some t' ∧ s' = view g t' components' ∧
        Encodes g t' components' := by
  intro fuel
  induction fuel with
  | zero =>
    intro t components s' h hrun
    cases hround : g.tarjanRound t with
    | none =>
      have hstep := round_none hround components
      rw [Tarjan.run,hstep] at hrun
      cases hrun
      exact ⟨t,components,by rw [tarjanLoop,hround],rfl,h⟩
    | some t₁ =>
      obtain ⟨components₁,hstep,_⟩ := h.round hg hround
      rw [Tarjan.run,hstep] at hrun
      cases hrun
  | succ fuel ih =>
    intro t components s' h hrun
    cases hround : g.tarjanRound t with
    | none =>
      have hstep := round_none hround components
      rw [Tarjan.run,hstep] at hrun
      cases hrun
      exact ⟨t,components,by rw [tarjanLoop,hround],rfl,h⟩
    | some t₁ =>
      obtain ⟨components₁,hstep,h₁⟩ := h.round hg hround
      rw [Tarjan.run,hstep] at hrun
      obtain ⟨t',components',hloop,hs',h'⟩ := ih h₁ hrun
      refine ⟨t',components',?_,hs',h'⟩
      rw [tarjanLoop,hround]
      exact hloop

/-- Between two roots: the components so far, and nothing under way. -/
structure Idle (g : DestructGraph Box) (t : TarjanState) (components : List (List ℕ)) : Prop where
  encodes : Encodes g t components
  inv : Inv g.succ (view g t components)
  stack : t.tarjanDfsStack = []

theorem idle_start : Idle g tarjanStart [] := by
  refine ⟨⟨rfl,rfl,?_⟩,?_,rfl⟩
  · intro f hf
    cases hf
  · exact Inv.start (fun _ => rfl) (fun _ => rfl) rfl rfl rfl

def nodes (g : DestructGraph Box) : Finset ℕ := Finset.range g.nodeArray.length

theorem Idle.root (hg : EdgesInside g) (hnodes : ∀ i, ∀ j ∈ g.succ i, j ∈ g.nodes) {fuel i : ℕ}
    (h : Idle g t components) (hi : i ∈ g.nodes) (hidx : t.tarjanIdx i = none)
    (hfuel : Tarjan.weight g.succ g.nodes (view g t components) ≤ fuel) :
    ∃ t' components', g.tarjanLoop fuel (g.visit t i) = some t' ∧ Idle g t' components' ∧
      Tarjan.weight g.succ g.nodes (view g t' components') ≤ fuel ∧ t'.tarjanIdx i ≠ none ∧
      ∀ j, t.tarjanIdx j ≠ none → t'.tarjanIdx j ≠ none := by
  have hframes : (view g t components).frames = [] := by
    show t.tarjanDfsStack.map g.frameOf = []
    rw [h.stack]
    rfl
  have hinv := h.inv.root hframes hidx
  have hweight := @Tarjan.weight_discover _ _ g.succ (view g t components) _ _ hi hidx
  obtain ⟨s',hrun,hinv',hdone,hle,hkeep⟩ :=
    Tarjan.run_spec hnodes hinv (Nat.le_trans (Nat.le_of_eq hweight) hfuel)
  obtain ⟨t',components',hloop,rfl,hencodes⟩ := (h.encodes.visit hg i).loop hg hrun
  have hvisited : ∀ j, (g.visit t i).tarjanIdx j ≠ none → t'.tarjanIdx j ≠ none := by
    intro j hj
    have hsame : t'.tarjanIdx j = (g.visit t i).tarjanIdx j := hkeep j hj
    rwa [hsame]
  refine ⟨t',components',hloop,⟨hencodes,hinv',?_⟩,by omega,hvisited i ?_,?_⟩
  · exact List.map_eq_nil_iff.mp hdone
  · have hself : (g.visit t i).tarjanIdx i = some t.dfsCounter := Function.update_self _ _ _
    simp [hself]
  · intro j hj
    apply hvisited
    have hne : j ≠ i := by
      rintro rfl
      exact hj hidx
    have hsame : (g.visit t i).tarjanIdx j = t.tarjanIdx j := Function.update_of_ne hne _ _
    rwa [hsame]

theorem Idle.roots (hg : EdgesInside g) (hnodes : ∀ i, ∀ j ∈ g.succ i, j ∈ g.nodes) {fuel : ℕ} :
    ∀ {roots : List ℕ} {t : TarjanState} {components : List (List ℕ)}, Idle g t components →
      (∀ i ∈ roots, i ∈ g.nodes) →
      Tarjan.weight g.succ g.nodes (view g t components) ≤ fuel →
      ∃ t' components', g.tarjanRoots fuel roots t = some t' ∧ Idle g t' components' ∧
        (∀ i ∈ roots, t'.tarjanIdx i ≠ none) ∧
        ∀ j, t.tarjanIdx j ≠ none → t'.tarjanIdx j ≠ none := by
  intro roots
  induction roots with
  | nil =>
    intro t components h _ _
    exact ⟨t,components,rfl,h,by simp,fun _ hj => hj⟩
  | cons i roots ih =>
    intro t components h hroots hfuel
    have hrest : ∀ j ∈ roots, j ∈ g.nodes := fun j hj => hroots j (List.mem_cons_of_mem _ hj)
    have hi : i ∈ g.nodes := hroots i List.mem_cons_self
    rw [tarjanRoots]
    by_cases hidx : t.tarjanIdx i = none
    · obtain ⟨t₁,components₁,hloop,h₁,hfuel₁,hself,hkeep⟩ := h.root hg hnodes hi hidx hfuel
      obtain ⟨t',components',hrun,h',hall,hkeep'⟩ := ih h₁ hrest hfuel₁
      refine ⟨t',components',?_,h',?_,fun j hj => hkeep' j (hkeep j hj)⟩
      · rw [if_neg (not_not.mpr hidx),hloop]
        exact hrun
      · intro j hj
        cases List.mem_cons.mp hj with
        | inl heq =>
          rw [heq]
          exact hkeep' i hself
        | inr hj => exact hall j hj
    · obtain ⟨t',components',hrun,h',hall,hkeep⟩ := ih h hrest hfuel
      refine ⟨t',components',?_,h',?_,hkeep⟩
      · rw [if_pos hidx]
        exact hrun
      · intro j hj
        cases List.mem_cons.mp hj with
        | inl heq =>
          rw [heq]
          exact hkeep i hidx
        | inr hj => exact hall j hj

end Jancy.Rt.DestructGraph
