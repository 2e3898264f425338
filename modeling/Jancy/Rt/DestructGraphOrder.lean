import Jancy.Rt.DestructGraphTarjan
import Mathlib.Algebra.BigOperators.Group.Finset.Piecewise
import Mathlib.Algebra.Order.BigOperators.Group.Finset
import Mathlib.Data.List.GetD

/-! The order in which `DestructGraph::emit` puts the candidates: owners before what they own. -/
namespace Jancy.Rt.DestructGraph

variable {Box : Type}

/-- What `sl::countSort` is for: a stable sort by the source, and where the sources begin. -/
structure CountSorts (countSort : List Edge → ℕ → List Edge × List ℕ) : Prop where
  sorted : ∀ edges maxKey, (∀ e ∈ edges, e.srcIdx ≤ maxKey) →
    (countSort edges maxKey).1.Pairwise fun e e' => e.srcIdx ≤ e'.srcIdx
  stable : ∀ edges maxKey, (∀ e ∈ edges, e.srcIdx ≤ maxKey) →
    ∀ k, (countSort edges maxKey).1.filter (·.srcIdx = k) = edges.filter (·.srcIdx = k)
  bases : ∀ edges maxKey, (∀ e ∈ edges, e.srcIdx ≤ maxKey) →
    (countSort edges maxKey).2 =
      (List.range (maxKey + 1)).map fun k => edges.countP (·.srcIdx < k)

def Refers (g : DestructGraph Box) (a b : Box) : Prop :=
  ∃ e ∈ g.unsortedEdgeArray, g.nodeArray[e.srcIdx]? = some a ∧ g.nodeArray[e.dstIdx]? = some b

def Reaches (g : DestructGraph Box) : Box → Box → Prop := Relation.ReflTransGen g.Refers

structure Built (candidates : List Box) (g : DestructGraph Box) : Prop where
  nodup : g.nodeArray.Nodup
  edges : ∀ e ∈ g.unsortedEdgeArray,
    e.srcIdx < g.nodeArray.length ∧ e.dstIdx < g.nodeArray.length
  found : ∃ found, g.nodeArray = candidates ++ found
  destructCount : g.destructCount = candidates.length

variable {candidates : List Box} {g g' : DestructGraph Box}

section Build

variable [DecidableEq Box]

theorem getNode_spec (h : Built candidates g) (box : Box) :
    Built candidates (g.getNode box).2 ∧ (g.getNode box).1 < (g.getNode box).2.nodeArray.length ∧
      g.nodeArray.length ≤ (g.getNode box).2.nodeArray.length := by
  unfold getNode
  split
  · rename_i hmem
    exact ⟨h,List.idxOf_lt_length_of_mem hmem,Nat.le_refl _⟩
  · rename_i hmem
    have hlength : (g.nodeArray ++ [box]).length = g.nodeArray.length + 1 := by simp
    refine ⟨⟨?_,?_,?_,h.destructCount⟩,?_,?_⟩
    · exact h.nodup.append (List.nodup_singleton box) (by simpa using hmem)
    · intro e he
      obtain ⟨hsrc,hdst⟩ := h.edges e he
      show e.srcIdx < (g.nodeArray ++ [box]).length ∧ e.dstIdx < (g.nodeArray ++ [box]).length
      omega
    · obtain ⟨found,hfound⟩ := h.found
      exact ⟨found ++ [box],by rw [hfound,List.append_assoc]⟩
    · show g.nodeArray.length < (g.nodeArray ++ [box]).length
      omega
    · show g.nodeArray.length ≤ (g.nodeArray ++ [box]).length
      omega

theorem Built.addEdge (h : Built candidates g) {parent : ℕ} (hparent : parent < g.nodeArray.length)
    (box : Box) : Built candidates (g.addEdge parent box) := by
  obtain ⟨hbuilt,hnode,hle⟩ := getNode_spec h box
  unfold DestructGraph.addEdge
  dsimp only
  split
  · refine ⟨hbuilt.nodup,?_,hbuilt.found,hbuilt.destructCount⟩
    intro e he
    cases List.mem_append.mp he with
    | inl he => exact hbuilt.edges e he
    | inr he =>
      rw [List.mem_singleton.mp he]
      exact ⟨Nat.lt_of_lt_of_le hparent hle,hnode⟩
  · exact hbuilt

theorem built_of_marked (hnodup : candidates.Nodup) (h : Marked (start candidates) g) :
    Built candidates g := by
  induction h with
  | refl =>
    refine ⟨hnodup,?_,⟨[],?_⟩,rfl⟩
    · intro e he
      cases he
    · exact (List.append_nil candidates).symm
  | addEdge _ hparent box ih => exact ih.addEdge hparent box

end Build

variable {countSort : List Edge → ℕ → List Edge × List ℕ}

theorem sorted_perm (hsort : CountSorts countSort) {edges : List Edge} {maxKey : ℕ}
    (hkeys : ∀ e ∈ edges, e.srcIdx ≤ maxKey) : (countSort edges maxKey).1.Perm edges := by
  apply List.perm_iff_count.mpr
  intro e
  let sameKey : Edge → Bool := fun e' => decide (e'.srcIdx = e.srcIdx)
  have hkey : sameKey e = true := decide_eq_true rfl
  have hfilter : (countSort edges maxKey).1.filter sameKey = edges.filter sameKey :=
    hsort.stable edges maxKey hkeys e.srcIdx
  rw [← List.count_filter hkey,hfilter,List.count_filter hkey]

structure Sorted (g : DestructGraph Box) : Prop where
  nonempty : 0 < g.nodeArray.length
  edges : ∀ e ∈ g.unsortedEdgeArray,
    e.srcIdx < g.nodeArray.length ∧ e.dstIdx < g.nodeArray.length
  sorted : g.sortedEdgeArray.Pairwise fun e e' => e.srcIdx ≤ e'.srcIdx
  perm : g.sortedEdgeArray.Perm g.unsortedEdgeArray
  bases : ∀ i, g.edgeBase i =
    if i ≤ g.nodeArray.length then g.sortedEdgeArray.countP (·.srcIdx < i) else 0

theorem Built.sort (h : Built candidates g) (hsort : CountSorts countSort)
    (hne : 0 < g.nodeArray.length) : Sorted (g.sortEdges countSort) := by
  have hkeys : ∀ e ∈ g.unsortedEdgeArray, e.srcIdx ≤ g.nodeArray.length - 1 := by
    intro e he
    have hsrc := (h.edges e he).1
    omega
  have hperm := sorted_perm hsort hkeys
  refine ⟨hne,h.edges,hsort.sorted _ _ hkeys,hperm,?_⟩
  intro i
  have hcount : (g.sortEdges countSort).sortedEdgeArray.countP (·.srcIdx < i) =
      g.unsortedEdgeArray.countP (·.srcIdx < i) := hperm.countP_eq _
  rw [hcount]
  show ((countSort g.unsortedEdgeArray (g.nodeArray.length - 1)).2 ++
    [g.unsortedEdgeArray.length]).getD i 0 =
      if i ≤ g.nodeArray.length then g.unsortedEdgeArray.countP (·.srcIdx < i) else 0
  rw [hsort.bases _ _ hkeys,Nat.sub_add_cancel hne]
  obtain hlt | rfl | hgt := Nat.lt_trichotomy i g.nodeArray.length
  · rw [if_pos (Nat.le_of_lt hlt),List.getD_append _ _ _ _ (by simpa using hlt)]
    simp [List.getD,hlt]
  · have hall : g.unsortedEdgeArray.countP (·.srcIdx < g.nodeArray.length) =
        g.unsortedEdgeArray.length := by
      apply List.countP_eq_length.mpr
      intro e he
      exact decide_eq_true (h.edges e he).1
    rw [if_pos (Nat.le_refl _),hall,List.getD_append_right _ _ _ _ (by simp)]
    simp
  · rw [if_neg (Nat.not_le.mpr hgt)]
    apply List.getD_eq_default
    rw [List.length_append,List.length_map,List.length_range,List.length_singleton]
    exact hgt

theorem Sorted.edgesInside (h : Sorted g) : EdgesInside g := by
  intro i
  rw [h.bases]
  split
  · exact List.countP_le_length
  · exact Nat.zero_le _

theorem Sorted.mem_succ (h : Sorted g) {i j : ℕ} :
    j ∈ g.succ i ↔ ⟨i,j⟩ ∈ g.unsortedEdgeArray := by
  rw [← h.perm.mem_iff]
  unfold succ
  rw [h.bases,h.bases]
  by_cases hi : i < g.nodeArray.length
  · rw [if_pos (Nat.succ_le_of_lt hi),if_pos (Nat.le_of_lt hi),
      slice_of_sorted Edge.srcIdx h.sorted]
    simp only [List.mem_map,List.mem_filter,decide_eq_true_eq]
    constructor
    · rintro ⟨e,⟨he,rfl⟩,rfl⟩
      exact he
    · intro he
      exact ⟨_,⟨he,rfl⟩,rfl⟩
  · have hnone : ⟨i,j⟩ ∉ g.sortedEdgeArray := by
      intro he
      exact hi (h.edges _ (h.perm.mem_iff.mp he)).1
    have hend : ¬ i + 1 ≤ g.nodeArray.length := by omega
    rw [if_neg hend]
    simp [hnone]

theorem Sorted.nodes (h : Sorted g) : ∀ i, ∀ j ∈ g.succ i, j ∈ g.nodes := by
  intro i j hj
  exact Finset.mem_range.mpr (h.edges _ (h.mem_succ.mp hj)).2

theorem sum_filter_key (edges : List Edge) (n : ℕ) :
    ∑ i ∈ Finset.range n, (edges.filter (·.srcIdx = i)).length ≤ edges.length := by
  induction edges with
  | nil => simp
  | cons e edges ih =>
    have hstep : ∀ i, ((e :: edges).filter (·.srcIdx = i)).length =
        (edges.filter (·.srcIdx = i)).length + if e.srcIdx = i then 1 else 0 := by
      intro i
      rw [List.filter_cons]
      by_cases hi : e.srcIdx = i <;> simp [hi]
    simp only [hstep,Finset.sum_add_distrib,Finset.sum_ite_eq,List.length_cons]
    split <;> omega

theorem Sorted.weight_le (h : Sorted g) :
    Tarjan.weight g.succ g.nodes (view g tarjanStart []) ≤
      g.nodeArray.length + g.unsortedEdgeArray.length := by
  have hsucc : ∀ i ∈ g.nodes, (g.succ i).length + 1 =
      (g.sortedEdgeArray.filter (·.srcIdx = i)).length + 1 := by
    intro i hi
    have hi' : i < g.nodeArray.length := Finset.mem_range.mp hi
    unfold succ
    rw [h.bases,h.bases,if_pos (Nat.succ_le_of_lt hi'),if_pos (Nat.le_of_lt hi'),
      slice_of_sorted Edge.srcIdx h.sorted,List.length_map]
  have hle := sum_filter_key g.sortedEdgeArray g.nodeArray.length
  rw [h.perm.length_eq] at hle
  unfold Tarjan.weight
  have hall : (g.nodes.filter fun v => (view g tarjanStart []).index v = none) = g.nodes := by
    apply Finset.filter_true_of_mem
    intro i _
    rfl
  have hone : ∑ _i ∈ g.nodes, 1 = g.nodeArray.length := by
    rw [DestructGraph.nodes]
    simp
  rw [hall,Finset.sum_congr rfl hsucc,Finset.sum_add_distrib,hone]
  show ∑ i ∈ Finset.range g.nodeArray.length, _ + _ + 0 ≤ _
  omega

theorem Sorted.reach_of_reaches (h : Sorted g) (hnodup : g.nodeArray.Nodup) {a b : Box}
    (hreach : g.Reaches a b) {i : ℕ} (ha : g.nodeArray[i]? = some a) :
    ∃ j, g.nodeArray[j]? = some b ∧ Tarjan.Reach g.succ i j := by
  induction hreach with
  | refl => exact ⟨i,ha,.refl⟩
  | tail _ hrefers ih =>
    obtain ⟨j,hj,hpath⟩ := ih
    obtain ⟨e,he,hsrc,hdst⟩ := hrefers
    have hlt := (List.getElem?_eq_some_iff.mp hsrc).1
    have heq : e.srcIdx = j := (List.getElem?_inj hlt hnodup).mp (hsrc.trans hj.symm)
    subst heq
    exact ⟨e.dstIdx,hdst,hpath.tail (h.mem_succ.mpr he)⟩

theorem Sorted.reaches_of_reach (h : Sorted g) {i j : ℕ} (hreach : Tarjan.Reach g.succ i j)
    {a b : Box} (ha : g.nodeArray[i]? = some a) (hb : g.nodeArray[j]? = some b) :
    g.Reaches a b := by
  induction hreach generalizing b with
  | refl =>
    rw [ha] at hb
    cases hb
    exact .refl
  | @tail k l _ hedge ih =>
    have he := h.mem_succ.mp hedge
    have hk := List.getElem?_eq_getElem (h.edges _ he).1
    exact (ih hk).tail ⟨_,he,hk,hb⟩

end Jancy.Rt.DestructGraph

/-! What `DestructGraph` makes of the candidates of a collection: behind the base array, each of
them once, and an owner before what it owns. -/
namespace Jancy.Rt.DestructGraph

open Tarjan (Core)

variable {Box : Type} {g : DestructGraph Box} {t : TarjanState} {components : List (List ℕ)}

/-- The candidates of one component, as they are emitted. -/
def emitted (g : DestructGraph Box) (component : List ℕ) : List Box :=
  match component.filter (· < g.destructCount) with
  | [] => []
  | [k] => [k].filterMap (g.nodeArray[·]?)
  | loop => (loop.mergeSort (· ≥ ·)).filterMap (g.nodeArray[·]?)

theorem emitted_perm (g : DestructGraph Box) (component : List ℕ) :
    (g.emitted component).Perm
      ((component.filter (· < g.destructCount)).filterMap (g.nodeArray[·]?)) := by
  unfold emitted
  split
  · rename_i hnone
    rw [hnone]
    exact .refl _
  · rename_i k hone
    rw [hone]
  · exact (List.mergeSort_perm _ _).filterMap _

theorem mem_emitted {component : List ℕ} {box : Box} :
    box ∈ g.emitted component ↔
      ∃ k ∈ component, k < g.destructCount ∧ g.nodeArray[k]? = some box := by
  rw [(emitted_perm g component).mem_iff,List.mem_filterMap]
  simp only [List.mem_filter,decide_eq_true_eq,and_assoc]

theorem bases_getD (cs : List (List ℕ)) :
    ∀ (n i : ℕ), i ≤ cs.length →
      (bases n cs ++ [n + cs.flatten.length]).getD i 0 = n + (cs.take i).flatten.length := by
  induction cs with
  | nil =>
    intro n i hi
    have hzero : i = 0 := Nat.le_zero.mp hi
    subst hzero
    rfl
  | cons c cs ih =>
    intro n i hi
    cases i with
    | zero => rfl
    | succ i =>
      have htail := ih (n + c.length) i (Nat.le_of_succ_le_succ hi)
      simp only [List.flatten_cons,List.length_append,List.take_succ_cons] at htail ⊢
      rw [Nat.add_assoc n,Nat.add_assoc n] at htail
      rw [← htail]
      rfl

theorem slice_component (cs : List (List ℕ)) {i : ℕ} (hi : i < cs.length) :
    (cs.flatten.drop ((bases 0 cs ++ [cs.flatten.length]).getD i 0)).take
        ((bases 0 cs ++ [cs.flatten.length]).getD (i + 1) 0 -
          (bases 0 cs ++ [cs.flatten.length]).getD i 0) = cs[i] := by
  have hbase := bases_getD cs 0 i (Nat.le_of_lt hi)
  have hend := bases_getD cs 0 (i + 1) hi
  rw [Nat.zero_add,Nat.zero_add] at hbase hend
  rw [hbase,hend]
  have htake : cs.take (i + 1) = cs.take i ++ [cs[i]] := by
    rw [List.take_add_one,List.getElem?_eq_getElem hi]
    rfl
  have hsplit : cs.flatten = (cs.take i).flatten ++ (cs[i] ++ (cs.drop (i + 1)).flatten) := by
    conv_lhs => rw [← List.take_append_drop i cs,List.drop_eq_getElem_cons hi]
    rw [List.flatten_append,List.flatten_cons]
  rw [htake,List.flatten_append,List.length_append,Nat.add_sub_cancel_left]
  nth_rewrite 1 [hsplit]
  rw [List.drop_left]
  simp

/-- The state after `tarjan`, with the sentinel. -/
def withSentinel (t : TarjanState) : TarjanState :=
  { t with tarjanSccBaseArray := t.tarjanSccBaseArray ++ [t.tarjanSccNodeArray.length] }

theorem Encodes.emitComponents (h : Encodes g t components) :
    ∀ i ≤ components.length, g.emitComponents (withSentinel t) i =
      (components.reverse.take i).reverse.flatMap g.emitted := by
  intro i
  induction i with
  | zero =>
    intro _
    rfl
  | succ i ih =>
    intro hi
    have hlt : i < components.reverse.length := by
      rw [List.length_reverse]
      exact hi
    have hslice := slice_component components.reverse hlt
    rw [← h.nodes,← h.bases] at hslice
    have hone : g.emitComponent (withSentinel t) i = g.emitted components.reverse[i] := by
      rw [← hslice]
      rfl
    rw [DestructGraph.emitComponents,ih (Nat.le_of_succ_le hi),hone,List.take_add_one,
      List.getElem?_eq_getElem hlt]
    simp

theorem Encodes.emit_eq (h : Encodes g t components) (destructArray : List Box) :
    g.emit (withSentinel t) destructArray = destructArray ++ components.flatMap g.emitted := by
  have hcount : (withSentinel t).tarjanSccBaseArray.length - 1 = components.length := by
    unfold withSentinel
    rw [List.length_append,List.length_singleton,Nat.add_sub_cancel,h.bases,bases_length,
      List.length_reverse]
  have htake : components.reverse.take components.length = components.reverse := by
    rw [← List.length_reverse,List.take_length]
  unfold emit
  rw [hcount,h.emitComponents _ (Nat.le_refl _),htake,List.reverse_reverse]

theorem filterMap_range_getElem? (l : List Box) :
    (List.range l.length).filterMap (l[·]?) = l := by
  induction l with
  | nil => rfl
  | cons a l ih =>
    rw [List.length_cons,List.range_succ_eq_map,List.filterMap_cons,List.getElem?_cons_zero,
      List.filterMap_map]
    exact congrArg (a :: ·) ih

theorem nodes_perm {candidates : List Box} (hbuilt : Built candidates g) {order : List ℕ}
    (hnodup : order.Nodup) (hall : ∀ i < g.destructCount, i ∈ order) :
    ((order.filter (· < g.destructCount)).filterMap (g.nodeArray[·]?)).Perm candidates := by
  have hperm : (order.filter (· < g.destructCount)).Perm (List.range g.destructCount) := by
    apply (List.perm_ext_iff_of_nodup (hnodup.filter _) List.nodup_range).mpr
    intro i
    rw [List.mem_filter,List.mem_range,decide_eq_true_eq]
    exact ⟨fun h => h.2,fun h => ⟨hall i h,h⟩⟩
  have hrange : (List.range g.destructCount).filterMap (g.nodeArray[·]?) = candidates := by
    obtain ⟨found,hfound⟩ := hbuilt.found
    rw [hbuilt.destructCount,hfound]
    have hmap : ∀ i ∈ List.range candidates.length,
        (candidates ++ found)[i]? = candidates[i]? := by
      intro i hi
      exact List.getElem?_append_left (List.mem_range.mp hi)
    rw [List.filterMap_congr hmap]
    exact filterMap_range_getElem? candidates
  rw [← hrange]
  exact hperm.filterMap _

theorem owner_first [DecidableEq Box] {candidates : List Box} (hbuilt : Built candidates g)
    (hcore : Core g.succ (view g t components)) {i j k l : ℕ} {a b : Box}
    (ha : g.nodeArray[i]? = some a) (hb : g.nodeArray[j]? = some b) (hi : i < g.destructCount)
    (hik : t.tarjanSccIdx i = some k) (hjl : t.tarjanSccIdx j = some l) (hlt : l < k) :
    (components.flatMap g.emitted).idxOf a < (components.flatMap g.emitted).idxOf b := by
  obtain ⟨later,earlier,hsplit,hlater,hearlier⟩ := hcore.split_components hik hjl hlt
  have hcomponents : components = later ++ earlier := hsplit
  have hmem : a ∈ later.flatMap g.emitted := by
    obtain ⟨c,hc,hic⟩ := List.mem_flatten.mp hlater
    exact List.mem_flatMap.mpr ⟨c,hc,mem_emitted.mpr ⟨i,hic,hi,ha⟩⟩
  have hnot : b ∉ later.flatMap g.emitted := by
    intro hb'
    obtain ⟨c,hc,hbc⟩ := List.mem_flatMap.mp hb'
    obtain ⟨m,hmc,_,hm⟩ := mem_emitted.mp hbc
    have hlength := (List.getElem?_eq_some_iff.mp hb).1
    have heq : j = m := (List.getElem?_inj hlength hbuilt.nodup).mp (hb.trans hm.symm)
    subst heq
    exact hearlier (List.mem_flatten.mpr ⟨c,hc,hmc⟩)
  rw [hcomponents,List.flatMap_append,List.idxOf_append_of_mem hmem,
    List.idxOf_append_of_notMem hnot]
  exact Nat.lt_of_lt_of_le (List.idxOf_lt_length_of_mem hmem) (Nat.le_add_right _ _)

/-- After `build`, `tarjan` and `emit` the array is the base array and then each candidate once, an
owner before what it owns. -/
theorem destructGraph_linearises [DecidableEq Box]
    {countSort : List Edge → ℕ → List Edge × List ℕ} (hsort : CountSorts countSort)
    {candidates : List Box} (hne : candidates ≠ []) (hnodup : candidates.Nodup)
    {marked : DestructGraph Box} (hmarked : Marked (start candidates) marked) {fuel : ℕ}
    (hfuel : marked.nodeArray.length + marked.unsortedEdgeArray.length ≤ fuel)
    (destructArray : List Box) :
    ∃ t out, (marked.sortEdges countSort).tarjan fuel = some t ∧
      (marked.sortEdges countSort).emit t destructArray = destructArray ++ out ∧
      out.Perm candidates ∧
      ∀ a ∈ candidates, ∀ b ∈ candidates, marked.Reaches a b → ¬ marked.Reaches b a →
        out.idxOf a < out.idxOf b := by
  have hbuilt := built_of_marked hnodup hmarked
  have hlength : 0 < marked.nodeArray.length := by
    obtain ⟨found,hfound⟩ := hbuilt.found
    have hpos := List.length_pos_of_ne_nil hne
    rw [hfound,List.length_append]
    omega
  have hsorted := hbuilt.sort hsort hlength
  have hbuilt' : Built candidates (marked.sortEdges countSort) :=
    ⟨hbuilt.nodup,hbuilt.edges,hbuilt.found,hbuilt.destructCount⟩
  generalize hg : marked.sortEdges countSort = g at hsorted hbuilt' ⊢
  have hreaches : marked.Reaches = g.Reaches := by
    subst hg
    rfl
  have hweight := hsorted.weight_le
  have hsame : g.nodeArray.length + g.unsortedEdgeArray.length ≤ fuel := by
    subst hg
    exact hfuel
  have hroots : ∀ i ∈ List.range g.destructCount, i ∈ g.nodes := by
    intro i hi
    obtain ⟨found,hfound⟩ := hbuilt'.found
    rw [hbuilt'.destructCount,List.mem_range] at hi
    rw [DestructGraph.nodes,Finset.mem_range,hfound,List.length_append]
    omega
  obtain ⟨t,components,hrun,hidle,hall,_⟩ :=
    idle_start.roots hsorted.edgesInside hsorted.nodes hroots (Nat.le_trans hweight hsame)
  have hcore := hidle.inv.core
  have hstack : t.tarjanStack = [] := by
    apply hidle.inv.stack_nil
    show t.tarjanDfsStack.map g.frameOf = []
    rw [hidle.stack]
    rfl
  have hclosed : ∀ i < g.destructCount, t.tarjanSccIdx i ≠ none := by
    intro i hi hnone
    have hmem := (hcore.stack i).mpr ⟨hall i (List.mem_range.mpr hi),hnone⟩
    rw [show (view g t components).stack = [] from hstack] at hmem
    cases hmem
  refine ⟨withSentinel t,components.flatMap g.emitted,?_,hidle.encodes.emit_eq destructArray,
    ?_,?_⟩
  · rw [tarjan,hrun]
    rfl
  · have hperm : (components.flatMap g.emitted).Perm
        ((components.flatten.filter (· < g.destructCount)).filterMap (g.nodeArray[·]?)) := by
      rw [List.filter_flatten,List.filterMap_flatten,List.map_map,← List.flatMap_def]
      exact List.Perm.flatMap_left _ fun c _ => emitted_perm g c
    apply hperm.trans
    apply nodes_perm hbuilt' hcore.nodup_flatten
    intro i hi
    exact hcore.mem_flatten.mpr (hclosed i hi)
  · intro a ha b hb hab hba
    rw [hreaches] at hab hba
    have hindex : ∀ c ∈ candidates, ∃ i < g.destructCount, g.nodeArray[i]? = some c := by
      intro c hc
      obtain ⟨i,hi⟩ := List.mem_iff_getElem?.mp hc
      have hlt := (List.getElem?_eq_some_iff.mp hi).1
      obtain ⟨found,hfound⟩ := hbuilt'.found
      refine ⟨i,by rw [hbuilt'.destructCount]; exact hlt,?_⟩
      rw [hfound,List.getElem?_append_left hlt]
      exact hi
    obtain ⟨i,hi,hai⟩ := hindex a ha
    obtain ⟨j,hj,hpath⟩ := hsorted.reach_of_reaches hbuilt'.nodup hab hai
    obtain ⟨k,hk⟩ := Option.ne_none_iff_exists'.mp (hclosed i hi)
    obtain ⟨l,hl,hjl⟩ := hcore.order hk hpath
    refine owner_first hbuilt' hcore hai hj hi hk hjl (Nat.lt_of_le_of_ne hl ?_)
    -- in one component the owned candidate would reach its owner
    rintro rfl
    have hback := hcore.strong j i (by rw [hjl]; simp) (hjl.trans hk.symm)
    exact hba (hsorted.reaches_of_reach hback hj hai)

/-- One pass for each key. -/
def countSortBySrc (edges : List Edge) (maxKey : ℕ) : List Edge × List ℕ :=
  ((List.range (maxKey + 1)).flatMap fun k => edges.filter (·.srcIdx = k),
    (List.range (maxKey + 1)).map fun k => edges.countP (·.srcIdx < k))

theorem countSortBySrc_sorts : CountSorts countSortBySrc := by
  constructor
  · intro edges maxKey _
    apply List.pairwise_flatMap.mpr
    constructor
    · intro k _
      apply List.pairwise_of_forall_mem_list
      intro e he e' he'
      rw [List.mem_filter,decide_eq_true_eq] at he he'
      omega
    · apply List.pairwise_lt_range.imp
      intro k l hkl e he e' he'
      rw [List.mem_filter,decide_eq_true_eq] at he he'
      omega
  · intro edges maxKey hkeys k
    have hempty : ∀ l, l ≠ k →
        (edges.filter (·.srcIdx = l)).filter (·.srcIdx = k) = [] := by
      intro l hl
      apply List.filter_eq_nil_iff.mpr
      intro e he hk
      rw [List.mem_filter,decide_eq_true_eq] at he
      rw [decide_eq_true_eq] at hk
      omega
    have hall : ∀ n, ((List.range n).flatMap fun l => edges.filter (·.srcIdx = l)).filter
        (·.srcIdx = k) = if k < n then edges.filter (·.srcIdx = k) else [] := by
      intro n
      induction n with
      | zero => rfl
      | succ n ih =>
        rw [List.range_succ,List.flatMap_append,List.filter_append,ih,List.flatMap_singleton]
        by_cases hn : n = k
        · subst hn
          rw [if_neg (Nat.lt_irrefl n),if_pos (Nat.lt_succ_self n),List.filter_filter]
          simp
        · rw [hempty n hn,List.append_nil]
          by_cases hk : k < n
          · rw [if_pos hk,if_pos (Nat.lt_succ_of_lt hk)]
          · rw [if_neg hk,if_neg (by omega)]
    show List.filter _ (List.flatMap _ _) = _
    rw [hall]
    split
    · rfl
    · rename_i hk
      symm
      apply List.filter_eq_nil_iff.mpr
      intro e he hsrc
      rw [decide_eq_true_eq] at hsrc
      have hle := hkeys e he
      omega
  · intro edges maxKey _
    rfl

/-- Two candidates that own each other, and one that owns them through a box without destructor. -/
def loopGraph : DestructGraph ℕ :=
  ((((start [0,1,2]).addEdge 0 1).addEdge 1 0).addEdge 2 30).addEdge 3 0

theorem loopGraph_linearises :
    ∃ t out, (loopGraph.sortEdges countSortBySrc).tarjan 8 = some t ∧
      (loopGraph.sortEdges countSortBySrc).emit t [7] = [7] ++ out ∧ out.Perm [0,1,2] ∧
      ∀ a ∈ [0,1,2], ∀ b ∈ [0,1,2], loopGraph.Reaches a b → ¬ loopGraph.Reaches b a →
        out.idxOf a < out.idxOf b :=
  destructGraph_linearises countSortBySrc_sorts (by decide) (by decide)
    (.addEdge (.addEdge (.addEdge (.addEdge (.refl _) (by decide) 1) (by decide) 0) (by decide) 30)
      (by decide) 0) (by decide) [7]

end Jancy.Rt.DestructGraph
