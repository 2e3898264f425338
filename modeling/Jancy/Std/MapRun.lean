import Jancy.Std.Map
import Mathlib.Data.List.Perm.Subperm

/-! The runs of `std.HashTable` and `std.RbTree` that keep entries and nodes together. -/
namespace Jancy.Std

namespace MapState

variable {K : Type} {T : NativeTable K} {s : MapState T} {es l r : List MapEntryId}
  {e : MapEntryId}

/-- What is known of all entries that there have been: `m_map` of none of them was reset, and the
nodes of those that are not in the map are gone. -/
structure Inv (s : MapState T) (es : List MapEntryId) : Prop extends s.Corresponds es where
  fresh : ∀ n ∈ s.nodes, n.id < s.nextNode
  allocated : ∀ e ∈ es, e < s.allocated
  map : ∀ e, (s.entry e).map = decide (e < s.allocated)
  known : ∀ e < s.allocated, (s.entry e).mapEntry < s.nextNode
  gone : ∀ e < s.allocated, e ∉ es → (s.entry e).mapEntry ∉ s.nodes.map Node.id

theorem initial_inv [Inhabited K] : (initial T).Inv [] where
  links := Links.holds_nil rfl rfl
  count := rfl
  paired := .nil
  distinct := List.nodup_nil
  intact := rfl
  fresh _ hn := absurd hn List.not_mem_nil
  allocated _ he := absurd he List.not_mem_nil
  map e := by simp [initial]
  known e he := absurd he (Nat.not_lt_zero e)
  gone e he := absurd he (Nat.not_lt_zero e)

theorem Inv.entries_eq (h : s.Inv es) : s.entries = es := by
  have hsub : es ⊆ List.range s.allocated := by
    intro e he
    exact List.mem_range.mpr (h.allocated e he)
  have hlen : es.length ≤ s.allocated := by
    simpa using (List.subperm_of_subset h.links.nodup hsub).length_le
  exact h.links.walk_eq hlen

theorem Inv.inCorrespondence (h : s.Inv es) : s.InCorrespondence := by
  unfold InCorrespondence
  rw [h.entries_eq]
  exact h.toCorresponds

theorem Corresponds.split (h : s.Corresponds (l ++ r)) :
    List.Forall₂ s.Paired (s.nodes.take l.length) l ∧
      List.Forall₂ s.Paired (s.nodes.drop l.length) r :=
  ⟨List.forall₂_take_append _ _ _ h.paired,List.forall₂_drop_append _ _ _ h.paired⟩

variable {ns : List (Node K)}

theorem value_head? (h : List.Forall₂ s.Paired ns r) :
    ns.head?.bind Node.value = r.head? := by
  cases h with
  | nil => rfl
  | cons hp _ => exact hp.value

theorem value_getLast? (h : List.Forall₂ s.Paired ns l) :
    ns.getLast?.bind Node.value = l.getLast? := by
  rw [List.getLast?_eq_head?_reverse,List.getLast?_eq_head?_reverse]
  exact value_head? (List.forall₂_reverse_iff.mpr h)

theorem getElem?_neighbours {α : Type} (l r : List α) (n : α) :
    (l ++ n :: r)[l.length]? = some n ∧ (l ++ n :: r)[l.length + 1]? = r.head? ∧
      (if l.length = 0 then none else (l ++ n :: r)[l.length - 1]?) = l.getLast? := by
  refine ⟨by simp,?_,?_⟩
  · rw [List.getElem?_append_right (by omega)]
    simp [List.head?_eq_getElem?]
  · rcases List.eq_nil_or_concat l with rfl | ⟨l,m,rfl⟩
    · rfl
    · simp

def withNew (s : MapState T) (l r : List MapEntryId) (key : K) (shape : T.Shape) : MapState T :=
  { s with
    nodes := s.nodes.take l.length ++ ⟨s.nextNode,key,some s.allocated⟩ :: s.nodes.drop l.length
    shape := shape
    nextNode := s.nextNode + 1
    entry := Function.update s.entry s.allocated ⟨key,true,s.nextNode⟩
    allocated := s.allocated + 1
    links := s.links.link l.getLast? r.head? s.allocated
    count := s.count + 1 }

theorem withNew_entry (key : K) (shape : T.Shape) {e : MapEntryId} (he : e ≠ s.allocated) :
    (s.withNew l r key shape).entry e = s.entry e :=
  Function.update_of_ne he _ _

theorem Paired.withNew {n : Node K} {e : MapEntryId} (h : s.Paired n e) (he : e ≠ s.allocated)
    (key : K) (shape : T.Shape) : (s.withNew l r key shape).Paired n e where
  value := h.value
  mapEntry := by rw [withNew_entry key shape he,h.mapEntry]
  key := by rw [withNew_entry key shape he,h.key]
  map := by rw [withNew_entry key shape he,h.map]

theorem withNew_ids (s : MapState T) (l r : List MapEntryId) (key : K) (shape : T.Shape) :
    (s.withNew l r key shape).nodes.map Node.id =
      (s.nodes.map Node.id).take l.length ++ s.nextNode :: (s.nodes.map Node.id).drop l.length := by
  simp [MapState.withNew]

theorem Forall₂.withNew (h : List.Forall₂ s.Paired ns es) (he : ∀ e ∈ es, e ≠ s.allocated) (key : K)
    (shape : T.Shape) :
    List.Forall₂ (s.withNew l r key shape).Paired ns es := by
  induction h with
  | nil => exact .nil
  | cons hp _ ih =>
    refine .cons (hp.withNew (he _ List.mem_cons_self) key shape) (ih ?_)
    exact fun x hx => he x (List.mem_cons_of_mem _ hx)

theorem Inv.withNew (h : s.Inv (l ++ r)) (key : K) (shape : T.Shape) :
    (s.withNew l r key shape).Inv (l ++ s.allocated :: r) := by
  have hfresh : s.allocated ∉ l ++ r := fun hmem => Nat.lt_irrefl _ (h.allocated _ hmem)
  have hmem : ∀ e, e ∈ l ++ s.allocated :: r ↔ e = s.allocated ∨ e ∈ l ++ r := by
    intro e
    simp only [List.mem_append,List.mem_cons]
    tauto
  have hold : ∀ e < (s.withNew l r key shape).allocated, e ≠ s.allocated → e < s.allocated := by
    intro e he hne
    exact Nat.lt_of_le_of_ne (Nat.le_of_lt_succ he) hne
  have hnew : s.nextNode ∉ s.nodes.map Node.id := by
    intro hid
    obtain ⟨n,hn,heq⟩ := List.mem_map.mp hid
    exact Nat.ne_of_lt (h.fresh n hn) heq
  obtain ⟨hl,hr⟩ := h.split
  refine ⟨⟨h.links.link hfresh,?_,?_,?_,h.intact⟩,?_,?_,?_,?_,?_⟩
  · have hcount := h.count
    simp only [MapState.withNew,List.length_append,List.length_cons] at hcount ⊢
    omega
  · have hl' : ∀ e ∈ l, e ≠ s.allocated :=
      fun e he heq => hfresh (heq ▸ List.mem_append_left r he)
    have hr' : ∀ e ∈ r, e ≠ s.allocated :=
      fun e he heq => hfresh (heq ▸ List.mem_append_right l he)
    apply List.rel_append (Forall₂.withNew hl hl' key shape)
    refine .cons ⟨rfl,?_,?_,?_⟩ (Forall₂.withNew hr hr' key shape)
    · simp [MapState.withNew]
    · simp [MapState.withNew]
    · simp [MapState.withNew]
  · rw [withNew_ids,List.nodup_middle,List.take_append_drop,List.nodup_cons]
    exact ⟨hnew,h.distinct⟩
  · intro n hn
    simp only [MapState.withNew,List.mem_append,List.mem_cons] at hn
    rcases hn with hn | rfl | hn
    · exact Nat.lt_succ_of_lt (h.fresh n (List.mem_of_mem_take hn))
    · exact Nat.lt_succ_self _
    · exact Nat.lt_succ_of_lt (h.fresh n (List.mem_of_mem_drop hn))
  · intro e he
    rcases (hmem e).mp he with rfl | he
    · exact Nat.lt_succ_self _
    · exact Nat.lt_succ_of_lt (h.allocated e he)
  · intro e
    by_cases heq : e = s.allocated
    · simp [MapState.withNew,heq]
    · rw [withNew_entry key shape heq,h.map,decide_eq_decide]
      exact ⟨Nat.lt_succ_of_lt,fun he => hold e he heq⟩
  · intro e he
    by_cases heq : e = s.allocated
    · simp [MapState.withNew,heq]
    · rw [withNew_entry key shape heq]
      exact Nat.lt_succ_of_lt (h.known e (hold e he heq))
  · intro e he hnot
    have heq : e ≠ s.allocated := fun heq => hnot ((hmem e).mpr (.inl heq))
    have hgone := h.gone e (hold e he heq) (fun he => hnot ((hmem e).mpr (.inr he)))
    have hknown := h.known e (hold e he heq)
    rw [withNew_entry key shape heq,withNew_ids]
    intro hid
    rcases List.mem_append.mp hid with hid | hid
    · exact hgone (List.mem_of_mem_take hid)
    · rcases List.mem_cons.mp hid with hid | hid
      · exact Nat.ne_of_lt hknown hid
      · exact hgone (List.mem_of_mem_drop hid)

theorem visitImpl_new {key : K} (h : s.Corresponds (l ++ r))
    (hfind : T.find s.shape s.keys key = none)
    (hat : T.insertAt s.shape s.keys key = l.length) :
    s.visitImpl key =
      (s.withNew l r key (T.inserted s.shape key),.entry (some s.allocated)) := by
  obtain ⟨hl,hr⟩ := h.split
  have hlen : (s.nodes.take l.length).length = l.length := hl.length_eq
  obtain ⟨hnode,hnext,hprev⟩ := getElem?_neighbours (s.nodes.take l.length)
    (s.nodes.drop l.length) ⟨s.nextNode,key,none⟩
  rw [hlen] at hnode hnext hprev
  have hset : (s.nodes.take l.length ++ ⟨s.nextNode,key,none⟩ :: s.nodes.drop l.length).set
      l.length ⟨s.nextNode,key,some s.allocated⟩ = s.nodes.take l.length ++
        ⟨s.nextNode,key,some s.allocated⟩ :: s.nodes.drop l.length := by
    rw [List.set_append_right _ _ (Nat.le_of_eq hlen),hlen,Nat.sub_self]
    rfl
  have hvl := value_getLast? hl
  have hvr := value_head? hr
  simp only [MapState.visitImpl,visitNode,hfind,hat,hnode,add,hnext,hprev,hvl,hvr,hset]
  rfl

theorem Inv.visitImpl (h : s.Inv es) (key : K) :
    ∃ e es', (s.visitImpl key).2 = .entry (some e) ∧ e ∈ es' ∧ (s.visitImpl key).1.Inv es' ∧
      ∀ x ∈ es, x ∈ es' := by
  have hlen := h.paired.length_eq
  cases hfind : T.find s.shape s.keys key with
  | some i =>
    have hlt : i < s.nodes.length := by simpa [keys] using T.find_lt hfind
    have hvalue := (h.paired.get hlt (hlen ▸ hlt)).value
    have hvisit : s.visitImpl key = (s,.entry (some (es.get ⟨i,hlen ▸ hlt⟩))) := by
      simp only [List.get_eq_getElem] at hvalue
      simp [MapState.visitImpl,visitNode,hfind,hlt,hvalue]
    rw [hvisit]
    exact ⟨_,es,rfl,List.get_mem es _,h,fun x hx => hx⟩
  | none =>
    have hat := T.insertAt_le s.shape s.keys key
    have hcut : es = es.take (T.insertAt s.shape s.keys key) ++
        es.drop (T.insertAt s.shape s.keys key) := (List.take_append_drop _ es).symm
    have htake : (es.take (T.insertAt s.shape s.keys key)).length =
        T.insertAt s.shape s.keys key := by
      rw [List.length_take,← hlen]
      simp only [keys,List.length_map] at hat ⊢
      omega
    rw [hcut] at h
    rw [visitImpl_new h.toCorresponds hfind htake.symm]
    refine ⟨_,_,rfl,?_,h.withNew key _,?_⟩
    · simp
    · intro x hx
      rw [hcut] at hx
      simp only [List.mem_append,List.mem_cons] at hx ⊢
      tauto

theorem Forall₂.of_entry {s' : MapState T} (h : List.Forall₂ s.Paired ns es)
    (hentry : s'.entry = s.entry) :
    List.Forall₂ s'.Paired ns es := by
  apply h.imp
  intro n e hp
  exact ⟨hp.value,by rw [hentry,hp.mapEntry],by rw [hentry,hp.key],by rw [hentry,hp.map]⟩

theorem Corresponds.node (h : s.Corresponds (l ++ e :: r)) :
    ∃ nl n nr, s.nodes = nl ++ n :: nr ∧ n.id = (s.entry e).mapEntry ∧
      List.Forall₂ s.Paired nl l ∧ List.Forall₂ s.Paired nr r ∧
      s.nodes.eraseP (·.id == (s.entry e).mapEntry) = nl ++ nr := by
  obtain ⟨hl,hr⟩ := h.split
  obtain ⟨n,nr,hp,hr,hdrop⟩ := List.forall₂_cons_right_iff.mp hr
  have hnodes : s.nodes = s.nodes.take l.length ++ n :: nr := by
    rw [← hdrop,List.take_append_drop]
  have hid : n.id = (s.entry e).mapEntry := hp.mapEntry.symm
  refine ⟨s.nodes.take l.length,n,nr,hnodes,hid,hl,hr,?_⟩
  have hdistinct := h.distinct
  rw [hnodes,List.map_append,List.map_cons,List.nodup_middle,List.nodup_cons] at hdistinct
  have hnot : ∀ m ∈ s.nodes.take l.length, ¬ (m.id == (s.entry e).mapEntry) = true := by
    intro m hm heq
    apply hdistinct.1
    rw [hid,← beq_iff_eq.mp heq]
    exact List.mem_append_left _ (List.mem_map_of_mem hm)
  conv_lhs => rw [hnodes]
  rw [List.eraseP_append_right _ hnot]
  simp [hid]

def without (s : MapState T) (e : MapEntryId) (nodes : List (Node K)) (shape : T.Shape) :
    MapState T :=
  { s.removeEntry e with nodes := nodes,shape := shape }

theorem Inv.remove (h : s.Inv (l ++ e :: r)) :
    ((s.removeEntry e).eraseNode (s.entry e).mapEntry).Inv (l ++ r) := by
  obtain ⟨nl,n,nr,hnodes,hid,hl,hr,herase⟩ := h.node
  have hmem : (s.entry e).mapEntry ∈ s.nodes.map Node.id := by
    rw [hnodes,← hid]
    simp
  have heq : (s.removeEntry e).eraseNode (s.entry e).mapEntry = s.without e (nl ++ nr)
      (T.erased s.shape (s.nodes.findIdx (·.id == (s.entry e).mapEntry))) := by
    rw [← herase]
    exact if_pos hmem
  have hdistinct := h.distinct
  rw [hnodes,List.map_append,List.map_cons,List.nodup_middle,← List.map_append,
    List.nodup_cons] at hdistinct
  have hsub : ∀ x ∈ nl ++ nr, x ∈ s.nodes := by
    intro x hx
    rw [hnodes]
    simp only [List.mem_append,List.mem_cons] at hx ⊢
    tauto
  rw [heq]
  refine ⟨⟨h.links.unlink,?_,?_,hdistinct.2,h.intact⟩,?_,?_,h.map,h.known,?_⟩
  · have hcount := h.count
    simp only [without,removeEntry,List.length_append,List.length_cons] at hcount ⊢
    split <;> omega
  · apply List.rel_append
    · exact Forall₂.of_entry hl rfl
    · exact Forall₂.of_entry hr rfl
  · exact fun x hx => h.fresh x (hsub x hx)
  · intro x hx
    apply h.allocated
    simp only [List.mem_append,List.mem_cons] at hx ⊢
    tauto
  · intro x hx hnot
    by_cases hxe : x = e
    · rw [hxe]
      exact hid ▸ hdistinct.1
    · have hout : x ∉ l ++ e :: r := by
        simp only [List.mem_append,List.mem_cons] at hnot ⊢
        tauto
      intro hmem'
      obtain ⟨m,hm,hmid⟩ := List.mem_map.mp hmem'
      exact h.gone x hx hout (List.mem_map.mpr ⟨m,hsub m hm,hmid⟩)

theorem removeImpl_eq (c : Container) (hmap : (s.entry e).map = true) :
    (s.removeImpl c (some e)).1 = (s.removeEntry e).eraseNode (s.entry e).mapEntry := by
  have hswap : (s.eraseNode (s.entry e).mapEntry).removeEntry e =
      (s.removeEntry e).eraseNode (s.entry e).mapEntry := by
    unfold eraseNode
    by_cases hmem : (s.entry e).mapEntry ∈ s.nodes.map Node.id
    · rw [if_pos hmem]
      exact (if_pos hmem).symm
    · rw [if_neg hmem]
      exact (if_neg hmem).symm
  cases c with
  | hashTable => simp [removeImpl,hmap,hswap]
  | rbTree => simp [removeImpl,hmap]

theorem Inv.removeLive (h : s.Inv es) (c : Container) (he : e ∈ es) :
    ∃ es', (s.removeImpl c (some e)).1.Inv es' := by
  obtain ⟨l,r,rfl⟩ := List.append_of_mem he
  have hmap : (s.entry e).map = true := by
    rw [h.map,decide_eq_true (h.allocated e he)]
  rw [removeImpl_eq c hmap]
  exact ⟨l ++ r,h.remove⟩

theorem Inv.removeStale (h : s.Inv es) (c : Container) (hlt : e < s.allocated) (he : e ∉ es) :
    (s.removeImpl c (some e)).1.freedTouched = true := by
  have hmap : (s.entry e).map = true := by
    rw [h.map,decide_eq_true hlt]
  rw [removeImpl_eq c hmap]
  have hgone : (s.entry e).mapEntry ∉ (s.removeEntry e).nodes.map Node.id := h.gone e hlt he
  unfold eraseNode
  rw [if_neg hgone]

theorem Inv.removeUnknown (h : s.Inv es) (c : Container) (hlt : ¬ e < s.allocated) :
    s.removeImpl c (some e) = (s,.thrown) := by
  have hmap : (s.entry e).map = false := by
    rw [h.map,decide_eq_false hlt]
  simp [removeImpl,hmap]

theorem Inv.clear (h : s.Inv es) : s.clear.Inv [] where
  links := by
    apply Links.holds_nil
    · simp [MapState.clear,clearMap,clearNodes]
    · simp [MapState.clear,clearMap,clearNodes]
  count := rfl
  paired := .nil
  distinct := List.nodup_nil
  intact := h.intact
  fresh _ hn := absurd hn List.not_mem_nil
  allocated _ he := absurd he List.not_mem_nil
  map := h.map
  known := h.known
  gone _ _ _ := List.not_mem_nil

theorem Corresponds.findValue (h : s.Corresponds es) {key : K} (hfind : s.findValue key = some e) :
    e ∈ es := by
  obtain ⟨i,-,hi⟩ := Option.bind_eq_some_iff.mp hfind
  obtain ⟨n,hn,hvalue⟩ := Option.bind_eq_some_iff.mp hi
  obtain ⟨hlt,rfl⟩ := List.getElem?_eq_some_iff.mp hn
  have hlen := h.paired.length_eq
  have hp := h.paired.get hlt (hlen ▸ hlt)
  have heq : es.get ⟨i,hlen ▸ hlt⟩ = e := Option.some.inj (hp.value.symm.trans hvalue)
  exact heq ▸ List.get_mem es _

theorem Inv.call (h : s.Inv es) (c : Container) {a : MapCall K}
    (hok : s.removesLive a = true) : ∃ es', (s.call c a).1.Inv es' := by
  cases a with
  | visit key =>
    obtain ⟨e,es',-,-,hinv,-⟩ := h.visitImpl key
    exact ⟨es',hinv⟩
  | find key => exact ⟨es,h⟩
  | remove entry =>
    cases entry with
    | none => exact ⟨es,h⟩
    | some e =>
      by_cases hlt : e < s.allocated
      · have he : e ∈ es := by
          rw [← h.entries_eq]
          exact of_decide_eq_true hok hlt
        exact h.removeLive c he
      · rw [MapState.call,h.removeUnknown c hlt]
        exact ⟨es,h⟩
  | removeKey key =>
    rw [MapState.call]
    split
    · exact ⟨es,h⟩
    · rename_i e hfind
      exact h.removeLive c (h.findValue hfind)
  | clear => exact ⟨[],h.clear⟩

theorem Inv.touched (h : s.Inv es) (c : Container) {a : MapCall K}
    (hok : ¬ s.removesLive a = true) :
    (s.call c a).1.freedTouched = true ∧ ∃ e, a = .remove (some e) ∧ s.Stale e := by
  cases a with
  | remove entry =>
    cases entry with
    | none => exact absurd rfl hok
    | some e =>
      have hstale : s.Stale e := by simpa [removesLive,Stale] using hok
      have hnot : e ∉ es := h.entries_eq ▸ hstale.2
      exact ⟨h.removeStale c hstale.1 hnot,e,rfl,hstale⟩
  | _ => exact absurd rfl hok

theorem Inv.rejects_iff (h : s.Inv es) (c : Container) (a : MapCall K) :
    s.Rejects c a ↔ s.removesLive a = true := by
  constructor
  · intro hrejects
    by_contra hok
    obtain ⟨htouched,e,rfl,hstale⟩ := h.touched c hok
    rw [hrejects hstale,h.intact] at htouched
    cases htouched
  · intro hok
    cases a with
    | remove entry =>
      cases entry with
      | none => trivial
      | some e => exact fun hstale => absurd (of_decide_eq_true hok hstale.1) hstale.2
    | _ => trivial

/-- Exactly the runs that remove no entry twice, and none after a clear, keep entries and nodes
together. -/
theorem mapKept_iff [Inhabited K] (T : NativeTable K) (c : Container) (calls : List (MapCall K)) :
    MapKept T c calls ↔
      Run.Along (step c) (fun s a => s.removesLive a = true) (initial T) calls := by
  have hinitial : ∃ es, (initial T).Inv es := ⟨[],initial_inv⟩
  have hkeep : ∀ s a s', (∃ es, s.Inv es) → s.removesLive a = true → step c s a = some s' →
      ∃ es, Inv (T := T) s' es := by
    rintro s a s' ⟨es,h⟩ hok hstep
    obtain rfl := Option.some.inj hstep
    exact h.call c hok
  have halways : Run.Always (step c) InCorrespondence (initial T) calls ↔
      Run.Along (step c) (fun s a => s.removesLive a = true) (initial T) calls := by
    refine Run.always_iff_along ?_ hkeep ?_ hinitial calls
    · rintro s ⟨es,h⟩
      exact h.inCorrespondence
    · rintro s a s' ⟨es,h⟩ hok hstep hcorr
      obtain rfl := Option.some.inj hstep
      have hintact : (s.call c a).1.freedTouched = false := hcorr.intact
      rw [(h.touched c hok).1] at hintact
      cases hintact
  have hrejects : Run.Along (step c) (Rejects c) (initial T) calls ↔
      Run.Along (step c) (fun s a => s.removesLive a = true) (initial T) calls := by
    refine Run.along_iff_along ?_ hkeep hinitial calls
    rintro s a s' ⟨es,h⟩ _
    exact h.rejects_iff c a
  constructor
  · exact fun hkept => halways.mp hkept.corresponds
  · exact fun hok => ⟨halways.mpr hok,hrejects.mpr hok⟩

/-- Iteration is in the order of insertion. -/
def hashTable (K : Type) (isEqual : K → K → Bool) : NativeTable K where
  Shape := Unit
  initial := ()
  find _ keys key := if keys.findIdx (isEqual key) < keys.length then
    some (keys.findIdx (isEqual key)) else none
  insertAt _ keys _ := keys.length
  inserted _ _ := ()
  erased _ _ := ()
  cleared _ := ()
  find_lt := by
    intro s keys key i h
    split at h
    · rename_i hlt
      exact Option.some.inj h ▸ hlt
    · cases h
  insertAt_le _ keys _ := Nat.le_refl keys.length

/-- Iteration is in the order of the keys. -/
def rbTree (K : Type) (lt : K → K → Bool) : NativeTable K where
  Shape := Unit
  initial := ()
  find _ keys key :=
    let i := keys.findIdx (fun k => !lt k key)
    if h : i < keys.length then if lt key keys[i] then none else some i else none
  insertAt _ keys key := keys.findIdx (fun k => !lt k key)
  inserted _ _ := ()
  erased _ _ := ()
  cleared _ := ()
  find_lt := by
    intro s keys key i h
    dsimp only at h
    split at h
    · rename_i hlt
      split at h
      · cases h
      · exact Option.some.inj h ▸ hlt
    · cases h
  insertAt_le _ keys _ := List.findIdx_le_length

example : (((initial (rbTree ℕ (· < ·))).visitImpl 7).1.visitImpl 3).1.entries = [1,0] := by
  decide

/-- The second removal of an entry is not rejected. -/
theorem not_mapKept_removed_twice :
    ¬ MapKept (hashTable ℕ (· == ·)) .hashTable [.visit 7,.remove (some 0),.remove (some 0)] := by
  rintro ⟨-,hrejects⟩
  have hstale : Rejects (T := hashTable ℕ (· == ·)) .hashTable _ (.remove (some 0)) :=
    hrejects.2.2.1
  have hthrown := congrArg Prod.snd (hstale (by unfold Stale; decide))
  cases hthrown

end MapState

end Jancy.Std
