import Jancy.Std.List

/-! What the operations on the links of `std.List` do to the sequences. -/
namespace Jancy.Std

namespace ListHeap

variable {V : Type} {h : ListHeap V} {seqs : ListId → List EntryId} {l l' : ListId} {e : EntryId}
  {xs ys : List EntryId}

theorem Represents.length_le (hr : h.Represents seqs) (l : ListId) :
    (seqs l).length ≤ h.allocated := hr.lists.length_le (hr.allocated l)

theorem Represents.entriesOf_eq (hr : h.Represents seqs) : h.entriesOf = seqs := by
  funext l
  exact hr.lists.walk_eq (hr.length_le l)

theorem Represents.wellFormed (hr : h.Represents seqs) : h.WellFormed := by
  unfold WellFormed
  rwa [hr.entriesOf_eq]

theorem putBefore_split {b : EntryId} (hb : b ∉ xs) :
    putBefore b e (xs ++ b :: ys) = xs ++ e :: b :: ys := by
  induction xs with
  | nil => simp [putBefore]
  | cons x xs ih =>
    rw [List.mem_cons,not_or] at hb
    rw [List.cons_append,putBefore,if_neg (Ne.symm hb.1),ih hb.2,List.cons_append]

theorem putAfter_split {a : EntryId} (ha : a ∉ xs) :
    putAfter a e (xs ++ a :: ys) = xs ++ a :: e :: ys := by
  induction xs with
  | nil => simp [putAfter]
  | cons x xs ih =>
    rw [List.mem_cons,not_or] at ha
    rw [List.cons_append,putAfter,if_neg (Ne.symm ha.1),ih ha.2,List.cons_append]

variable {lists : LinkedLists ListId EntryId} {zs : List EntryId}

theorem represents_insertBefore {b : EntryId} (hr : lists.Represents seqs)
    (hfresh : ∀ l', e ∉ seqs l') (hplace : placeBefore (some b) e (seqs l) = some zs) :
    (lists.insertBetween l (lists.prev b) (some b) e).Represents (Function.update seqs l zs) ∧
      ∀ x ∈ zs, x = e ∨ x ∈ seqs l := by
  rw [placeBefore] at hplace
  split at hplace
  · rename_i hb
    obtain ⟨xs,ys,hl⟩ := List.append_of_mem hb
    have hold := hr.links l
    have hnd := hold.nodup
    rw [hl] at hold hplace hnd
    have hnot := (List.nodup_cons.mp (List.nodup_middle.mp hnd)).1
    rw [putBefore_split (fun hx => hnot (List.mem_append_left ys hx))] at hplace
    obtain rfl := Option.some.inj hplace
    have hprev : lists.prev b = xs.getLast? := hold.prev_some
    have hins := hr.insertBetween hl hfresh
    rw [← hprev] at hins
    refine ⟨hins,?_⟩
    intro x hx
    rw [hl]
    simp only [List.mem_append,List.mem_cons] at hx ⊢
    tauto
  · cases hplace

theorem represents_insertAfter {a : EntryId} (hr : lists.Represents seqs)
    (hfresh : ∀ l', e ∉ seqs l') (hplace : placeAfter (some a) e (seqs l) = some zs) :
    (lists.insertBetween l (some a) (lists.next a) e).Represents (Function.update seqs l zs) ∧
      ∀ x ∈ zs, x = e ∨ x ∈ seqs l := by
  rw [placeAfter] at hplace
  split at hplace
  · rename_i ha
    obtain ⟨xs,ys,hl⟩ := List.append_of_mem ha
    have hold := hr.links l
    have hnd := hold.nodup
    rw [hl] at hold hplace hnd
    have hnot := (List.nodup_cons.mp (List.nodup_middle.mp hnd)).1
    rw [putAfter_split (fun hx => hnot (List.mem_append_left ys hx))] at hplace
    obtain rfl := Option.some.inj hplace
    have hnext : lists.next a = ys.head? := hold.next_some
    have hcut : seqs l = (xs ++ [a]) ++ ys := by simpa using hl
    have hins := hr.insertBetween hcut hfresh
    rw [List.getLast?_concat,List.append_assoc,← hnext] at hins
    refine ⟨hins,?_⟩
    intro x hx
    rw [hl]
    simp only [List.mem_append,List.mem_cons] at hx ⊢
    tauto
  · cases hplace

/-- An implementation puts entries that are on no list where `place` says. -/
def Places (l : ListId) (impl : ListHeap V → EntryId → ListHeap V)
    (place : EntryId → List EntryId → Option (List EntryId)) : Prop :=
  ∀ (h : ListHeap V) (seqs : ListId → List EntryId) (e : EntryId) (zs : List EntryId),
    h.Represents seqs → (∀ l', e ∉ seqs l') → h.owner e = some l → e < h.allocated →
    place e (seqs l) = some zs →
      (impl h e).Represents (Function.update seqs l zs) ∧ (impl h e).data = h.data

theorem Represents.of_lists (hr : h.Represents seqs)
    (hlists : lists.Represents (Function.update seqs l zs)) (howner : h.owner e = some l)
    (halloc : e < h.allocated) (hmem : ∀ x ∈ zs, x = e ∨ x ∈ seqs l) :
    Represents { h with lists := lists } (Function.update seqs l zs) := by
  have hold : ∀ k, ∀ x ∈ Function.update seqs l zs k, x = e ∧ k = l ∨ x ∈ seqs k := by
    intro k x hx
    by_cases heq : k = l
    · subst heq
      rw [Function.update_self] at hx
      rcases hmem x hx with rfl | hx
      · exact .inl ⟨rfl,rfl⟩
      · exact .inr hx
    · rw [Function.update_of_ne heq] at hx
      exact .inr hx
  refine ⟨hlists,?_,?_⟩
  · intro k x hx
    rcases hold k x hx with ⟨rfl,rfl⟩ | hx
    · exact howner
    · exact hr.owner k x hx
  · intro k x hx
    rcases hold k x hx with ⟨rfl,rfl⟩ | hx
    · exact halloc
    · exact hr.allocated k x hx

theorem insertTailImpl_places (l : ListId) :
    Places (V := V) l (fun h e => h.insertTailImpl l e) (placeBefore none) := by
  intro h seqs e zs hr hfresh howner halloc hplace
  obtain rfl : seqs l ++ [e] = zs := Option.some.inj hplace
  refine ⟨hr.of_lists (hr.lists.insertTail hfresh) howner halloc ?_,rfl⟩
  intro x hx
  simp only [List.mem_append,List.mem_singleton] at hx
  exact hx.symm

theorem insertHeadImpl_places (l : ListId) :
    Places (V := V) l (fun h e => h.insertHeadImpl l e) (placeAfter none) := by
  intro h seqs e zs hr hfresh howner halloc hplace
  obtain rfl : e :: seqs l = zs := Option.some.inj hplace
  refine ⟨hr.of_lists (hr.lists.insertHead hfresh) howner halloc ?_,rfl⟩
  exact fun x hx => List.mem_cons.mp hx

theorem insertBeforeImpl_places (l : ListId) (before : Option EntryId) :
    Places (V := V) l (fun h e => h.insertBeforeImpl l e before) (placeBefore before) := by
  cases before with
  | none => exact insertTailImpl_places l
  | some b =>
    intro h seqs e zs hr hfresh howner halloc hplace
    obtain ⟨hins,hmem⟩ := represents_insertBefore hr.lists hfresh hplace
    exact ⟨hr.of_lists hins howner halloc hmem,rfl⟩

theorem insertAfterImpl_places (l : ListId) (after : Option EntryId) :
    Places (V := V) l (fun h e => h.insertAfterImpl l e after) (placeAfter after) := by
  cases after with
  | none => exact insertHeadImpl_places l
  | some a =>
    intro h seqs e zs hr hfresh howner halloc hplace
    obtain ⟨hins,hmem⟩ := represents_insertAfter hr.lists hfresh hplace
    exact ⟨hr.of_lists hins howner halloc hmem,rfl⟩

/-- The heap after `m_list` of some entries was set. -/
def withOwner (h : ListHeap V) (owner : Option ListId) (xs : List EntryId) : ListHeap V :=
  { h with owner x := if x ∈ xs then owner else h.owner x }

theorem setOwner_eq (owner : Option ListId) {u : Option EntryId} {n : ℕ}
    (hlead : (h.lists.links l).Leads u xs) (hn : xs.length ≤ n) :
    h.setOwner owner n u = some (h.withOwner owner xs) := by
  induction xs generalizing h u n with
  | nil =>
    rw [show u = none from hlead,setOwner]
    simp [withOwner]
  | cons x xs ih =>
    obtain ⟨rfl,hlead⟩ := hlead
    cases n with
    | zero => exact absurd hn (Nat.not_succ_le_zero _)
    | succ n =>
      have hrest := @ih { h with owner := Function.update h.owner x owner } (h.lists.next x) n
        hlead (Nat.le_of_succ_le_succ hn)
      rw [setOwner,hrest]
      congr 1
      unfold withOwner
      congr 1
      funext y
      by_cases hy : y = x
      · subst hy
        simp
      · simp [hy]

section

variable (hr : h.Represents seqs)

include hr

theorem Represents.setOwner (owner : Option ListId) (l : ListId) :
    h.setOwner owner h.allocated (h.lists.head l) = some (h.withOwner owner (seqs l)) :=
  setOwner_eq owner (hr.lists.links l).leads (hr.length_le l)

theorem Represents.clear_eq (l : ListId) :
    h.clear l = some { h.withOwner none (seqs l) with lists := h.lists.clear l } := by
  rw [ListHeap.clear,hr.setOwner]
  rfl

theorem Represents.takeOver_eq (l src : ListId) :
    h.takeOver l (some src) =
      some { h.withOwner (some l) (seqs src) with lists := h.lists.takeOver l src } := by
  rw [ListHeap.takeOver,hr.setOwner]
  rfl

theorem Represents.clear (l : ListId) :
    Represents { h.withOwner none (seqs l) with lists := h.lists.clear l }
      (Function.update seqs l []) := by
  refine ⟨hr.lists.clear l,?_,?_⟩
  · intro k x hx
    by_cases heq : k = l
    · simp [heq] at hx
    · rw [Function.update_of_ne heq] at hx
      have hnot : x ∉ seqs l := fun hmem => heq (hr.lists.disjoint hx hmem)
      simp [withOwner,hnot,hr.owner k x hx]
  · intro k x hx
    by_cases heq : k = l
    · simp [heq] at hx
    · rw [Function.update_of_ne heq] at hx
      exact hr.allocated k x hx

theorem Represents.takeOver (hne : l' ≠ l) :
    Represents { h.withOwner (some l) (seqs l') with lists := h.lists.takeOver l l' }
      (Function.update (Function.update seqs l (seqs l')) l' []) := by
  refine ⟨hr.lists.takeOver hne,?_,?_⟩
  · intro k x hx
    by_cases hsrc : k = l'
    · simp [hsrc] at hx
    · rw [Function.update_of_ne hsrc] at hx
      by_cases hdst : k = l
      · subst hdst
        rw [Function.update_self] at hx
        simp [withOwner,hx]
      · rw [Function.update_of_ne hdst] at hx
        have hnot : x ∉ seqs l' := fun hmem => hsrc (hr.lists.disjoint hx hmem)
        simp [withOwner,hnot,hr.owner k x hx]
  · intro k x hx
    by_cases hsrc : k = l'
    · simp [hsrc] at hx
    · rw [Function.update_of_ne hsrc] at hx
      by_cases hdst : k = l
      · subst hdst
        rw [Function.update_self] at hx
        exact hr.allocated l' x hx
      · rw [Function.update_of_ne hdst] at hx
        exact hr.allocated k x hx

theorem Represents.allocate (l : ListId) (data : V) :
    (h.allocateListEntry l data).Represents seqs := by
  refine ⟨hr.lists,?_,?_⟩
  · intro k e he
    have hne : e ≠ h.allocated := Nat.ne_of_lt (hr.allocated k e he)
    simp [allocateListEntry,hne,hr.owner k e he]
  · intro k e he
    exact Nat.lt_succ_of_lt (hr.allocated k e he)

theorem Represents.insertWith {impl : ListHeap V → EntryId → ListHeap V}
    {place : EntryId → List EntryId → Option (List EntryId)} (hp : Places l impl place) (data : V)
    (hplace : place h.allocated (seqs l) = some zs) :
    (h.insertWith l data impl).1.Represents (Function.update seqs l zs) ∧
      (h.insertWith l data impl).1.data = Function.update h.data h.allocated data := by
  have hfresh : ∀ l', h.allocated ∉ seqs l' :=
    fun l' hmem => Nat.lt_irrefl _ (hr.allocated l' _ hmem)
  have howner : (h.allocateListEntry l data).owner h.allocated = some l := by
    simp [allocateListEntry]
  exact hp _ _ _ _ (hr.allocate l data) hfresh howner (Nat.lt_succ_self h.allocated) hplace

theorem Represents.removeImpl (hmem : e ∈ seqs l) :
    (h.removeImpl l e).Represents (Function.update seqs l ((seqs l).erase e)) := by
  have hold : ∀ k, ∀ x ∈ Function.update seqs l ((seqs l).erase e) k, x ∈ seqs k := by
    intro k x hx
    by_cases heq : k = l
    · subst heq
      rw [Function.update_self] at hx
      exact List.mem_of_mem_erase hx
    · rwa [Function.update_of_ne heq] at hx
  exact ⟨(hr.lists.remove hmem).1,fun k x hx => hr.owner k x (hold k x hx),
    fun k x hx => hr.allocated k x (hold k x hx)⟩

theorem Represents.moveWith {impl : ListHeap V → EntryId → ListHeap V}
    {place : EntryId → List EntryId → Option (List EntryId)} (hp : Places l impl place)
    {entry : Option EntryId} (hok : ∀ e ∈ entry, h.owner e = some l →
      e ∈ seqs l ∧ (place e ((seqs l).erase e)).isSome) :
    (h.moveWith l entry impl).Represents
        (((placeMoved place entry (seqs l)).map (Function.update seqs l)).getD seqs) ∧
      (h.moveWith l entry impl).data = h.data := by
  cases entry with
  | none => exact ⟨hr,rfl⟩
  | some e =>
    by_cases howner : h.owner e = some l
    · obtain ⟨hmem,hplace⟩ := hok e rfl howner
      obtain ⟨zs,hzs⟩ := Option.isSome_iff_exists.mp hplace
      have hfound : place e (Function.update seqs l ((seqs l).erase e) l) = some zs := by
        rwa [Function.update_self]
      obtain ⟨hrep,hdata⟩ := hp _ _ e zs (hr.removeImpl hmem) (hr.lists.remove hmem).2 howner
        (hr.allocated l e hmem) hfound
      rw [Function.update_idem] at hrep
      have hmove : h.moveWith l (some e) impl = impl (h.removeImpl l e) e := by
        simp [ListHeap.moveWith,howner]
      rw [hmove]
      exact ⟨by simpa [placeMoved,hmem,hzs] using hrep,hdata⟩
    · have hnot : e ∉ seqs l := fun hmem => howner (hr.owner l e hmem)
      have hmove : h.moveWith l (some e) impl = h := by
        simp [ListHeap.moveWith,howner]
      rw [hmove]
      exact ⟨by simpa [placeMoved,hnot] using hr,rfl⟩

theorem Represents.remove [Inhabited V] {entry : Option EntryId}
    (hok : ∀ e ∈ entry, h.owner e = some l → e ∈ seqs l) :
    (h.remove l entry).1.Represents
        (((takeOut entry (seqs l)).map (Function.update seqs l)).getD seqs) ∧
      (h.remove l entry).2 = .data (dataOf h entry (seqs l)) ∧
      (h.remove l entry).1.data = h.data := by
  cases entry with
  | none => exact ⟨hr,rfl,rfl⟩
  | some e =>
    by_cases howner : h.owner e = some l
    · have hmem := hok e rfl howner
      have hremoved := hr.removeImpl hmem
      have hout := (hr.lists.remove hmem).2
      have hrep : Represents { h with
          lists := (h.lists.remove l e).forget e
          owner := Function.update h.owner e none }
            (Function.update seqs l ((seqs l).erase e)) := by
        refine ⟨hremoved.lists.forget hout,?_,hremoved.allocated⟩
        intro k x hx
        have hne : x ≠ e := fun heq => hout k (heq ▸ hx)
        exact (Function.update_of_ne hne _ _).trans (hremoved.owner k x hx)
      have hremove : h.remove l (some e) = ({ h with
          lists := (h.lists.remove l e).forget e
          owner := Function.update h.owner e none },.data (h.data e)) := by
        simp [ListHeap.remove,howner]
      rw [hremove]
      exact ⟨by simpa [takeOut,hmem] using hrep,by simp [dataOf,hmem],rfl⟩
    · have hnot : e ∉ seqs l := fun hmem => howner (hr.owner l e hmem)
      have hremove : h.remove l (some e) = (h,.data default) := by
        simp [ListHeap.remove,howner]
      rw [hremove]
      exact ⟨by simpa [takeOut,hnot] using hr,by simp [dataOf,hnot],rfl⟩

end

end ListHeap

end Jancy.Std
