import Jancy.Lib.Links
import Mathlib.Data.List.Perm.Subperm
import Mathlib.Algebra.Group.Nat.Defs

/-! Many doubly linked lists over entries that have one pair of links each. -/

structure LinkedLists (ι α : Type*) where
  next : α → Option α
  prev : α → Option α
  head : ι → Option α
  tail : ι → Option α
  count : ι → ℕ

namespace LinkedLists

variable {ι α : Type*}

def empty : LinkedLists ι α where
  next _ := none
  prev _ := none
  head _ := none
  tail _ := none
  count _ := 0

/-- The links as one of the lists sees them. -/
def links (h : LinkedLists ι α) (l : ι) : Links α where
  next
    | none => h.head l
    | some a => h.next a
  prev
    | none => h.tail l
    | some a => h.prev a

/-- Links and counters are those of the sequences, and no entry is on two lists. -/
structure Represents (h : LinkedLists ι α) (seqs : ι → List α) : Prop where
  links : ∀ l, (h.links l).Holds (seqs l)
  count : ∀ l, h.count l = (seqs l).length
  disjoint : ∀ {l l' a}, a ∈ seqs l → a ∈ seqs l' → l = l'

theorem empty_represents : (empty : LinkedLists ι α).Represents (fun _ => []) where
  links _ := Links.holds_nil rfl rfl
  count _ := rfl
  disjoint ha := absurd ha List.not_mem_nil

section Operations

variable [DecidableEq ι] [DecidableEq α] (h : LinkedLists ι α)

/-- Store to the link that leads on from an entry, or to the head of the list. -/
def setNext (l : ι) (u v : Option α) : LinkedLists ι α :=
  match u with
  | some a => { h with next := Function.update h.next a v }
  | none => { h with head := Function.update h.head l v }

/-- Store to the link that leads back from an entry, or to the tail of the list. -/
def setPrev (l : ι) (u v : Option α) : LinkedLists ι α :=
  match u with
  | some a => { h with prev := Function.update h.prev a v }
  | none => { h with tail := Function.update h.tail l v }

def setCount (l : ι) (n : ℕ) : LinkedLists ι α := { h with count := Function.update h.count l n }

def insertBetween (l : ι) (u v : Option α) (a : α) : LinkedLists ι α :=
  ((((h.setPrev l (some a) u).setNext l (some a) v).setPrev l v (some a)).setNext l u
    (some a)).setCount l (h.count l + 1)

/-- Counters are unsigned and of 64 bits. -/
def remove (l : ι) (a : α) : LinkedLists ι α :=
  ((h.setNext l (h.prev a) (h.next a)).setPrev l (h.next a) (h.prev a)).setCount l
    (if h.count l = 0 then 2 ^ 64 - 1 else h.count l - 1)

/-- Reset the links of an entry. -/
def forget (a : α) : LinkedLists ι α :=
  { h with prev := Function.update h.prev a none,next := Function.update h.next a none }

def setEnds (l : ι) (head tail : Option α) (count : ℕ) : LinkedLists ι α :=
  { h with
    head := Function.update h.head l head
    tail := Function.update h.tail l tail
    count := Function.update h.count l count }

def clear (l : ι) : LinkedLists ι α := h.setEnds l none none 0

def takeOver (l src : ι) : LinkedLists ι α :=
  (h.setEnds l (h.head src) (h.tail src) (h.count src)).clear src

end Operations

section Stores

variable [DecidableEq ι] [DecidableEq α] {h : LinkedLists ι α} {l l' : ι} {u v w : Option α}
  {xs : List α}

theorem links_setNext_next : ((h.setNext l u v).links l).next =
    Function.update (h.links l).next u v := by
  funext w
  cases u <;> cases w <;> simp [links,setNext,Function.update_apply]

theorem links_setPrev_prev : ((h.setPrev l u v).links l).prev =
    Function.update (h.links l).prev u v := by
  funext w
  cases u <;> cases w <;> simp [links,setPrev,Function.update_apply]

@[simp] theorem links_setNext_prev : ((h.setNext l u v).links l').prev = (h.links l').prev := by
  cases u <;> rfl

@[simp] theorem links_setPrev_next : ((h.setPrev l u v).links l').next = (h.links l').next := by
  cases u <;> rfl

@[simp] theorem setNext_count : (h.setNext l u v).count = h.count := by
  cases u <;> rfl

@[simp] theorem setPrev_count : (h.setPrev l u v).count = h.count := by
  cases u <;> rfl

omit [DecidableEq α] in
@[simp] theorem links_setCount (n : ℕ) : (h.setCount l n).links l' = h.links l' := rfl

theorem links_setNext_other (hl : l' ≠ l) (hw : w = none ∨ w ≠ u) :
    ((h.setNext l u v).links l').next w = (h.links l').next w := by
  cases u with
  | none => cases w <;> simp [links,setNext,hl]
  | some a =>
    cases w with
    | none => rfl
    | some x =>
      have hne : x ≠ a := by simpa using hw
      simp [links,setNext,hne]

theorem links_setPrev_other (hl : l' ≠ l) (hw : w = none ∨ w ≠ u) :
    ((h.setPrev l u v).links l').prev w = (h.links l').prev w := by
  cases u with
  | none => cases w <;> simp [links,setPrev,hl]
  | some a =>
    cases w with
    | none => rfl
    | some x =>
      have hne : x ≠ a := by simpa using hw
      simp [links,setPrev,hne]

theorem holds_setNext (hl : l' ≠ l) (hc : (h.links l').Holds xs)
    (hu : ∀ x ∈ xs, u ≠ some x) (v : Option α) : ((h.setNext l u v).links l').Holds xs := by
  apply hc.congr
  · rintro w hw
    apply links_setNext_other hl
    rcases hw with rfl | hw
    · exact .inl rfl
    · obtain ⟨x,hx,rfl⟩ := List.mem_map.mp hw
      exact .inr (hu x hx).symm
  · intro w _
    rw [links_setNext_prev]

theorem holds_setPrev (hl : l' ≠ l) (hc : (h.links l').Holds xs)
    (hu : ∀ x ∈ xs, u ≠ some x) (v : Option α) : ((h.setPrev l u v).links l').Holds xs := by
  apply hc.congr
  · intro w _
    rw [links_setPrev_next]
  · rintro w hw
    apply links_setPrev_other hl
    rcases hw with rfl | hw
    · exact .inl rfl
    · obtain ⟨x,hx,rfl⟩ := List.mem_map.mp hw
      exact .inr (hu x hx).symm

theorem links_insertBetween (a : α) :
    (h.insertBetween l u v a).links l = (h.links l).link u v a := by
  rw [insertBetween,links_setCount]
  apply Links.ext
  · simp [Links.link,links_setNext_next]
  · simp [Links.link,links_setPrev_prev]

theorem links_remove (a : α) : (h.remove l a).links l = (h.links l).unlink a := by
  rw [remove,links_setCount]
  apply Links.ext
  · rw [links_setPrev_next,links_setNext_next]
    rfl
  · rw [links_setPrev_prev,links_setNext_prev]
    rfl

theorem remove_count_ne (a : α) : (h.remove l a).count l ≠ h.count l := by
  have hcount : (h.remove l a).count l = if h.count l = 0 then 2 ^ 64 - 1 else h.count l - 1 := by
    simp [remove,setCount]
  rw [hcount]
  split
  · omega
  · omega

omit [DecidableEq α] in
theorem takeOver_self : h.takeOver l l = h.clear l := by
  simp [takeOver,clear,setEnds]

omit [DecidableEq α] in
@[simp] theorem links_setEnds (head tail : Option α) (n : ℕ) (hl : l' ≠ l) :
    (h.setEnds l head tail n).links l' = h.links l' := by
  simp [links,setEnds,hl]

end Stores

section Sequences

variable {h : LinkedLists ι α} {seqs : ι → List α} {l l' : ι} {a : α} {xs ys : List α}

theorem Represents.walk_eq (hr : h.Represents seqs) {n : ℕ} (hn : (seqs l).length ≤ n) :
    (h.links l).walk n (h.head l) = seqs l := (hr.links l).walk_eq hn

theorem Represents.length_le {seqs : ι → List ℕ} {h : LinkedLists ι ℕ} (hr : h.Represents seqs)
    {n : ℕ} (hn : ∀ a ∈ seqs l, a < n) : (seqs l).length ≤ n := by
  have hsub : seqs l ⊆ List.range n := fun a ha => List.mem_range.mpr (hn a ha)
  simpa using (List.subperm_of_subset (hr.links l).nodup hsub).length_le

theorem Represents.not_elsewhere (hr : h.Represents seqs) (hl : l' ≠ l) {u : Option α}
    (hu : ∀ x ∈ u, x ∈ seqs l) : ∀ x ∈ seqs l', u ≠ some x := by
  rintro x hx rfl
  exact hl (hr.disjoint hx (hu x rfl))

theorem Represents.nodup (hr : h.Represents seqs) (l : ι) : (seqs l).Nodup := (hr.links l).nodup

variable [DecidableEq ι] [DecidableEq α]

theorem Represents.insertBetween (hr : h.Represents seqs) (hl : seqs l = xs ++ ys)
    (hfresh : ∀ l', a ∉ seqs l') :
    (h.insertBetween l xs.getLast? ys.head? a).Represents
      (Function.update seqs l (xs ++ a :: ys)) := by
  have hprev : ∀ x ∈ xs.getLast?, x ∈ seqs l := by
    intro x hx
    rw [hl]
    exact List.mem_append_left ys (List.mem_of_getLast? hx)
  have hnext : ∀ x ∈ ys.head?, x ∈ seqs l := by
    intro x hx
    rw [hl]
    exact List.mem_append_right xs (List.mem_of_head? hx)
  have hmem : ∀ k, ∀ x ∈ Function.update seqs l (xs ++ a :: ys) k,
      x = a ∧ k = l ∨ x ∈ seqs k := by
    intro k x hx
    by_cases heq : k = l
    · subst heq
      rw [Function.update_self] at hx
      rw [hl]
      simp only [List.mem_append,List.mem_cons] at hx ⊢
      tauto
    · rw [Function.update_of_ne heq] at hx
      exact .inr hx
  refine ⟨?_,?_,?_⟩
  · intro k
    by_cases heq : k = l
    · subst heq
      rw [Function.update_self,links_insertBetween]
      have hold := hr.links k
      rw [hl] at hold
      exact hold.link (hl ▸ hfresh k)
    · rw [Function.update_of_ne heq,LinkedLists.insertBetween,links_setCount]
      have hself : ∀ x ∈ seqs k, some a ≠ some x := by
        rintro x hx heq
        exact hfresh k (Option.some.inj heq ▸ hx)
      have h₁ := holds_setPrev heq (hr.links k) hself xs.getLast?
      have h₂ := holds_setNext heq h₁ hself ys.head?
      have h₃ := holds_setPrev heq h₂ (hr.not_elsewhere heq hnext) (some a)
      exact holds_setNext heq h₃ (hr.not_elsewhere heq hprev) (some a)
  · intro k
    by_cases heq : k = l
    · subst heq
      have hcount := hr.count k
      rw [hl] at hcount
      simp [LinkedLists.insertBetween,setCount,hcount]
      omega
    · simp [LinkedLists.insertBetween,setCount,heq,hr.count k]
  · intro k k' x hx hx'
    rcases hmem k x hx with ⟨rfl,rfl⟩ | hold
    · rcases hmem k' x hx' with ⟨-,rfl⟩ | hold'
      · rfl
      · exact absurd hold' (hfresh k')
    · rcases hmem k' x hx' with ⟨rfl,rfl⟩ | hold'
      · exact absurd hold (hfresh k)
      · exact hr.disjoint hold hold'

theorem Represents.insertTail (hr : h.Represents seqs) (hfresh : ∀ l', a ∉ seqs l') :
    (h.insertBetween l (h.tail l) none a).Represents
      (Function.update seqs l (seqs l ++ [a])) := by
  have htail : h.tail l = (seqs l).getLast? := (hr.links l).prev_none
  rw [htail]
  exact hr.insertBetween (List.append_nil (seqs l)).symm hfresh

theorem Represents.insertHead (hr : h.Represents seqs) (hfresh : ∀ l', a ∉ seqs l') :
    (h.insertBetween l none (h.head l) a).Represents (Function.update seqs l (a :: seqs l)) := by
  have hhead : h.head l = (seqs l).head? := (hr.links l).next_none
  have hcut : seqs l = [] ++ seqs l := rfl
  rw [hhead]
  exact hr.insertBetween hcut hfresh

omit [DecidableEq α] in
theorem Represents.disjoint_update (hr : h.Represents seqs) (hsub : ∀ x ∈ xs, x ∈ seqs l)
    {k k' : ι} {x : α} (hx : x ∈ Function.update seqs l xs k)
    (hx' : x ∈ Function.update seqs l xs k') : k = k' := by
  have hold : ∀ j, x ∈ Function.update seqs l xs j → x ∈ seqs j := by
    intro j hj
    by_cases heq : j = l
    · subst heq
      rw [Function.update_self] at hj
      exact hsub x hj
    · rwa [Function.update_of_ne heq] at hj
  exact hr.disjoint (hold k hx) (hold k' hx')

theorem Represents.remove_split (hr : h.Represents seqs) (hl : seqs l = xs ++ a :: ys) :
    (h.remove l a).Represents (Function.update seqs l (xs ++ ys)) := by
  have hold := hr.links l
  rw [hl] at hold
  have hprev : h.prev a = xs.getLast? := hold.prev_some
  have hnext : h.next a = ys.head? := hold.next_some
  have hsub : ∀ x ∈ xs ++ ys, x ∈ seqs l := by
    intro x hx
    rw [hl]
    simp only [List.mem_append,List.mem_cons] at hx ⊢
    tauto
  have hprev' : ∀ x ∈ h.prev a, x ∈ seqs l := by
    intro x hx
    rw [hprev] at hx
    exact hsub x (List.mem_append_left ys (List.mem_of_getLast? hx))
  have hnext' : ∀ x ∈ h.next a, x ∈ seqs l := by
    intro x hx
    rw [hnext] at hx
    exact hsub x (List.mem_append_right xs (List.mem_of_head? hx))
  refine ⟨?_,?_,hr.disjoint_update hsub⟩
  · intro k
    by_cases heq : k = l
    · subst heq
      rw [Function.update_self,links_remove]
      exact hold.unlink
    · rw [Function.update_of_ne heq,LinkedLists.remove,links_setCount]
      have h₁ := holds_setNext heq (hr.links k) (hr.not_elsewhere heq hprev') (h.next a)
      exact holds_setPrev heq h₁ (hr.not_elsewhere heq hnext') (h.prev a)
  · intro k
    by_cases heq : k = l
    · subst heq
      have hcount := hr.count k
      rw [hl] at hcount
      simp [LinkedLists.remove,setCount,hcount]
    · simp [LinkedLists.remove,setCount,heq,hr.count k]

theorem Represents.remove (hr : h.Represents seqs) (ha : a ∈ seqs l) :
    (h.remove l a).Represents (Function.update seqs l ((seqs l).erase a)) ∧
      ∀ k, a ∉ Function.update seqs l ((seqs l).erase a) k := by
  obtain ⟨xs,ys,hl⟩ := List.append_of_mem ha
  have hnd := hr.nodup l
  rw [hl] at hnd
  have hnot := (List.nodup_cons.mp (List.nodup_middle.mp hnd)).1
  have hxs : a ∉ xs := fun hx => hnot (List.mem_append_left ys hx)
  have herase : (seqs l).erase a = xs ++ ys := by
    rw [hl,List.erase_append_right _ hxs,List.erase_cons_head]
  rw [herase]
  refine ⟨hr.remove_split hl,?_⟩
  intro k
  by_cases heq : k = l
  · rw [heq,Function.update_self]
    exact hnot
  · rw [Function.update_of_ne heq]
    exact fun hk => heq (hr.disjoint hk ha)

omit [DecidableEq ι] in
theorem Represents.forget (hr : h.Represents seqs) (ha : ∀ k, a ∉ seqs k) :
    (h.forget a).Represents seqs := by
  refine ⟨?_,hr.count,hr.disjoint⟩
  intro k
  apply (hr.links k).congr
  · rintro u (rfl | hu)
    · rfl
    · obtain ⟨x,hx,rfl⟩ := List.mem_map.mp hu
      have hne : x ≠ a := fun heq => ha k (heq ▸ hx)
      simp [LinkedLists.links,LinkedLists.forget,hne]
  · rintro u (rfl | hu)
    · rfl
    · obtain ⟨x,hx,rfl⟩ := List.mem_map.mp hu
      have hne : x ≠ a := fun heq => ha k (heq ▸ hx)
      simp [LinkedLists.links,LinkedLists.forget,hne]

omit [DecidableEq α] in
theorem Represents.clear (hr : h.Represents seqs) (l : ι) :
    (h.clear l).Represents (Function.update seqs l []) := by
  refine ⟨?_,?_,hr.disjoint_update (fun x hx => absurd hx List.not_mem_nil)⟩
  · intro k
    by_cases heq : k = l
    · subst heq
      rw [Function.update_self]
      apply Links.holds_nil
      · simp [LinkedLists.links,LinkedLists.clear,setEnds]
      · simp [LinkedLists.links,LinkedLists.clear,setEnds]
    · rw [Function.update_of_ne heq,LinkedLists.clear,links_setEnds _ _ _ heq]
      exact hr.links k
  · intro k
    by_cases heq : k = l
    · simp [LinkedLists.clear,setEnds,heq]
    · simp [LinkedLists.clear,setEnds,heq,hr.count k]

omit [DecidableEq α] in
/-- Between the two steps of a transfer both lists have the entries. -/
theorem Represents.takeOver (hr : h.Represents seqs) {src : ι} (hne : src ≠ l) :
    (h.takeOver l src).Represents
      (Function.update (Function.update seqs l (seqs src)) src []) := by
  have hold : ∀ k x, x ∈ Function.update (Function.update seqs l (seqs src)) src [] k →
      k = l ∧ x ∈ seqs src ∨ k ≠ l ∧ k ≠ src ∧ x ∈ seqs k := by
    intro k x hx
    by_cases hsrc : k = src
    · simp [hsrc] at hx
    · rw [Function.update_of_ne hsrc] at hx
      by_cases hdst : k = l
      · subst hdst
        rw [Function.update_self] at hx
        exact .inl ⟨rfl,hx⟩
      · rw [Function.update_of_ne hdst] at hx
        exact .inr ⟨hdst,hsrc,hx⟩
  refine ⟨?_,?_,?_⟩
  · intro k
    by_cases hsrc : k = src
    · subst hsrc
      rw [Function.update_self]
      apply Links.holds_nil
      · simp [LinkedLists.links,LinkedLists.takeOver,LinkedLists.clear,setEnds]
      · simp [LinkedLists.links,LinkedLists.takeOver,LinkedLists.clear,setEnds]
    · rw [Function.update_of_ne hsrc,LinkedLists.takeOver,LinkedLists.clear,
        links_setEnds _ _ _ hsrc]
      by_cases hdst : k = l
      · subst hdst
        rw [Function.update_self]
        have hlinks : (h.setEnds k (h.head src) (h.tail src) (h.count src)).links k =
            h.links src := by
          simp [LinkedLists.links,setEnds]
        rw [hlinks]
        exact hr.links src
      · rw [Function.update_of_ne hdst,links_setEnds _ _ _ hdst]
        exact hr.links k
  · intro k
    by_cases hsrc : k = src
    · simp [LinkedLists.takeOver,LinkedLists.clear,setEnds,hsrc]
    · by_cases hdst : k = l
      · simp [LinkedLists.takeOver,LinkedLists.clear,setEnds,hdst,hne.symm,hr.count src]
      · simp [LinkedLists.takeOver,LinkedLists.clear,setEnds,hsrc,hdst,hr.count k]
  · intro k k' x hx hx'
    rcases hold k x hx with ⟨rfl,hsrc⟩ | ⟨-,hnotSrc,hmem⟩
    · rcases hold k' x hx' with ⟨rfl,-⟩ | ⟨-,hnotSrc',hmem'⟩
      · rfl
      · exact absurd (hr.disjoint hmem' hsrc) hnotSrc'
    · rcases hold k' x hx' with ⟨rfl,hsrc'⟩ | ⟨-,-,hmem'⟩
      · exact absurd (hr.disjoint hmem hsrc') hnotSrc
      · exact hr.disjoint hmem hmem'

end Sequences

end LinkedLists
