import Mathlib.Data.List.Chain
import Mathlib.Data.List.Nodup
import Mathlib.Data.Option.Basic

/-! Doubly linked lists. The head is what follows `none`, and the tail is what precedes it, so a
list is a ring through `none` and every operation on its links has one form. -/

@[ext]
structure Links (α : Type*) where
  next : Option α → Option α
  prev : Option α → Option α

namespace Links

variable {α : Type*} {c d : Links α} {xs ys l r : List α} {a : α}

def Joined (c : Links α) (u v : Option α) : Prop := c.next u = v ∧ c.prev v = u

structure Holds (c : Links α) (xs : List α) : Prop where
  nodup : xs.Nodup
  chain : (none :: (xs.map some ++ [none])).IsChain c.Joined

/-- The entries on the way from one of them, as far as the fuel goes. -/
def walk (c : Links α) : ℕ → Option α → List α
  | 0, _ => []
  | _, none => []
  | n + 1, some a => a :: c.walk n (c.next (some a))

/-- The way from an entry goes through the list to its end. -/
def Leads (c : Links α) : Option α → List α → Prop
  | u, [] => u = none
  | u, a :: as => u = some a ∧ c.Leads (c.next (some a)) as

/-- Put an entry between two that are joined. -/
def link [DecidableEq α] (c : Links α) (u v : Option α) (a : α) : Links α where
  next := Function.update (Function.update c.next (some a) v) u (some a)
  prev := Function.update (Function.update c.prev (some a) u) v (some a)

/-- Join what is on either side of an entry. -/
def unlink [DecidableEq α] (c : Links α) (a : α) : Links α where
  next := Function.update c.next (c.prev (some a)) (c.next (some a))
  prev := Function.update c.prev (c.next (some a)) (c.prev (some a))

theorem holds_nil (hnext : c.next none = none) (hprev : c.prev none = none) : c.Holds [] where
  nodup := List.nodup_nil
  chain := by
    rw [List.map_nil,List.nil_append,List.isChain_pair]
    exact ⟨hnext,hprev⟩

theorem ring_split (l r : List α) :
    none :: ((l ++ r).map some ++ [none]) = (none :: l.map some) ++ (r.map some ++ [none]) := by
  simp

theorem before_eq (l : List α) :
    none :: l.map some = (none :: l.map some).dropLast ++ [l.getLast?] := by
  rcases List.eq_nil_or_concat l with rfl | ⟨l,b,rfl⟩
  · rfl
  · rw [List.concat_eq_append,List.map_append,← List.cons_append,List.getLast?_append]
    exact (congrArg (· ++ _) List.dropLast_concat).symm

theorem after_eq (r : List α) :
    r.map some ++ [none] = r.head? :: (r.map some ++ [none]).tail := by
  cases r with
  | nil => rfl
  | cons b r => rfl

theorem Holds.joined (h : c.Holds (l ++ r)) : c.Joined l.getLast? r.head? := by
  have hchain := h.chain
  rw [ring_split,before_eq,after_eq r,List.append_assoc] at hchain
  exact (List.isChain_append_cons_cons.mp hchain).2.1

theorem Holds.next_none (h : c.Holds xs) : c.next none = xs.head? :=
  (Holds.joined (l := []) h).1

theorem Holds.prev_none (h : c.Holds xs) : c.prev none = xs.getLast? := by
  have hjoined := Holds.joined (l := xs) (r := []) (by rwa [List.append_nil])
  exact hjoined.2

theorem Holds.next_some (h : c.Holds (l ++ a :: r)) : c.next (some a) = r.head? := by
  have hcut : c.Holds ((l ++ [a]) ++ r) := by simpa using h
  have hjoined := hcut.joined
  rw [List.getLast?_concat] at hjoined
  exact hjoined.1

theorem Holds.prev_some (h : c.Holds (l ++ a :: r)) : c.prev (some a) = l.getLast? :=
  h.joined.2

theorem leads_of_chain {u : Option α}
    (h : (u :: (xs.map some ++ [none])).IsChain c.Joined) : c.Leads (c.next u) xs := by
  induction xs generalizing u with
  | nil =>
    rw [List.map_nil,List.nil_append,List.isChain_pair] at h
    exact h.1
  | cons a xs ih =>
    rw [List.map_cons,List.cons_append,List.isChain_cons_cons] at h
    exact ⟨h.1.1,ih h.2⟩

theorem Holds.leads (h : c.Holds xs) : c.Leads (c.next none) xs := leads_of_chain h.chain

theorem Leads.walk_eq {u : Option α} (h : c.Leads u xs) {n : ℕ} (hn : xs.length ≤ n) :
    c.walk n u = xs := by
  induction xs generalizing u n with
  | nil =>
    rw [show u = none from h]
    cases n with
    | zero => rfl
    | succ n => rfl
  | cons a xs ih =>
    cases n with
    | zero => exact absurd hn (Nat.not_succ_le_zero _)
    | succ n => rw [h.1,walk,ih h.2 (Nat.le_of_succ_le_succ hn)]

theorem Holds.walk_eq (h : c.Holds xs) {n : ℕ} (hn : xs.length ≤ n) :
    c.walk n (c.next none) = xs := h.leads.walk_eq hn

theorem chain_congr {s : List (Option α)} (h : s.IsChain c.Joined)
    (hnext : ∀ u ∈ s.dropLast, d.next u = c.next u)
    (hprev : ∀ v ∈ s.tail, d.prev v = c.prev v) : s.IsChain d.Joined := by
  induction s with
  | nil => exact .nil
  | cons u s ih =>
    cases s with
    | nil => exact .singleton u
    | cons v s =>
      rw [List.isChain_cons_cons] at h ⊢
      have hu : d.next u = c.next u := hnext u (by simp)
      have hv : d.prev v = c.prev v := hprev v (by simp)
      refine ⟨⟨hu.trans h.1.1,hv.trans h.1.2⟩,ih h.2 ?_ ?_⟩
      · intro w hw
        exact hnext w (by simp [hw])
      · intro w hw
        exact hprev w (List.mem_of_mem_tail hw)

theorem Holds.congr (h : c.Holds xs)
    (hnext : ∀ u, u = none ∨ u ∈ xs.map some → d.next u = c.next u)
    (hprev : ∀ u, u = none ∨ u ∈ xs.map some → d.prev u = c.prev u) : d.Holds xs where
  nodup := h.nodup
  chain := by
    apply chain_congr h.chain
    · intro u hu
      rw [← List.cons_append,List.dropLast_concat] at hu
      exact hnext u (List.mem_cons.mp hu)
    · intro v hv
      rw [List.tail_cons] at hv
      rcases List.mem_append.mp hv with hv | hv
      · exact hprev v (.inr hv)
      · exact hprev v (.inl (List.mem_singleton.mp hv))

theorem left_of_cut (hnd : (l ++ r).Nodup) :
    (∀ u ∈ (none :: l.map some).dropLast, u ≠ l.getLast? ∧ (∀ b, u = some b → b ∈ l)) ∧
      ∀ v ∈ l.map some, v ≠ r.head? := by
  have hleft : (none :: l.map some).Nodup := by
    rw [List.nodup_cons]
    refine ⟨by simp,?_⟩
    exact (List.nodup_append.mp hnd).1.map (Option.some_injective α)
  constructor
  · intro u hu
    constructor
    · rintro rfl
      rw [before_eq] at hleft
      exact (List.nodup_append.mp hleft).2.2 _ hu _ (by simp) rfl
    · rintro b rfl
      have hmem := List.dropLast_subset _ hu
      simpa using hmem
  · intro v hv heq
    obtain ⟨b,hb,rfl⟩ := List.mem_map.mp hv
    have hr : b ∈ r := List.mem_of_head? heq.symm
    exact (List.nodup_append.mp hnd).2.2 b hb b hr rfl

theorem right_of_cut (hnd : (l ++ r).Nodup) :
    (∀ v ∈ (r.map some ++ [none]).tail, v ≠ r.head? ∧ (∀ b, v = some b → b ∈ r)) ∧
      ∀ u ∈ r.map some, u ≠ l.getLast? := by
  have hright : (r.map some ++ [none]).Nodup := by
    rw [List.nodup_append]
    refine ⟨(List.nodup_append.mp hnd).2.1.map (Option.some_injective α),by simp,?_⟩
    intro u hu v hv
    obtain ⟨b,-,rfl⟩ := List.mem_map.mp hu
    rw [List.mem_singleton.mp hv]
    exact Option.some_ne_none b
  constructor
  · intro v hv
    constructor
    · rintro rfl
      rw [after_eq] at hright
      exact (List.nodup_cons.mp hright).1 hv
    · rintro b rfl
      have hmem := List.mem_of_mem_tail hv
      simpa using hmem
  · intro u hu heq
    obtain ⟨b,hb,rfl⟩ := List.mem_map.mp hu
    have hl : b ∈ l := List.mem_of_getLast? heq.symm
    exact (List.nodup_append.mp hnd).2.2 b hl b hb rfl

variable [DecidableEq α]

theorem Holds.link (h : c.Holds (l ++ r)) (ha : a ∉ l ++ r) :
    (c.link l.getLast? r.head? a).Holds (l ++ a :: r) := by
  have hal : a ∉ l := fun hmem => ha (List.mem_append_left r hmem)
  have har : a ∉ r := fun hmem => ha (List.mem_append_right l hmem)
  obtain ⟨hl,hl'⟩ := left_of_cut h.nodup
  obtain ⟨hr,hr'⟩ := right_of_cut h.nodup
  have hu : l.getLast? ≠ some a := fun heq => hal (List.mem_of_getLast? heq)
  have hv : r.head? ≠ some a := fun heq => har (List.mem_of_head? heq)
  have hchain := h.chain
  rw [ring_split,before_eq,after_eq r,List.append_assoc] at hchain
  obtain ⟨hbefore,-,hafter⟩ := List.isChain_append_cons_cons.mp hchain
  refine ⟨?_,?_⟩
  · rw [List.nodup_middle,List.nodup_cons]
    exact ⟨ha,h.nodup⟩
  · have hring : none :: ((l ++ a :: r).map some ++ [none]) = (none :: l.map some).dropLast ++
        l.getLast? :: some a :: r.head? :: (r.map some ++ [none]).tail := by
      rw [← after_eq r,List.append_cons _ l.getLast?,← before_eq]
      simp
    rw [hring,List.isChain_append_cons_cons,List.isChain_cons_cons]
    refine ⟨?_,⟨by simp [Links.link],by simp [Links.link,hv.symm]⟩,
      ⟨by simp [Links.link,hu.symm],by simp [Links.link]⟩,?_⟩
    · rw [← before_eq] at hbefore ⊢
      apply chain_congr hbefore
      · intro u hmem
        have hne : u ≠ some a := fun heq => hal ((hl u hmem).2 a heq)
        simp [Links.link,(hl u hmem).1,hne]
      · intro v hmem
        have hne : v ≠ some a := by
          rintro rfl
          exact hal (by simpa using hmem)
        simp [Links.link,hl' v hmem,hne]
    · rw [← after_eq] at hafter ⊢
      apply chain_congr hafter
      · intro u hmem
        rw [List.dropLast_concat] at hmem
        have hne : u ≠ some a := by
          rintro rfl
          exact har (by simpa using hmem)
        simp [Links.link,hr' u hmem,hne]
      · intro v hmem
        have hne : v ≠ some a := fun heq => har ((hr v hmem).2 a heq)
        simp [Links.link,(hr v hmem).1,hne]

theorem Holds.unlink (h : c.Holds (l ++ a :: r)) : (c.unlink a).Holds (l ++ r) := by
  have hnd : (l ++ r).Nodup := (List.nodup_cons.mp (List.nodup_middle.mp h.nodup)).2
  obtain ⟨hl,hl'⟩ := left_of_cut hnd
  obtain ⟨hr,hr'⟩ := right_of_cut hnd
  have hchain := h.chain
  rw [ring_split,before_eq,List.map_cons,List.cons_append,after_eq r,List.append_assoc] at hchain
  obtain ⟨hbefore,-,hrest⟩ := List.isChain_append_cons_cons.mp hchain
  have hafter := (List.isChain_cons_cons.mp hrest).2
  have hnext : c.next (some a) = r.head? := h.next_some
  have hprev : c.prev (some a) = l.getLast? := h.prev_some
  refine ⟨hnd,?_⟩
  rw [ring_split,before_eq,after_eq r,List.append_assoc]
  refine List.isChain_append_cons_cons.mpr ⟨?_,⟨by simp [Links.unlink,hprev,hnext],
    by simp [Links.unlink,hprev,hnext]⟩,?_⟩
  · rw [← before_eq] at hbefore ⊢
    apply chain_congr hbefore
    · intro u hmem
      simp [Links.unlink,hprev,(hl u hmem).1]
    · intro v hmem
      simp [Links.unlink,hnext,hl' v hmem]
  · rw [← after_eq] at hafter ⊢
    apply chain_congr hafter
    · intro u hmem
      rw [List.dropLast_concat] at hmem
      simp [Links.unlink,hprev,hr' u hmem]
    · intro v hmem
      simp [Links.unlink,hnext,(hr v hmem).1]

end Links
