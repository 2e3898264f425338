import Mathlib.Data.List.Nodup
import Mathlib.Data.List.Count

/-! Counting the elements of a duplicate-free list that meet a test, when the test changes at
one element only, and the keys of a list that is filtered by one key. -/
namespace Counting

variable {α : Type*}

variable {l : List α}

theorem countP_change (hl : l.Nodup) {a : α} (ha : a ∈ l) {p q : α → Bool}
    (h : ∀ b ∈ l, b ≠ a → p b = q b) :
    l.countP p + (q a).toNat = l.countP q + (p a).toNat := by
  obtain ⟨xs, ys, rfl⟩ := List.append_of_mem ha
  have hnd := List.nodup_middle.mp hl
  have hnot : a ∉ xs ++ ys := (List.nodup_cons.mp hnd).1
  have hother : ∀ b ∈ xs ++ ys, p b = q b := by
    intro b hb
    refine h b ?_ (fun hba => hnot (hba ▸ hb))
    rcases List.mem_append.mp hb with hx | hy
    · exact List.mem_append_left _ hx
    · exact List.mem_append_right _ (List.mem_cons_of_mem _ hy)
  have hx : xs.countP p = xs.countP q :=
    List.countP_congr fun b hb => by rw [hother b (List.mem_append_left _ hb)]
  have hy : ys.countP p = ys.countP q :=
    List.countP_congr fun b hb => by rw [hother b (List.mem_append_right _ hb)]
  cases hp : p a <;> cases hq : q a <;>
    simp only [List.countP_append, List.countP_cons, hx, hy, hp, hq, Bool.toNat_true,
      Bool.toNat_false, if_true] <;> simp <;> omega

theorem countP_same {p q : α → Bool} (h : ∀ b ∈ l, p b = q b) :
    l.countP p = l.countP q := List.countP_congr fun b hb => by rw [h b hb]

theorem countP_fall (hl : l.Nodup) {a : α} (ha : a ∈ l) {p q : α → Bool}
    (h : ∀ b ∈ l, b ≠ a → p b = q b) (hp : p a = true) (hq : q a = false) :
    l.countP p = l.countP q + 1 := by
  have := countP_change hl ha h
  simp [hp, hq] at this
  omega

theorem countP_erase_of_nodup [DecidableEq α] {a : α} (ha : a ∈ l) (p : α → Bool) :
    (l.erase a).countP p + (p a).toNat = l.countP p := by
  have h := (List.perm_cons_erase ha).countP_eq p
  rw [h, List.countP_cons]
  cases p a <;> simp

theorem pos_of_countP_pos {p : α → Bool} (h : 0 < l.countP p) :
    ∃ a ∈ l, p a = true := List.countP_pos_iff.mp h

section Keys

variable (f : α → ℕ) (l : List α) (i j : ℕ)

theorem count_filter_ne : ((l.filter fun t => decide (f t ≠ i)).map f).count j =
    if j = i then 0 else (l.map f).count j := by
  induction l with
  | nil => simp
  | cons t l ih =>
    by_cases hj : j = i
    · subst hj
      simp only [if_true] at ih ⊢
      by_cases ht : f t = j
      · rw [List.filter_cons_of_neg (by simp [ht]),ih]
      · rw [List.filter_cons_of_pos (by simp [ht]),List.map_cons,List.count_cons,ih]
        simp [ht]
    · simp only [hj,if_false] at ih ⊢
      by_cases ht : f t = i
      · have hne : f t ≠ j := fun heq => hj (heq.symm.trans ht)
        rw [List.filter_cons_of_neg (by simp [ht]),ih,List.map_cons,List.count_cons]
        simp [hne]
      · rw [List.filter_cons_of_pos (by simp [ht]),List.map_cons,List.count_cons,ih,List.map_cons,
          List.count_cons]

theorem count_filter_eq : ((l.filter fun t => decide (f t = i)).map f).count j =
    if j = i then (l.map f).count j else 0 := by
  have hsplit := List.Perm.count_eq
    ((List.filter_append_perm (fun t : α => decide (f t ≠ i)) l).map f) j
  have hfilter : (l.filter fun t => !decide (f t ≠ i)) = l.filter fun t => decide (f t = i) := by
    refine List.filter_congr fun t _ => ?_
    simp
  rw [hfilter,List.map_append,List.count_append,count_filter_ne] at hsplit
  split_ifs at hsplit ⊢ <;> omega

end Keys

end Counting
