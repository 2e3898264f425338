import Mathlib.Data.List.Basic

/-! Tables of calls: a list that grows at its end and changes at one place at a time. -/
namespace Calls

variable {α : Type*} {l : List α} {i j : ℕ} {a b q : α}

theorem set_eq (h : l[i]? = some a) (b : α) (j : ℕ) :
    (l.set i b)[j]? = if j = i then some b else l[j]? := by
  have hlt : i < l.length := (List.getElem?_eq_some_iff.mp h).1
  by_cases hj : j = i
  · simp [hj,hlt]
  · simp [hj,Ne.symm hj]

theorem append_eq (l : List α) (a : α) (j : ℕ) :
    (l ++ [a])[j]? = if j = l.length then some a else l[j]? := by
  rcases Nat.lt_trichotomy j l.length with hj | hj | hj
  · simp [List.getElem?_append_left hj,Nat.ne_of_lt hj]
  · simp [hj]
  · have hsingle : [a][j - l.length]? = none :=
      List.getElem?_eq_none (by simp only [List.length_singleton]; omega)
    rw [List.getElem?_append_right (Nat.le_of_lt hj),hsingle,if_neg (Nat.ne_of_gt hj),
      List.getElem?_eq_none (Nat.le_of_lt hj)]

theorem set_iff (h : l[i]? = some a) :
    (l.set i b)[j]? = some q ↔ j = i ∧ q = b ∨ j ≠ i ∧ l[j]? = some q := by
  rw [set_eq h]
  split_ifs with hj
  · simp [hj,eq_comm]
  · simp [hj]

/-- What some call is at stays so where the one that changes is not it. -/
theorem set_keeps {P : α → Prop} (h : l[i]? = some a) (hno : ¬P a)
    (hex : ∃ q, l[j]? = some q ∧ P q) : ∃ q, (l.set i b)[j]? = some q ∧ P q := by
  obtain ⟨q,hq,hp⟩ := hex
  refine ⟨q,(set_iff h).mpr (.inr ⟨?_,hq⟩),hp⟩
  rintro rfl
  rw [h] at hq
  cases hq
  exact hno hp

theorem append_iff : (l ++ [a])[j]? = some q ↔ j = l.length ∧ q = a ∨ l[j]? = some q := by
  rw [append_eq]
  split_ifs with hj
  · simp [hj,eq_comm]
  · simp [hj]

end Calls
