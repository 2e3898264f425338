import Mathlib.Data.List.Basic

/-! A stack of frames, the last one opened first. A region is what was opened above a given stack;
what closes frames inside it never takes away one of the frames below. -/
namespace Frames

variable {α : Type} {p : α → Prop} {base base' fs : List α} {a b : α}

/-- The frames opened above `base`, of which the lowest satisfies `p`. -/
inductive Over (p : α → Prop) (base : List α) : List α → Prop
  | bottom {a : α} (h : p a) : Over p base (a :: base)
  | push {fs : List α} (a : α) (h : Over p base fs) : Over p base (a :: fs)

/-- The last frame stays open. -/
def close (more : α → Bool) : List α → List α
  | a :: b :: fs => if more a then close more (b :: fs) else b :: fs
  | fs => fs

def closeTo (depth : ℕ) : List α → List α
  | a :: b :: fs => if fs.length + 1 > depth then closeTo depth (b :: fs) else a :: b :: fs
  | fs => fs

namespace Over

theorem length_lt (h : Over p base fs) : base.length < fs.length := by
  induction h with
  | bottom h => exact Nat.lt_succ_self _
  | push a h ih => exact Nat.lt_succ_of_lt ih

theorem tail (h : Over p base (a :: fs)) (ha : ¬ p a) : Over p base fs := by
  cases h with
  | bottom hbottom => exact absurd hbottom ha
  | push _ h => exact h

theorem exchange (h : Over p base (a :: fs)) (hab : p a → p b) : Over p base (b :: fs) := by
  cases h with
  | bottom ha => exact .bottom (hab ha)
  | push _ h => exact .push b h

theorem trans (h : Over p base fs) (hbase : Over p base' base) : Over p base' fs := by
  induction h with
  | bottom h => exact .push _ hbase
  | push a h ih => exact .push a ih

theorem close {more : α → Bool} (hmore : ∀ a, p a → more a = false) (hbase : base ≠ [])
    (h : Over p base fs) : Frames.close more fs = base ∨ Over p base (Frames.close more fs) := by
  induction h with
  | @bottom a ha =>
    left
    cases hcases : base with
    | nil => exact absurd hcases hbase
    | cons b rest =>
      unfold Frames.close
      rw [hmore a ha]
      rfl
  | @push fs a h ih =>
    cases hcases : fs with
    | nil =>
      rw [hcases] at h
      cases h
    | cons b rest =>
      rw [hcases] at h ih
      unfold Frames.close
      cases more a with
      | true => exact ih
      | false => exact .inr h

theorem closeTo_eq {b : α} {rest : List α} (h : Over p (b :: rest) fs) :
    closeTo rest.length fs = b :: rest := by
  have hbase : closeTo rest.length (b :: rest) = b :: rest := by
    cases rest with
    | nil => rfl
    | cons c rest =>
      unfold closeTo
      rw [if_neg (by rw [List.length_cons]; omega)]
  induction h with
  | bottom ha =>
    unfold closeTo
    rw [if_pos (Nat.lt_succ_self _)]
    exact hbase
  | @push fs a h ih =>
    cases hcases : fs with
    | nil =>
      rw [hcases] at h
      cases h
    | cons c tail =>
      rw [hcases] at h ih
      have hlt := h.length_lt
      rw [List.length_cons,List.length_cons] at hlt
      unfold closeTo
      rw [if_pos (by omega)]
      exact ih

end Over

end Frames
