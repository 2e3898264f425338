import Mathlib.Data.Nat.Notation
import Mathlib.Tactic.Common

/-! Lists with brackets of one kind: what they enclose, and what stays outside. -/
namespace Nesting

inductive Bracket where
  | opening | closing | plain
  deriving DecidableEq

variable {α : Type*} (bracket : α → Bracket)

def depth : ℕ → List α → Option ℕ
  | d,[] => some d
  | d,a :: as =>
      match bracket a,d with
      | .opening,d => depth (d + 1) as
      | .closing,0 => none
      | .closing,d + 1 => depth d as
      | .plain,d => depth d as

def Balanced (as : List α) : Prop := depth bracket 0 as = some 0

def outside : ℕ → List α → List α
  | _,[] => []
  | d,a :: as =>
      match bracket a with
      | .opening => if d = 0 then a :: outside 1 as else outside (d + 1) as
      | .closing => outside (d - 1) as
      | .plain => if d = 0 then a :: outside d as else outside d as

variable {bracket} {a : α} {as : List α} {d e : ℕ}

@[simp] theorem depth_nil : depth bracket d [] = some d := rfl

theorem depth_opening (ha : bracket a = .opening) :
    depth bracket d (a :: as) = depth bracket (d + 1) as := by
  simp only [depth,ha]

theorem depth_closing (ha : bracket a = .closing) :
    depth bracket (d + 1) (a :: as) = depth bracket d as := by
  simp only [depth,ha]

theorem depth_closing_zero (ha : bracket a = .closing) : depth bracket 0 (a :: as) = none := by
  simp only [depth,ha]

theorem depth_plain (ha : bracket a = .plain) :
    depth bracket d (a :: as) = depth bracket d as := by
  simp only [depth,ha]

theorem depth_append (as bs : List α) :
    depth bracket d (as ++ bs) = (depth bracket d as).bind fun e => depth bracket e bs := by
  induction as generalizing d with
  | nil => rfl
  | cons a as ih =>
    rw [List.cons_append]
    cases ha : bracket a with
    | opening => rw [depth_opening ha,depth_opening ha,ih]
    | plain => rw [depth_plain ha,depth_plain ha,ih]
    | closing =>
      cases d with
      | zero =>
        rw [depth_closing_zero ha,depth_closing_zero ha]
        rfl
      | succ d => rw [depth_closing ha,depth_closing ha,ih]

theorem depth_succ (has : depth bracket d as = some e) :
    depth bracket (d + 1) as = some (e + 1) := by
  induction as generalizing d with
  | nil =>
    obtain rfl := Option.some.inj has
    rfl
  | cons a as ih =>
    cases ha : bracket a with
    | opening =>
      rw [depth_opening ha] at has ⊢
      exact ih has
    | plain =>
      rw [depth_plain ha] at has ⊢
      exact ih has
    | closing =>
      cases d with
      | zero =>
        rw [depth_closing_zero ha] at has
        cases has
      | succ d =>
        rw [depth_closing ha] at has ⊢
        exact ih has

theorem Balanced.plain (ha : bracket a = .plain) (has : Balanced bracket as) :
    Balanced bracket (a :: as) := by
  unfold Balanced at has ⊢
  rwa [depth_plain ha]

theorem balanced_of_plain (has : ∀ a ∈ as,bracket a = .plain) : Balanced bracket as := by
  induction as with
  | nil => rfl
  | cons a as ih =>
    obtain ⟨ha,has⟩ := List.forall_mem_cons.1 has
    exact (ih has).plain ha

theorem outside_of_plain (has : ∀ a ∈ as,bracket a = .plain) : outside bracket 0 as = as := by
  induction as with
  | nil => rfl
  | cons a as ih =>
    obtain ⟨ha,has⟩ := List.forall_mem_cons.1 has
    rw [outside,ha]
    simp only [if_true,ih has]

end Nesting
