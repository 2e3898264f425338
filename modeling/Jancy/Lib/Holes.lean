import Mathlib.Data.List.Basic

/-! Argument lists with empty slots: what is supplied later goes to the empty slots from left to
right, and then behind the last slot. -/
namespace Holes

variable {α β : Type*}

/-- A slot for which nothing is left stays empty. -/
def fill : List (Option α) → List (Option α) → List (Option α)
  | [],args => args
  | some a :: slots,args => some a :: fill slots args
  | none :: slots,arg :: args => arg :: fill slots args
  | none :: slots,[] => none :: slots

/-- The number of empty slots. -/
def holes (slots : List (Option α)) : ℕ :=
  slots.countP Option.isNone

@[simp] theorem fill_nil_left (args : List (Option α)) : fill [] args = args := by
  rw [fill]

@[simp] theorem fill_nil (slots : List (Option α)) : fill slots [] = slots := by
  induction slots with
  | nil => rfl
  | cons slot slots ih =>
    cases slot with
    | none => rfl
    | some a => rw [fill,ih]

@[simp] theorem holes_nil : holes ([] : List (Option α)) = 0 := rfl

@[simp] theorem holes_cons_some (a : α) (slots : List (Option α)) :
    holes (some a :: slots) = holes slots := by
  simp [holes]

@[simp] theorem holes_cons_none (slots : List (Option α)) :
    holes (none :: slots) = holes slots + 1 := by
  simp [holes]

theorem fill_assoc (slots args args' : List (Option α)) :
    fill (fill slots args) args' = fill slots (fill args args') := by
  induction slots generalizing args args' with
  | nil => simp
  | cons slot slots ih =>
    cases slot with
    | some a => rw [fill,fill,fill,ih]
    | none =>
      cases args with
      | nil => simp
      | cons arg args =>
        rw [fill]
        cases arg with
        | some a => rw [fill,fill,fill,ih]
        | none =>
          cases args' with
          | nil => simp [fill]
          | cons arg' args' => rw [fill,fill,fill,ih]

theorem fill_of_full {slots : List (Option α)} (h : holes slots = 0) (args : List (Option α)) :
    fill slots args = slots ++ args := by
  induction slots with
  | nil => rfl
  | cons slot slots ih =>
    cases slot with
    | some a => rw [fill,ih (by simpa using h),List.cons_append]
    | none => simp at h

end Holes
