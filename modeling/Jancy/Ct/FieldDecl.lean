import Mathlib.Tactic.Common
import Mathlib.Algebra.Group.Int.Defs
import Mathlib.Algebra.Group.Nat.Defs

/-! Field declarations: what the layouts need to know of types, and of a bit field. -/
namespace Jancy.Ct

/-- What a layout asks of a type. Equality of types is `isEqual`. -/
class LayoutType (τ : Type) where
  size : τ → ℕ
  alignment : τ → ℕ
  isInteger : τ → Bool
  size_le : ∀ t, isInteger t = true → size t ≤ 8
  alignment_pow : ∀ t, ∃ k, alignment t = 2 ^ k

inductive IntType where
  | int8 | int16 | int32 | int64
  deriving DecidableEq, Repr

def IntType.size : IntType → ℕ
  | .int8 => 1
  | .int16 => 2
  | .int32 => 4
  | .int64 => 8

instance : LayoutType IntType where
  size := IntType.size
  alignment := IntType.size
  isInteger _ := true
  size_le t _ := by cases t <;> decide
  alignment_pow t := by
    cases t
    · exact ⟨0,rfl⟩
    · exact ⟨1,rfl⟩
    · exact ⟨2,rfl⟩
    · exact ⟨3,rfl⟩

structure PtrTypeFlags where
  bigEndian : Bool
  other : ℕ
  deriving DecidableEq, Repr

structure FieldDecl (τ : Type) [LayoutType τ] where
  type : τ
  bitCount : ℕ
  flags : PtrTypeFlags
  integer : bitCount ≠ 0 → LayoutType.isInteger type = true

/-- Where a field is put: the offset of its storage unit, and its bits there. -/
structure Placement where
  offset : ℕ
  bitOffset : ℕ
  bitCount : ℕ
  deriving DecidableEq, Repr

end Jancy.Ct
