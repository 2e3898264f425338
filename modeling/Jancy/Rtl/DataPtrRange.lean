import Mathlib.Tactic.Common
import Mathlib.Algebra.Group.Nat.Defs

/-! The range check of data pointers: what is emitted for an access, and the two forms of the check
at run time, in the arithmetic of 64-bit addresses. -/
namespace Jancy.Rtl

/-- An address, or a `size_t`. -/
abbrev Address := BitVec 64

/-- `targetBoxInvalid` is `BoxFlag_Invalid` of the target box. -/
structure DataPtrValidator where
  targetBoxInvalid : Bool
  rangeBegin : Address
  rangeEnd : Address
  ordered : rangeBegin ≤ rangeEnd

namespace DataPtrValidator

/-- The range length that a lean pointer to the whole range is compiled with. -/
def rangeLength (v : DataPtrValidator) : Address := v.rangeEnd - v.rangeBegin

/-- The bytes of an access are in the range. -/
def Covers (v : DataPtrValidator) (p size : Address) : Prop :=
  v.rangeBegin.toNat ≤ p.toNat ∧ p.toNat + size.toNat ≤ v.rangeEnd.toNat

instance (v : DataPtrValidator) (p size : Address) : Decidable (v.Covers p size) :=
  inferInstanceAs (Decidable (_ ∧ _))

end DataPtrValidator

inductive DataPtrError where
  | nullAccess
  | invalidated
  | outOfRange (p rangeBegin rangeEnd : Address)
  /-- at compile time -/
  | failsRangeCheck
  deriving DecidableEq, Repr

def DataPtrError.text : DataPtrError → String
  | .nullAccess => "null data pointer access"
  | .invalidated => "invalidated pointer access"
  | .outOfRange _ _ _ => "data pointer %p out of range [%p:%p]"
  | .failsRangeCheck => "'%s' fails range check"

def tryCheckDataPtrRangeDirect (p rangeBegin rangeLength : Address) : Except DataPtrError Unit :=
  if p = 0 then .error .nullAccess
  else
    let rangeEnd := rangeBegin + rangeLength
    if p < rangeBegin ∨ p > rangeEnd then .error (.outOfRange p rangeBegin rangeEnd)
    else .ok ()

def tryCheckDataPtrRangeIndirect (p size : Address) (validator : Option DataPtrValidator) :
    Except DataPtrError Unit :=
  match validator with
  | none => .error .nullAccess
  | some v =>
      if p = 0 then .error .nullAccess
      else if v.targetBoxInvalid then .error .invalidated
      else
        let «end» := p + size
        if p < v.rangeBegin ∨ «end» > v.rangeEnd then
          .error (.outOfRange p v.rangeBegin v.rangeEnd)
        else .ok ()

inductive DataPtrKind where
  | normal
  | lean
  | thin
  deriving DecidableEq, Repr

/-- A pointer that is accessed, as far as the check looks at it. A `rangeLength` of 0 stands for a
range that is not known at compile time. -/
structure DataPtrAccess where
  isSafe : Bool
  ptrKind : DataPtrKind
  isUnsafeRgn : Bool
  targetSize : Address
  rangeLength : Address
  hasValidatorValue : Bool

inductive RangeCheck where
  | unchecked
  | direct (rangeLength : Address)
  | indirect (size : Address)
  deriving DecidableEq, Repr

/-- The length that the check is compiled with leaves room for the target. -/
def directRangeLength (rangeLength targetSize : Address) : Except DataPtrError Address :=
  if rangeLength < targetSize then .error .failsRangeCheck else .ok (rangeLength - targetSize)

def checkDataPtrRange (a : DataPtrAccess) : Except DataPtrError RangeCheck :=
  if a.isSafe = true ∨ a.ptrKind = .thin ∨ a.isUnsafeRgn = true then .ok .unchecked
  else if a.ptrKind = .normal ∨ a.rangeLength = 0 ∨ a.hasValidatorValue = true then
    .ok (.indirect a.targetSize)
  else (directRangeLength a.rangeLength a.targetSize).map .direct

/-- The direct check of an access, the part at compile time included. -/
def checkDirect (v : DataPtrValidator) (p size : Address) : Except DataPtrError Unit := do
  let rangeLength ← directRangeLength v.rangeLength size
  tryCheckDataPtrRangeDirect p v.rangeBegin rangeLength

/-- What the two forms are to say of an access. -/
structure Guarded (v : DataPtrValidator) (p size : Address) : Prop where
  direct : checkDirect v p size = .ok () → v.Covers p size
  indirect : tryCheckDataPtrRangeIndirect p size (some v) = .ok () → v.Covers p size
  agree : checkDirect v p size = .ok () ↔ tryCheckDataPtrRangeIndirect p size (some v) = .ok ()

/-- An access that begins in the range, or behind it, and comes around to where the range has not
ended yet. -/
def WrapsInto (v : DataPtrValidator) (p size : Address) : Prop :=
  v.rangeBegin ≤ p ∧ 2 ^ 64 ≤ p.toNat + size.toNat ∧
    p.toNat + size.toNat ≤ 2 ^ 64 + v.rangeEnd.toNat

section

variable {v : DataPtrValidator} {p size : Address}

theorem ordered_toNat (v : DataPtrValidator) : v.rangeBegin.toNat ≤ v.rangeEnd.toNat := v.ordered

theorem rangeLength_toNat (v : DataPtrValidator) :
    v.rangeLength.toNat = v.rangeEnd.toNat - v.rangeBegin.toNat := BitVec.toNat_sub_of_le v.ordered

theorem directRangeLength_ok_iff {rangeLength : Address} :
    directRangeLength v.rangeLength size = .ok rangeLength ↔
      size.toNat ≤ v.rangeEnd.toNat - v.rangeBegin.toNat ∧ rangeLength = v.rangeLength - size := by
  unfold directRangeLength
  split_ifs with hlt
  · have hlt : v.rangeLength.toNat < size.toNat := hlt
    rw [rangeLength_toNat] at hlt
    simp only [false_iff,not_and]
    omega
  · have hle : size.toNat ≤ v.rangeLength.toNat := Nat.le_of_not_lt hlt
    rw [rangeLength_toNat] at hle
    simp [hle,eq_comm]

theorem checkDirect_ok_iff :
    checkDirect v p size = .ok () ↔ p ≠ 0 ∧ v.Covers p size := by
  have hordered := ordered_toNat v
  unfold checkDirect DataPtrValidator.Covers
  cases hlength : directRangeLength v.rangeLength size with
  | error e =>
    have hbig : ¬ size.toNat ≤ v.rangeEnd.toNat - v.rangeBegin.toNat := by
      intro hle
      rw [directRangeLength_ok_iff.mpr ⟨hle,rfl⟩] at hlength
      cases hlength
    show Except.error e = .ok () ↔ _
    simp only [reduceCtorEq,false_iff]
    omega
  | ok rangeLength =>
    obtain ⟨hle,rfl⟩ := directRangeLength_ok_iff.mp hlength
    have hfits : size ≤ v.rangeLength := by
      show size.toNat ≤ v.rangeLength.toNat
      rwa [rangeLength_toNat]
    have hend : (v.rangeBegin + (v.rangeLength - size)).toNat = v.rangeEnd.toNat - size.toNat := by
      have := v.rangeEnd.isLt
      rw [BitVec.toNat_add,BitVec.toNat_sub_of_le hfits,rangeLength_toNat,Nat.mod_eq_of_lt]
      · omega
      · omega
    show tryCheckDataPtrRangeDirect p v.rangeBegin (v.rangeLength - size) = .ok () ↔ _
    unfold tryCheckDataPtrRangeDirect
    simp only [GT.gt,BitVec.lt_def,hend]
    split_ifs with hnull hout
    · simp [hnull]
    · simp only [false_iff]
      omega
    · simp only [true_iff]
      exact ⟨hnull,by omega⟩

theorem indirect_ok_iff :
    tryCheckDataPtrRangeIndirect p size (some v) = .ok () ↔
      p ≠ 0 ∧ v.targetBoxInvalid = false ∧ (v.Covers p size ∨ WrapsInto v p size) := by
  have hp := p.isLt
  have hsize := size.isLt
  have hend := v.rangeEnd.isLt
  unfold tryCheckDataPtrRangeIndirect DataPtrValidator.Covers WrapsInto
  simp only [GT.gt,BitVec.lt_def,BitVec.le_def,BitVec.toNat_add]
  split_ifs with hnull hinvalid hout
  · simp [hnull]
  · simp [hinvalid]
  · simp only [false_iff]
    omega
  · rw [Bool.not_eq_true] at hinvalid
    simp only [true_iff]
    exact ⟨hnull,hinvalid,by omega⟩

theorem WrapsInto.not_covers (h : WrapsInto v p size) : ¬ v.Covers p size := by
  have hend := v.rangeEnd.isLt
  obtain ⟨-,hwraps,-⟩ := h
  rintro ⟨-,hle⟩
  omega

end

/-- The two forms guard an access exactly when it does not come around into the range, and is not to
an object that has been invalidated. -/
theorem guarded_iff (v : DataPtrValidator) (p size : Address) :
    Guarded v p size ↔ (p ≠ 0 → v.targetBoxInvalid = false → ¬ WrapsInto v p size) ∧
      (p ≠ 0 → v.targetBoxInvalid = true → ¬ v.Covers p size) := by
  constructor
  · intro h
    refine ⟨fun hnull hvalid hwraps => hwraps.not_covers ?_,fun hnull hinvalid hcovers => ?_⟩
    · exact h.indirect (indirect_ok_iff.mpr ⟨hnull,hvalid,Or.inr hwraps⟩)
    · obtain ⟨-,hvalid,-⟩ := indirect_ok_iff.mp (h.agree.mp (checkDirect_ok_iff.mpr ⟨hnull,hcovers⟩))
      rw [hinvalid] at hvalid
      cases hvalid
  · rintro ⟨hwraps,hinvalid⟩
    have hagree : checkDirect v p size = .ok () ↔
        tryCheckDataPtrRangeIndirect p size (some v) = .ok () := by
      rw [checkDirect_ok_iff,indirect_ok_iff]
      constructor
      · rintro ⟨hnull,hcovers⟩
        exact ⟨hnull,Bool.eq_false_iff.mpr fun h => hinvalid hnull h hcovers,Or.inl hcovers⟩
      · rintro ⟨hnull,hvalid,hor⟩
        exact ⟨hnull,hor.resolve_right (hwraps hnull hvalid)⟩
    have hdirect : checkDirect v p size = .ok () → v.Covers p size := fun h =>
      (checkDirect_ok_iff.mp h).2
    exact ⟨hdirect,fun h => hdirect (hagree.mpr h),hagree⟩

/-- 32 bytes at 16 bytes in front of the end of the address space. -/
theorem not_guarded_wraps :
    ¬ Guarded ⟨false,0x1000,0x2000,by decide⟩ 0xfffffffffffffff0 0x20 := by
  intro h
  have hcovers := h.indirect (by decide)
  revert hcovers
  decide

end Jancy.Rtl
