import Mathlib.Tactic.Common
import Mathlib.Algebra.Group.Int.Defs
import Mathlib.Algebra.Group.Nat.Defs

/-! Integer operators on constants, and the instructions that are emitted for them. -/
namespace Jancy.Ct

/-- The integers among `TypeKind`, in its order. -/
inductive IntKind where
  | int8 | int8_u | int16 | int16_u | int32 | int32_u | int64 | int64_u
  deriving DecidableEq, Repr

namespace IntKind

def width : IntKind → ℕ
  | int8 | int8_u => 8
  | int16 | int16_u => 16
  | int32 | int32_u => 32
  | int64 | int64_u => 64

def isUnsigned : IntKind → Bool
  | int8_u | int16_u | int32_u | int64_u => true
  | int8 | int16 | int32 | int64 => false

/-- `typeTable` of `getArithmeticOperatorResultType`. -/
def promoted : IntKind → IntKind
  | int8 | int8_u | int16 | int16_u | int32 => int32
  | int32_u => int32_u
  | int64 => int64
  | int64_u => int64_u

end IntKind

def getArithmeticOperatorResultType (k₁ k₂ : IntKind) : IntKind :=
  (if k₂.ctorIdx < k₁.ctorIdx then k₁ else k₂).promoted

/-- `Cast_Int`: copy, truncate, or extend by the signedness of the source. Constants and emitted
code agree on it. -/
def castInt (src dst : IntKind) (v : BitVec src.width) : BitVec dst.width :=
  if src.isUnsigned then v.setWidth dst.width else v.signExtend dst.width

inductive BinOpKind where
  | add | sub | mul | div | mod | shl | shr | bwAnd | bwOr | bwXor
  | eq | ne | lt | le | gt | ge
  deriving DecidableEq, Repr

/-- What comes of an operator: a value, an error of the compiler, a trap of the processor, or
nothing that C++ or LLVM would define. -/
inductive Folded (w : ℕ) where
  | int (v : BitVec w)
  | bool (b : Bool)
  | error
  | trap
  | undefined
  deriving DecidableEq, Repr

section Operators

variable {w : ℕ}

/-- `idiv` has no quotient for these. -/
def overflows (isUnsigned : Bool) (a b : BitVec w) : Bool :=
  !isUnsigned && a == BitVec.intMin w && b == -1#w

/-- `constOpInt32` and `constOpInt64`. Signed overflow wraps, as it does in compiled code. -/
def constOpInt (kind : BinOpKind) (isUnsigned : Bool) (a b : BitVec w) : Folded w :=
  match kind with
  | .add => .int (a + b)
  | .sub => .int (a - b)
  | .mul => .int (a * b)
  | .div =>
      if b = 0#w ∨ overflows isUnsigned a b then .trap
      else .int (if isUnsigned then a / b else a.sdiv b)
  | .mod =>
      if b = 0#w ∨ overflows isUnsigned a b then .trap
      else .int (if isUnsigned then a % b else a.srem b)
  | .shl => if b.toNat < w then .int (a <<< b.toNat) else .undefined
  -- the operands are signed integers, whatever the type is
  | .shr => if b.toNat < w then .int (a.sshiftRight b.toNat) else .undefined
  | .bwAnd => .int (a &&& b)
  | .bwOr => .int (a ||| b)
  | .bwXor => .int (a ^^^ b)
  | .eq => .bool (a == b)
  | .ne => .bool (a != b)
  | .lt => .bool (if isUnsigned then a.ult b else a.slt b)
  | .le => .bool (if isUnsigned then a.ule b else a.sle b)
  | .gt => .bool (if isUnsigned then b.ult a else b.slt a)
  | .ge => .bool (if isUnsigned then b.ule a else b.sle a)

/-- `llvmOpInt`: `createShr` is `CreateLShr` for either signedness. -/
def llvmOpInt (kind : BinOpKind) (isUnsigned : Bool) (a b : BitVec w) : Folded w :=
  match kind with
  | .add => .int (a + b)
  | .sub => .int (a - b)
  | .mul => .int (a * b)
  | .div =>
      if b = 0#w ∨ overflows isUnsigned a b then .undefined
      else .int (if isUnsigned then a / b else a.sdiv b)
  | .mod =>
      if b = 0#w ∨ overflows isUnsigned a b then .undefined
      else .int (if isUnsigned then a % b else a.srem b)
  | .shl => if b.toNat < w then .int (a <<< b.toNat) else .undefined
  | .shr => if b.toNat < w then .int (a >>> b.toNat) else .undefined
  | .bwAnd => .int (a &&& b)
  | .bwOr => .int (a ||| b)
  | .bwXor => .int (a ^^^ b)
  | .eq => .bool (a == b)
  | .ne => .bool (a != b)
  | .lt => .bool (if isUnsigned then a.ult b else a.slt b)
  | .le => .bool (if isUnsigned then a.ule b else a.sle b)
  | .gt => .bool (if isUnsigned then b.ult a else b.slt a)
  | .ge => .bool (if isUnsigned then b.ule a else b.sle a)

def intOf (isUnsigned : Bool) (v : BitVec w) : ℤ := if isUnsigned then v.toNat else v.toInt

/-- The operators on integers, modulo `2 ^ w`; `none` where there is no value. -/
def meaning (kind : BinOpKind) (isUnsigned : Bool) (a b : BitVec w) : Option (Folded w) :=
  let x := intOf isUnsigned a
  let y := intOf isUnsigned b
  match kind with
  | .add => some (.int (.ofInt w (x + y)))
  | .sub => some (.int (.ofInt w (x - y)))
  | .mul => some (.int (.ofInt w (x * y)))
  | .div => if y = 0 ∨ overflows isUnsigned a b then none else some (.int (.ofInt w (x.tdiv y)))
  | .mod => if y = 0 ∨ overflows isUnsigned a b then none else some (.int (.ofInt w (x.tmod y)))
  | .shl => if b.toNat < w then some (.int (.ofInt w (x * 2 ^ b.toNat))) else none
  | .shr => if b.toNat < w then some (.int (.ofInt w (x / 2 ^ b.toNat))) else none
  | .bwAnd => some (.int (a &&& b))
  | .bwOr => some (.int (a ||| b))
  | .bwXor => some (.int (a ^^^ b))
  | .eq => some (.bool (decide (x = y)))
  | .ne => some (.bool (decide (x ≠ y)))
  | .lt => some (.bool (decide (x < y)))
  | .le => some (.bool (decide (x ≤ y)))
  | .gt => some (.bool (decide (y < x)))
  | .ge => some (.bool (decide (y ≤ x)))

/-- Both paths give the value, or the constant path reports an error where there is none. -/
def Folds (kind : BinOpKind) (isUnsigned : Bool) (a b : BitVec w) : Prop :=
  match meaning kind isUnsigned a b with
  | some r => constOpInt kind isUnsigned a b = r ∧ llvmOpInt kind isUnsigned a b = r
  | none => constOpInt kind isUnsigned a b = .error

/-- A division that has a value, a shift within the width, and right only of an operand whose top
bit is clear. -/
def foldable (kind : BinOpKind) (isUnsigned : Bool) (a b : BitVec w) : Bool :=
  match kind with
  | .div | .mod => b != 0#w && !overflows isUnsigned a b
  | .shl => decide (b.toNat < w)
  | .shr => decide (b.toNat < w) && (!a.msb || b == 0#w)
  | _ => true

theorem ofInt_intOf (isUnsigned : Bool) (a : BitVec w) : BitVec.ofInt w (intOf isUnsigned a) = a := by
  cases isUnsigned with
  | true => simp [intOf]
  | false => simp [intOf]

theorem intOf_eq_zero (isUnsigned : Bool) (a : BitVec w) : intOf isUnsigned a = 0 ↔ a = 0#w := by
  constructor
  · intro h
    have hof := ofInt_intOf isUnsigned a
    rw [h] at hof
    rw [← hof]
    simp
  · rintro rfl
    cases isUnsigned with
    | true => simp [intOf]
    | false => simp [intOf]

theorem intOf_inj (isUnsigned : Bool) (a b : BitVec w) :
    intOf isUnsigned a = intOf isUnsigned b ↔ a = b := by
  constructor
  · intro h
    rw [← ofInt_intOf isUnsigned a,← ofInt_intOf isUnsigned b,h]
  · exact fun h => h ▸ rfl

theorem ofInt_sub (x y : ℤ) : BitVec.ofInt w (x - y) = BitVec.ofInt w x - BitVec.ofInt w y := by
  rw [Int.sub_eq_add_neg,BitVec.ofInt_add,BitVec.ofInt_neg,BitVec.sub_eq_add_neg]

theorem div_eq (isUnsigned : Bool) (a b : BitVec w) :
    (if isUnsigned then a / b else a.sdiv b) =
      BitVec.ofInt w ((intOf isUnsigned a).tdiv (intOf isUnsigned b)) := by
  cases isUnsigned with
  | true =>
    simp only [intOf,if_true,← Int.ofNat_tdiv,BitVec.ofInt_natCast]
    exact BitVec.udiv_def
  | false =>
    apply BitVec.eq_of_toInt_eq
    simp only [intOf,BitVec.toInt_ofInt]
    exact BitVec.toInt_sdiv a b

theorem mod_eq (isUnsigned : Bool) (a b : BitVec w) :
    (if isUnsigned then a % b else a.srem b) =
      BitVec.ofInt w ((intOf isUnsigned a).tmod (intOf isUnsigned b)) := by
  cases isUnsigned with
  | true =>
    simp only [intOf,if_true,← Int.ofNat_tmod,BitVec.ofInt_natCast]
    exact BitVec.umod_def
  | false =>
    have hrem := BitVec.toInt_srem a b
    simp only [intOf,Bool.false_eq_true,if_false,← hrem]
    exact BitVec.ofInt_toInt.symm

theorem shl_eq (isUnsigned : Bool) (a : BitVec w) (k : ℕ) :
    a <<< k = BitVec.ofInt w (intOf isUnsigned a * 2 ^ k) := by
  have htwo : BitVec.ofInt w (2 ^ k) = BitVec.twoPow w k := by
    apply BitVec.eq_of_toNat_eq
    have hcast : ((2 : ℤ) ^ k) = ((2 ^ k : ℕ) : ℤ) := by
      rw [Int.natCast_pow]
      rfl
    rw [hcast,BitVec.ofInt_natCast,BitVec.toNat_ofNat,BitVec.toNat_twoPow]
  rw [BitVec.ofInt_mul,ofInt_intOf,htwo,BitVec.shiftLeft_eq_mul_twoPow]

theorem sshr_eq (a : BitVec w) (k : ℕ) :
    a.sshiftRight k = BitVec.ofInt w (intOf false a / 2 ^ k) := by
  have hint : (a.sshiftRight k).toInt = a.toInt / 2 ^ k := by
    rw [BitVec.toInt_sshiftRight,Int.shiftRight_eq_div_pow,Int.natCast_pow]
    rfl
  simp only [intOf,Bool.false_eq_true,if_false]
  rw [← hint,BitVec.ofInt_toInt]

theorem ushr_eq (a : BitVec w) (k : ℕ) :
    a >>> k = BitVec.ofInt w (intOf true a / 2 ^ k) := by
  have hcast : (a.toNat : ℤ) / 2 ^ k = ((a.toNat / 2 ^ k : ℕ) : ℤ) := by
    rw [Int.natCast_ediv,Int.natCast_pow]
    rfl
  apply BitVec.eq_of_toNat_eq
  simp only [intOf,if_true]
  rw [hcast,BitVec.ofInt_natCast,BitVec.toNat_ushiftRight,BitVec.toNat_ofNat,
    Nat.shiftRight_eq_div_pow]
  exact (Nat.mod_eq_of_lt (Nat.lt_of_le_of_lt (Nat.div_le_self _ _) a.isLt)).symm

theorem sshiftRight_eq_iff (a : BitVec w) {k : ℕ} (hk : k < w) :
    a.sshiftRight k = a >>> k ↔ a.msb = false ∨ k = 0 := by
  constructor
  · intro h
    have hmsb := congrArg BitVec.msb h
    rw [BitVec.msb_sshiftRight,BitVec.msb_ushiftRight] at hmsb
    by_cases hzero : k = 0
    · exact .inr hzero
    · left
      simpa [hzero] using hmsb
  · rintro (hmsb | rfl)
    · exact BitVec.sshiftRight_eq_of_msb_false hmsb
    · simp

theorem lt_eq (isUnsigned : Bool) (a b : BitVec w) :
    (if isUnsigned then a.ult b else a.slt b) =
      decide (intOf isUnsigned a < intOf isUnsigned b) := by
  cases isUnsigned with
  | true => simp [intOf,BitVec.ult]
  | false => simp [intOf,BitVec.slt]

theorem le_eq (isUnsigned : Bool) (a b : BitVec w) :
    (if isUnsigned then a.ule b else a.sle b) =
      decide (intOf isUnsigned a ≤ intOf isUnsigned b) := by
  cases isUnsigned with
  | true => simp [intOf,BitVec.ule]
  | false => simp [intOf,BitVec.sle]

theorem folds_div {kind : BinOpKind} (hkind : kind = .div ∨ kind = .mod) (isUnsigned : Bool)
    (a b : BitVec w) :
    Folds kind isUnsigned a b ↔ foldable kind isUnsigned a b = true := by
  have hzero := intOf_eq_zero isUnsigned b
  by_cases hb : b = 0#w ∨ overflows isUnsigned a b = true
  · have hfoldable : foldable kind isUnsigned a b = false := by
      rcases hkind with rfl | rfl
      · rcases hb with hb | hb <;> simp [foldable,hb]
      · rcases hb with hb | hb <;> simp [foldable,hb]
    rw [hfoldable]
    rcases hkind with rfl | rfl <;> simp [Folds,meaning,constOpInt,hzero,hb]
  · have hfoldable : foldable kind isUnsigned a b = true := by
      obtain ⟨hne,hover⟩ := not_or.mp hb
      rcases hkind with rfl | rfl <;> simp [foldable,hne,hover]
    rw [hfoldable]
    rcases hkind with rfl | rfl
    · simp [Folds,meaning,constOpInt,llvmOpInt,hzero,hb,div_eq]
    · simp [Folds,meaning,constOpInt,llvmOpInt,hzero,hb,mod_eq]

theorem folds_shl (isUnsigned : Bool) (a b : BitVec w) :
    Folds .shl isUnsigned a b ↔ foldable .shl isUnsigned a b = true := by
  by_cases hb : b.toNat < w
  · simp [Folds,meaning,constOpInt,llvmOpInt,foldable,hb,← shl_eq]
  · simp [Folds,meaning,constOpInt,foldable,hb]

theorem folds_shr (isUnsigned : Bool) (a b : BitVec w) :
    Folds .shr isUnsigned a b ↔ foldable .shr isUnsigned a b = true := by
  by_cases hb : b.toNat < w
  · have hzero : b.toNat = 0 ↔ b = 0#w := by
      rw [← BitVec.toNat_inj]
      simp
    have hshift := sshiftRight_eq_iff a hb
    rw [hzero] at hshift
    have hfoldable : foldable .shr isUnsigned a b = true ↔
        a.sshiftRight b.toNat = a >>> b.toNat := by
      simp [foldable,hb,hshift]
    rw [hfoldable]
    cases isUnsigned with
    | true => simp [Folds,meaning,constOpInt,llvmOpInt,hb,← ushr_eq]
    | false => simp [Folds,meaning,constOpInt,llvmOpInt,hb,← sshr_eq,eq_comm]
  · simp [Folds,meaning,constOpInt,foldable,hb]

theorem folds_total {kind : BinOpKind}
    (hkind : kind ∉ [BinOpKind.div,.mod,.shl,.shr]) (isUnsigned : Bool) (a b : BitVec w) :
    Folds kind isUnsigned a b := by
  have heq : (a == b) = decide (intOf isUnsigned a = intOf isUnsigned b) := by
    simp only [beq_eq_decide,intOf_inj]
  cases kind with
  | add => simp [Folds,meaning,constOpInt,llvmOpInt,BitVec.ofInt_add,ofInt_intOf]
  | sub => simp [Folds,meaning,constOpInt,llvmOpInt,ofInt_sub,ofInt_intOf]
  | mul => simp [Folds,meaning,constOpInt,llvmOpInt,BitVec.ofInt_mul,ofInt_intOf]
  | div => simp at hkind
  | mod => simp at hkind
  | shl => simp at hkind
  | shr => simp at hkind
  | bwAnd => simp [Folds,meaning,constOpInt,llvmOpInt]
  | bwOr => simp [Folds,meaning,constOpInt,llvmOpInt]
  | bwXor => simp [Folds,meaning,constOpInt,llvmOpInt]
  | eq => simp [Folds,meaning,constOpInt,llvmOpInt,heq]
  | ne => simp [Folds,meaning,constOpInt,llvmOpInt,bne,heq]
  | lt => simp [Folds,meaning,constOpInt,llvmOpInt,lt_eq]
  | le => simp [Folds,meaning,constOpInt,llvmOpInt,le_eq]
  | gt => simp [Folds,meaning,constOpInt,llvmOpInt,lt_eq]
  | ge => simp [Folds,meaning,constOpInt,llvmOpInt,le_eq]

theorem folds_iff_foldable (kind : BinOpKind) (isUnsigned : Bool) (a b : BitVec w) :
    Folds kind isUnsigned a b ↔ foldable kind isUnsigned a b = true := by
  by_cases hdiv : kind = .div ∨ kind = .mod
  · exact folds_div hdiv isUnsigned a b
  by_cases hshl : kind = .shl
  · exact hshl ▸ folds_shl isUnsigned a b
  by_cases hshr : kind = .shr
  · exact hshr ▸ folds_shr isUnsigned a b
  · obtain ⟨hdiv,hmod⟩ := not_or.mp hdiv
    have hfoldable : foldable kind isUnsigned a b = true := by
      cases kind <;> first | rfl | contradiction
    have hkind : kind ∉ [BinOpKind.div,.mod,.shl,.shr] := by
      simp [hdiv,hmod,hshl,hshr]
    have htotal : Folds kind isUnsigned a b := folds_total hkind isUnsigned a b
    exact iff_of_true htotal hfoldable

end Operators

/-- `BinOp_Arithmetic::op` and `BinOp_Cmp::op`: promotion, and the same operator on either path. -/
def FoldsOperands (kind : BinOpKind) (k₁ k₂ : IntKind) (a : BitVec k₁.width)
    (b : BitVec k₂.width) : Prop :=
  let type := getArithmeticOperatorResultType k₁ k₂
  Folds kind type.isUnsigned (castInt k₁ type a) (castInt k₂ type b)

/-- Constant folding agrees with the emitted code, and with arithmetic modulo `2 ^ w`, just where
the operator has a value and no sign bit is shifted. -/
theorem folds_iff (kind : BinOpKind) (k₁ k₂ : IntKind) (a : BitVec k₁.width)
    (b : BitVec k₂.width) :
    let type := getArithmeticOperatorResultType k₁ k₂
    FoldsOperands kind k₁ k₂ a b ↔
      foldable kind type.isUnsigned (castInt k₁ type a) (castInt k₂ type b) = true :=
  folds_iff_foldable kind _ _ _

/-- A constant `-8 >> 1` is `-4`; the emitted code computes `0x7ffffffc`. -/
theorem shr_disagrees :
    ¬ FoldsOperands .shr .int32 .int32 (BitVec.ofInt 32 (-8)) (BitVec.ofInt 32 1) := by
  intro h
  have hpaths : constOpInt .shr false (BitVec.ofInt 32 (-8)) (BitVec.ofInt 32 1) =
      llvmOpInt .shr false (BitVec.ofInt 32 (-8)) (BitVec.ofInt 32 1) :=
    h.1.trans h.2.symm
  exact absurd hpaths (by decide)

end Jancy.Ct
