import Jancy.Ct.ConstFolding
import Mathlib.Tactic.Ring

/-! Arithmetic on data pointers: a pointer and an integer, and two pointers. -/
namespace Jancy.Ct.PtrArithmetic

abbrev Address := BitVec 64

/-- The kinds with `TypeKindFlag_Integer`. -/
inductive IndexKind where
  | bool1
  | bool8
  | int (kind : IntKind)
  deriving DecidableEq

namespace IndexKind

def width : IndexKind → ℕ
  | bool1 => 1
  | bool8 => 8
  | int kind => kind.width

/-- `bool8` is sign-extended, as it has no `TypeKindFlag_Unsigned`. -/
def isUnsigned : IndexKind → Bool
  | bool1 => true
  | bool8 => false
  | int kind => kind.isUnsigned

/-- `getArithmeticOperatorResultType` of one operand. -/
def promoted : IndexKind → IntKind
  | bool1 | bool8 => .int32
  | int kind => kind.promoted

end IndexKind

structure IndexOperand where
  kind : IndexKind
  isConst : Bool
  bits : BitVec kind.width

/-- The value that the program means. -/
def IndexOperand.toInt (op : IndexOperand) : ℤ :=
  if op.kind.isUnsigned then op.bits.toNat else op.bits.toInt

/-- `Cast_Int::getCastOperator`. -/
def castIndex (op : IndexOperand) (dst : IntKind) : BitVec dst.width :=
  match op.kind,op.bits with
  | .bool1,bits => bits.setWidth dst.width
  | .bool8,bits => bits.signExtend dst.width
  | .int kind,bits => castInt kind dst bits

/-- `UnOp_Minus`. -/
def negOperator (op : IndexOperand) : IndexOperand where
  kind := .int op.kind.promoted
  isConst := op.isConst
  bits := -castIndex op op.kind.promoted

inductive DataPtrKind where
  | thin
  | lean
  | normal
  deriving DecidableEq

/-- The validator of a pointer is kept by all operators. -/
structure PtrOperand where
  ptrKind : DataPtrKind
  isConst : Bool
  p : Address

/-- A target type; `void` is the only one that has no size in LLVM. -/
structure TargetType where
  signature : String
  size : BitVec 64
  isVoid : Bool
  isAbstractData : Bool
  void_size : isVoid = true → size = 0

inductive OpError where
  | abstractData
  | targetTypesMismatch
  /-- LLVM does not accept the instruction -/
  | unsized
  deriving DecidableEq

def OpError.text : OpError → String
  | .abstractData => "pointer arithmetic is not applicable to 'anydata' pointers"
  | .targetTypesMismatch => "pointer difference target types mismatch"
  | .unsized => "GEP into unsized type"

/-- Indices are sign-extended, whatever their type is in the language. -/
def createGep (p : Address) (size : BitVec 64) {width : ℕ} (index : BitVec width) : Address :=
  p + index.signExtend 64 * size

def dataPtrIncrementOperator (target : TargetType) (opValue1 : PtrOperand)
    (opValue2 : IndexOperand) : Except OpError PtrOperand :=
  if target.isAbstractData then .error .abstractData
  else if opValue1.isConst && opValue2.isConst then
    let delta : BitVec 64 := castIndex opValue2 .int64
    .ok { opValue1 with p := opValue1.p + delta * target.size }
  else
    match opValue1.ptrKind with
    | .thin | .lean =>
        if target.isVoid then .error .unsized
        else .ok { opValue1 with
          isConst := false
          p := createGep opValue1.p target.size opValue2.bits }
    | .normal =>
        let size : BitVec 64 := if target.size = 0 then 1 else target.size
        let index : BitVec 64 := castIndex opValue2 .int64_u
        .ok { opValue1 with
          isConst := false
          p := createGep opValue1.p 1 (index * size) }

/-- The first branch of `BinOp_Sub::op`. -/
def dataPtrDecrementOperator (target : TargetType) (opValue1 : PtrOperand)
    (opValue2 : IndexOperand) : Except OpError PtrOperand :=
  dataPtrIncrementOperator target opValue1 (negOperator opValue2)

/-- The distance of constants is divided as a `size_t`. -/
def dataPtrDifferenceOperator (targetType1 targetType2 : TargetType)
    (opValue1 opValue2 : PtrOperand) : Except OpError (BitVec 64) :=
  if targetType1.signature ≠ targetType2.signature then .error .targetTypesMismatch
  else if targetType1.isAbstractData then .error .abstractData
  else
    let size : BitVec 64 := if targetType1.size = 0 then 1 else targetType1.size
    if opValue1.isConst && opValue2.isConst then .ok ((opValue1.p - opValue2.p) / size)
    else .ok ((opValue1.p - opValue2.p).sdiv size)

def elementAddress (p : Address) (n : ℤ) (size : BitVec 64) : Address :=
  p + BitVec.ofInt 64 (n * size.toNat)

def elementDistance (p q : Address) (size : BitVec 64) : ℤ := (p - q).toInt.tdiv size.toNat

/-- The index is not an unsigned one with its highest bit set, or that bit is scaled away. -/
def IndexOperand.GepFits (op : IndexOperand) (size : BitVec 64) : Prop :=
  op.kind.isUnsigned = false ∨ 2 * op.toInt < 2 ^ op.kind.width ∨
    2 ^ 64 ∣ 2 ^ op.kind.width * size.toNat

/-- The operands are in one of the paths where the index is as the program means it. -/
def IncrementFits (target : TargetType) (opValue1 : PtrOperand) (opValue2 : IndexOperand) : Prop :=
  target.isAbstractData = false ∧
    (opValue1.isConst = true ∧ opValue2.isConst = true ∨
      match opValue1.ptrKind with
      | .thin | .lean => target.isVoid = false ∧ opValue2.GepFits target.size
      | .normal => target.size ≠ 0 ∨ opValue2.toInt = 0)

/-- The negated index is the opposite number: as a signed one of the promoted type, or as it is. -/
def IndexOperand.NegFits (op : IndexOperand) (isGep : Bool) (size : BitVec 64) : Prop :=
  2 ^ 32 ∣ size.toNat ∨
    match op.kind.promoted with
    | .int32 => op.toInt ≠ -2 ^ 31
    | .int32_u => if isGep then op.toInt ≤ 2 ^ 31 else op.toInt = 0
    | _ => True

def DecrementFits (target : TargetType) (opValue1 : PtrOperand) (opValue2 : IndexOperand) : Prop :=
  target.isAbstractData = false ∧
    if opValue1.isConst && opValue2.isConst then opValue2.NegFits false target.size
    else
      match opValue1.ptrKind with
      | .thin | .lean => target.isVoid = false ∧ opValue2.NegFits true target.size
      | .normal =>
          if target.size = 0 then opValue2.toInt = 0 else opValue2.NegFits false target.size

/-- A negative distance of constants is taken as a large positive one. -/
def DifferenceFits (target : TargetType) (opValue1 opValue2 : PtrOperand) : Prop :=
  target.isAbstractData = false ∧ (target.size = 0 ∨
    if opValue1.isConst && opValue2.isConst then
      target.size = 1 ∨ 0 ≤ (opValue1.p - opValue2.p).toInt ∨
        (opValue1.p - opValue2.p).toNat < target.size.toNat
    else
      target.size.toNat < 2 ^ 63 ∨
        (opValue1.p - opValue2.p).toInt.natAbs + target.size.toNat < 2 ^ 64)

end Jancy.Ct.PtrArithmetic
