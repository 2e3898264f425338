import Mathlib.Data.Option.Basic
import Mathlib.Algebra.Group.Int.Defs
import Mathlib.Algebra.Group.Nat.Defs

/-! Variants: the types they hold, the comparison of two of them, and their hash. -/
namespace Jancy.Api

abbrev Word := BitVec 64

abbrev Byte := BitVec 8

/-- The types that constants are compared as. -/
inductive CmpType where
  | int32 (isUnsigned : Bool)
  | int64 (isUnsigned : Bool)
  | float
  | double
  | string
  deriving DecidableEq, Repr

/-- The integer type kinds, in the order of `TypeKind`. -/
inductive IntKind where
  | bool1 | bool8 | int8 | int8_u | int16 | int16_u | int32 | int32_u | int64 | int64_u
  deriving DecidableEq, Repr

namespace IntKind

def rank : IntKind → ℕ
  | bool1 => 0
  | bool8 => 1
  | int8 => 2
  | int8_u => 3
  | int16 => 4
  | int16_u => 5
  | int32 => 6
  | int32_u => 7
  | int64 => 8
  | int64_u => 9

def size : IntKind → ℕ
  | bool1 | bool8 | int8 | int8_u => 1
  | int16 | int16_u => 2
  | int32 | int32_u => 4
  | int64 | int64_u => 8

def IsBool (k : IntKind) : Prop := k = bool1 ∨ k = bool8

instance (k : IntKind) : Decidable k.IsBool := inferInstanceAs (Decidable (_ ∨ _))

/-- `Cast_Int` picks `Cast_IntExt` for these; `bool8` has no `TypeKindFlag_Unsigned`. -/
def signExtends : IntKind → Bool
  | bool8 | int8 | int16 | int32 | int64 => true
  | bool1 | int8_u | int16_u | int32_u | int64_u => false

/-- `Cast_Fp` picks `Cast_FpFromInt` for these. -/
def signedToFp : IntKind → Bool
  | int8 | int16 | int32 | int64 => true
  | bool1 | bool8 | int8_u | int16_u | int32_u | int64_u => false

/-- The table of `getArithmeticOperatorResultType`. -/
def resultType : IntKind → CmpType
  | int32_u => .int32 true
  | int64 => .int64 false
  | int64_u => .int64 true
  | bool1 | bool8 | int8 | int8_u | int16 | int16_u | int32 => .int32 false

end IntKind

inductive PtrKind where
  | dataPtr | charPtr | dataThinPtr | classPtr | functionPtr | functionThinPtr | propertyPtr
  | propertyThinPtr
  deriving DecidableEq, Repr

/-- The others are one word. -/
def PtrKind.size : PtrKind → ℕ
  | dataPtr | charPtr | functionPtr | propertyPtr => 16
  | dataThinPtr | classPtr | functionThinPtr | propertyThinPtr => 8

/-- `Variant::DataSize` -/
abbrev dataSize : ℕ := 48

/-- The size of what does not fit into a variant. -/
abbrev LargeSize := { n : ℕ // dataSize < n }

/-- What a variant can hold; `id` tells types apart that are not equal. Of what does not fit, a
variant holds a reference. -/
inductive VarType where
  | int (k : IntKind)
  | float
  | double
  | enum (id : ℕ) (rootType : IntKind)
  | string
  | array (isChar : Bool) (id : ℕ) (size : Fin (dataSize + 1))
  | struct (id : ℕ) (size : Fin (dataSize + 1))
  | ptr (kind : PtrKind) (id : ℕ)
  | arrayRef (isChar : Bool) (id : ℕ) (targetSize : LargeSize)
  | structRef (id : ℕ) (targetSize : LargeSize)
  deriving DecidableEq, Repr

def VarType.size : VarType → ℕ
  | int k | enum _ k => k.size
  | float => 4
  | double => 8
  | string => 40
  | array _ _ size | struct _ size => size
  | ptr kind _ => kind.size
  | arrayRef .. | structRef .. => 16

/-- `data` is the union, as words. -/
structure Variant where
  type : Option VarType
  data : Fin 6 → Word

namespace Variant

def word (v : Variant) (i : ℕ) : Word := if h : i < 6 then v.data ⟨i,h⟩ else 0

def dataOf (words : List Word) : Fin 6 → Word := fun i => words.getD i.1 0

def of (type : VarType) (words : List Word) : Variant := ⟨some type,dataOf words⟩

def null : Variant := ⟨none,dataOf []⟩

end Variant

/-- The first bytes of what is stored in words. -/
def bytesOf (word : ℕ → Word) (size : ℕ) : List Byte :=
  (List.range size).map fun i => (word (i / 8)).extractLsb' (8 * (i % 8)) 8

/-- `DataPtrValidator`; `invalid` is the flag of the target box. -/
structure Validator where
  rangeBegin : Word
  rangeEnd : Word
  invalid : Bool

/-- What is mapped. -/
structure Memory where
  byte : Word → Option Byte
  validator : Word → Option Validator
  byte_null : byte 0 = none
  validator_null : validator 0 = none

def Memory.read (m : Memory) (p : Word) (size : ℕ) : Option (List Byte) :=
  (List.range size).mapM fun i => m.byte (p + BitVec.ofNat 64 i)

/-- The functions of `axl` that the code calls. -/
structure Axl where
  djb2 : List Byte → Word
  isEqual : List Byte → List Byte → Bool
  cmp : List Byte → List Byte → ℤ

/-- Either the code reports an error, or the language leaves the outcome open. -/
inductive Failure where
  | error | undefined
  deriving DecidableEq, Repr

def Memory.load (m : Memory) (p : Word) (size : ℕ) : Except Failure (List Byte) :=
  match m.read p size with
  | some bytes => .ok bytes
  | none => .error .undefined

/-- `tryCheckDataPtrRangeIndirect` -/
def Memory.checkRange (m : Memory) (p : Word) (size : ℕ) (validator : Word) : Bool :=
  match m.validator validator with
  | none => false
  | some r =>
      p != 0 && !r.invalid && !(p < r.rangeBegin || p + BitVec.ofNat 64 size > r.rangeEnd)

/-- A constant after `prepareOperand`: enumerations have become integers, references to arrays have
become pointers, other references have been loaded. -/
inductive Operand where
  | int (k : IntKind) (w : Word)
  | float (w : Word)
  | double (w : Word)
  | string (p length : Word)
  | array (isChar : Bool) (bytes : List Byte)
  | struct
  | ptr (kind : PtrKind) (p validator : Word)

def prepareOperand (m : Memory) (word : ℕ → Word) : VarType → Except Failure Operand
  | .int k | .enum _ k => .ok (.int k (word 0))
  | .float => .ok (.float (word 0))
  | .double => .ok (.double (word 0))
  | .string => .ok (.string (word 0) (word 4))
  | .array isChar _ size => .ok (.array isChar (bytesOf word size))
  | .struct .. => .ok .struct
  | .ptr kind _ => .ok (.ptr kind (word 0) (word 1))
  | .arrayRef isChar .. => .ok (.ptr (if isChar then .charPtr else .dataPtr) (word 0) (word 1))
  | .structRef _ size =>
      if m.checkRange (word 0) size (word 1) then
        (m.load (word 0) size).map fun _ => .struct
      else .error .error

/-- The order of `TypeKind`. -/
def Operand.rank : Operand → ℕ
  | .int k _ => k.rank
  | .float _ => 10
  | .double _ => 11
  | .array .. => 12
  | .struct => 14
  | .string .. | .ptr .. => 0

def arithmeticResultType : Operand → Option CmpType
  | .int k _ => some k.resultType
  | .float _ => some .float
  | .double _ => some .double
  | _ => none

def Operand.IsString : Operand → Bool
  | .string .. => true
  | _ => false

def Operand.IsPtr : Operand → Bool
  | .ptr .. => true
  | _ => false

/-- The choice at the start of `BinOp_Cmp::op`. -/
def cmpType (op₁ op₂ : Operand) : Option CmpType :=
  if op₁.IsString || op₂.IsString then some .string
  else if op₁.IsPtr || op₂.IsPtr then some (.int64 false)
  else arithmeticResultType (if op₁.rank > op₂.rank then op₁ else op₂)

inductive Const where
  | int32 (x : BitVec 32)
  | int64 (x : BitVec 64)
  | float (x : Float32.Model)
  | double (x : Float.Model)
  | string (s : List Byte)

/-- `Cast_IntTrunc`, `Cast_IntExt`, `Cast_IntExt_u` or `Cast_Copy`. -/
def castInt (n : ℕ) (k : IntKind) (w : Word) : BitVec n :=
  let x := w.setWidth (8 * k.size)
  if k.signExtends then x.signExtend n else x.setWidth n

/-- The number that `Cast_FpFromInt` or `Cast_FpFromInt_u` reads. -/
def fpSource (k : IntKind) (w : Word) : ℤ :=
  let x := w.setWidth (8 * k.size)
  if k.signedToFp then x.toInt else x.toNat

def fp32 (w : Word) : Float32.Model := .ofBits (.ofBitVec (w.setWidth 32))

def fp64 (w : Word) : Float.Model := .ofBits (.ofBitVec w)

open Float.Model (UnpackedFloat Format) in
/-- `Cast_FpExt` -/
def fpExt (x : Float32.Model) : Float.Model :=
  .pack <| match x.unpack with
    | .finite s mantissa e _ => UnpackedFloat.round Format.binary64 s mantissa e
    | y => y

open Float.Model (UnpackedFloat Format) in
/-- `Cast_FpTrunc` -/
def fpTrunc (x : Float.Model) : Float32.Model :=
  .pack <| match x.unpack with
    | .finite s mantissa e _ => UnpackedFloat.round Format.binary32 s mantissa e
    | y => y

open Float.Model (UnpackedFloat) in
/-- Truncation towards zero, which the language leaves open where the result does not fit. -/
def fpToInt (n : ℕ) : UnpackedFloat → Except Failure (BitVec n)
  | .finite s mantissa e _ =>
      let x := UnpackedFloat.roundToInt s mantissa e
      if -2 ^ (n - 1) ≤ x ∧ x < 2 ^ (n - 1) then .ok (.ofInt n x) else .error .undefined
  | .zero _ => .ok 0
  | .infinity _ | .notANumber => .error .undefined

/-- `jnc_strLen`; a pointer past the end of its range makes it read past the range. -/
def strLen (m : Memory) (p validator : Word) : Except Failure ℕ :=
  match m.validator validator with
  | none => .ok 0
  | some r =>
      if p < r.rangeBegin || r.invalid then .ok 0
      else if p > r.rangeEnd then .error .undefined
      else do
        let bytes ← m.load p (r.rangeEnd - p).toNat
        .ok (bytes.findIdx (· == 0))

/-- The content of the string that `finalizeString` makes; it reads the validator, also where there
is none. -/
def finalizeString (m : Memory) (p : Word) (length : ℕ) (validator : Word) :
    Except Failure (List Byte) :=
  match m.validator validator with
  | none => .error .undefined
  | some r =>
      if p + BitVec.ofNat 64 length < r.rangeEnd then do
        let bytes ← m.load p length
        if bytes.getLast? = some 0 then .ok bytes.dropLast
        else do
          let _ ← m.load (p + BitVec.ofNat 64 length) 1
          .ok bytes
      else if p < r.rangeEnd then do
        let last ← m.load (r.rangeEnd - 1) 1
        m.load p (if last = [0] then (r.rangeEnd - p).toNat - 1 else length)
      else m.load p length

/-- `Cast_String_FromPtr` -/
def stringFromPtr (m : Memory) (p validator : Word) : Except Failure (List Byte) := do
  let length ← strLen m p validator
  finalizeString m p length validator

/-- `Cast_String_FromArray`: `finalizeString` on a fresh literal. -/
def stringFromArray (bytes : List Byte) : List Byte :=
  if bytes.getLast? = some 0 then bytes.dropLast else bytes

/-- `OperatorMgr::castOperator` for constants. -/
def castOperator (m : Memory) : CmpType → Operand → Except Failure Const
  | .int32 _,.int k w => .ok (.int32 (castInt 32 k w))
  | .int32 _,.float w => (fpToInt 32 (fp32 w).unpack).map .int32
  | .int32 _,.double w => (fpToInt 32 (fp64 w).unpack).map .int32
  | .int32 _,.ptr _ p _ => .ok (.int32 (p.setWidth 32))
  | .int64 _,.int k w => .ok (.int64 (castInt 64 k w))
  | .int64 _,.float w => (fpToInt 64 (fp32 w).unpack).map .int64
  | .int64 _,.double w => (fpToInt 64 (fp64 w).unpack).map .int64
  | .int64 _,.ptr _ p _ => .ok (.int64 p)
  | .float,.int k w => .ok (.float (.ofInt (fpSource k w)))
  | .float,.float w => .ok (.float (fp32 w))
  | .float,.double w => .ok (.float (fpTrunc (fp64 w)))
  | .double,.int k w => .ok (.double (.ofInt (fpSource k w)))
  | .double,.float w => .ok (.double (fpExt (fp32 w)))
  | .double,.double w => .ok (.double (fp64 w))
  | .string,.string p length => (m.load p length.toNat).map .string
  | .string,.ptr .charPtr p validator => (stringFromPtr m p validator).map .string
  | .string,.array true bytes => .ok (.string (stringFromArray bytes))
  | _,_ => .error .error

/-- From `BinOpKind_Eq` to `BinOpKind_Ge`. -/
inductive RelOp where
  | eq | ne | lt | le | gt | ge
  deriving DecidableEq, Repr

/-- One operator, from the equality and the order of its operands. -/
def RelOp.apply (eq lt gt : Bool) : RelOp → Bool
  | .eq => eq
  | .ne => !eq
  | .lt => lt
  | .le => lt || eq
  | .gt => gt
  | .ge => gt || eq

/-- `constOpInt32` and `constOpInt64` -/
def cmpInt {n : ℕ} (isUnsigned : Bool) (op : RelOp) (x y : BitVec n) : Bool :=
  op.apply (x == y) (if isUnsigned then x.ult y else x.slt y)
    (if isUnsigned then y.ult x else y.slt x)

/-- `constOpString` -/
def cmpString (axl : Axl) (op : RelOp) (x y : List Byte) : Bool :=
  match op with
  | .eq => axl.isEqual x y
  | .ne => !axl.isEqual x y
  | .lt => axl.cmp x y < 0
  | .le => axl.cmp x y ≤ 0
  | .gt => axl.cmp x y > 0
  | .ge => axl.cmp x y ≥ 0

/-- The switch at the end of `BinOp_Cmp::op`. -/
def constOp (axl : Axl) (op : RelOp) : CmpType → Const → Const → Except Failure Bool
  | .int32 isUnsigned,.int32 x,.int32 y => .ok (cmpInt isUnsigned op x y)
  | .int64 isUnsigned,.int64 x,.int64 y => .ok (cmpInt isUnsigned op x y)
  | .float,.float x,.float y => .ok (op.apply (x == y) (decide (x < y)) (decide (y < x)))
  | .double,.double x,.double y => .ok (op.apply (x == y) (decide (x < y)) (decide (y < x)))
  | .string,.string x,.string y => .ok (cmpString axl op x y)
  | _,_,_ => .error .error

def binaryOperator (axl : Axl) (m : Memory) (op : RelOp) (type₁ type₂ : VarType)
    (word₁ word₂ : ℕ → Word) : Except Failure Bool := do
  let op₁ ← prepareOperand m word₁ type₁
  let op₂ ← prepareOperand m word₂ type₂
  match cmpType op₁ op₂ with
  | none => .error .error
  | some type => do
      let c₁ ← castOperator m type op₁
      let c₂ ← castOperator m type op₂
      constOp axl op type c₁ c₂

namespace Variant

/-- What `createConst` copies: a null variant counts as a zero of the other one's type. -/
def operandWord (v : Variant) : ℕ → Word := if v.type.isSome then v.word else fun _ => 0

/-- What the fallback compares: the targets of references, else the stored bytes. -/
def image (m : Memory) (type : VarType) (v : Variant) : Except Failure (List Byte) :=
  match type with
  | .arrayRef _ _ size | .structRef _ size => m.load (v.word 0) size
  | _ => .ok (bytesOf v.word type.size)

/-- The `memcmp` fallback for equality and inequality. -/
def fallback (m : Memory) (op : RelOp) (type₁ type₂ : VarType) (v₁ v₂ : Variant) :
    Except Failure Bool :=
  if (op = .eq ∨ op = .ne) ∧ type₁ = type₂ then do
    let bytes₁ ← v₁.image m type₁
    let bytes₂ ← v₂.image m type₁
    .ok ((bytes₁ == bytes₂) == (op == .eq))
  else .error .error

def relationalOperator (axl : Axl) (m : Memory) (op : RelOp) (v₁ v₂ : Variant) :
    Except Failure Bool :=
  match v₁.type.or v₂.type,v₂.type.or v₁.type with
  | some type₁,some type₂ =>
      match binaryOperator axl m op type₁ type₂ v₁.operandWord v₂.operandWord with
      | .error .error => v₁.fallback m op type₁ type₂ v₂
      | result => result
  | _,_ => .ok (op == .eq)

def isEqual (axl : Axl) (m : Memory) (v₁ v₂ : Variant) : Bool :=
  match relationalOperator axl m .eq v₁ v₂ with
  | .ok result => result
  | .error _ => false

/-- `none` where the code reads what is not mapped. -/
def hash (axl : Axl) (m : Memory) (v : Variant) : Option Word :=
  match v.type with
  | none => some 0
  | some type =>
      if type.size ≤ 8 then some (v.word 0)
      else
        match type with
        | .ptr .dataPtr _ | .ptr .charPtr _ => some (v.word 0)
        | .string => (m.read (v.word 0) (v.word 4).toNat).map axl.djb2
        | .arrayRef _ _ size | .structRef _ size => (m.read (v.word 0) size).map axl.djb2
        | _ => some (axl.djb2 (bytesOf v.word type.size))

end Variant

end Jancy.Api
