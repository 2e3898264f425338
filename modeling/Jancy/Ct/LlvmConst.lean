import Jancy.Ct.CalcLayoutSound
import Jancy.Ct.TypeSignature
import Jancy.Lib.LittleEndian

/-! `Value::getLlvmConst`, which turns the bytes of a value into a constant of LLVM. LLVM is not part
of the repository: a constant is its type and the bytes that it has in memory. -/
namespace Jancy.Ct

open Types (DataPtrKind FunctionPtrKind)

/-- The types of LLVM that values have. Structs and pointers are known by a number. -/
inductive LlvmType where
  | int (bitCount : ℕ)
  | fp (size : ℕ)
  | pointer (target : ℕ)
  | array (elementCount : ℕ) (elementType : LlvmType)
  | struct (id : ℕ)
  deriving DecidableEq

structure LlvmConst where
  type : LlvmType
  image : List UInt8
  deriving DecidableEq

/-- What stops the emission: a byte outside the value, an assertion of the struct builder or of
LLVM, a field that the struct does not have, or an element that raw data cannot have. -/
inductive LlvmConstError where
  | readOutside
  | assertion
  | elementIndex
  | elementType
  | depth
  deriving DecidableEq

abbrev Emission := Except LlvmConstError LlvmConst

/-- The bytes of `p` from the offset on. -/
def slice (p : List UInt8) (offset size : ℕ) : List UInt8 := (p.drop offset).take size

def readBytes (p : List UInt8) (offset size : ℕ) : Except LlvmConstError (List UInt8) :=
  if offset + size ≤ p.length then .ok (slice p offset size) else .error .readOutside

namespace LlvmConst

def getNullValue (type : LlvmType) (size : ℕ) : LlvmConst := ⟨type,List.replicate size 0⟩

/-- `ConstantInt::get` of an `APInt`. -/
def getInt (type : LlvmType) (bitCount value : ℕ) : Emission :=
  if type = .int bitCount then
    .ok ⟨type,LittleEndian.store ((bitCount + 7) / 8) (value % 2 ^ bitCount)⟩
  else .error .assertion

/-- The size of an element of raw data, an integer of 1, 2, 4 or 8 bytes or a floating point number. -/
def elementSize : LlvmType → Option ℕ
  | .int bitCount => if bitCount ∈ [8,16,32,64] then some (bitCount / 8) else none
  | .fp size => some size
  | _ => none

/-- `ConstantDataSequential::getImpl`. -/
def getData (type : LlvmType) (data : List UInt8) : Emission :=
  match type with
  | .array elementCount elementType =>
      match elementSize elementType with
      | none => .error .elementType
      | some size =>
          if data.length = elementCount * size then .ok ⟨type,data⟩ else .error .assertion
  | _ => .error .assertion

/-- `ConstantStruct::get`. The structs are packed. -/
def getStruct (id : ℕ) (elements : List LlvmType) (fields : List LlvmConst) : Emission :=
  if fields.map LlvmConst.type = elements then .ok ⟨.struct id,(fields.map LlvmConst.image).flatten⟩
  else .error .assertion

end LlvmConst

structure LaidStruct (τ : Type) [MemberType τ] [DecidableEq τ] (align : ℕ → ℕ → ℕ) where
  llvmId : ℕ
  start : LlvmStructType τ
  started : start.Started
  baseTypes : List τ
  fields : List (FieldDecl τ)
  placements : List LaidField
  laid : LlvmStructType τ
  size : ℕ
  calcLayout_eq :
    start.calcLayout align true .normal baseTypes fields = .ok (placements,laid,size)

/-- The structs behind the types that are not structs in the language. -/
inductive StdStruct where
  | variant
  | string
  | dataPtr
  | functionPtr
  deriving DecidableEq

inductive ConstTypeKind (τ : Type) [MemberType τ] [DecidableEq τ] (align : ℕ → ℕ → ℕ) where
  | variant
  | string
  | bool1
  | int (type : IntType) (isSigned : Bool)
  | fp
  | array (elementType : τ) (elementCount : ℕ)
  | enum (rootType : τ)
  | struct (type : LaidStruct τ align)
  | union (structType : LaidStruct τ align) (fields : List τ)
  | dataPtr (ptrKind : DataPtrKind)
  | classPtr
  | functionPtr (ptrKind : FunctionPtrKind)
  | propertyPtr (ptrKind : FunctionPtrKind)

/-- What the constants of a kind are made of. -/
inductive ConstShape (τ : Type) [MemberType τ] [DecidableEq τ] (align : ℕ → ℕ → ℕ) where
  | bool1
  | int (type : IntType) (isSigned : Bool)
  | fp
  | ptr
  | array (elementType : τ) (elementCount : ℕ)
  | enum (rootType : τ)
  | struct (type : LaidStruct τ align)

variable {τ : Type} [MemberType τ] [DecidableEq τ] {align : ℕ → ℕ → ℕ}

def ConstTypeKind.shape (stdType : StdStruct → LaidStruct τ align) :
    ConstTypeKind τ align → ConstShape τ align
  | .variant => .struct (stdType .variant)
  | .string => .struct (stdType .string)
  | .bool1 => .bool1
  | .int type isSigned => .int type isSigned
  | .fp => .fp
  | .array elementType elementCount => .array elementType elementCount
  | .enum rootType => .enum rootType
  | .struct type => .struct type
  | .union structType _ => .struct structType
  | .dataPtr ptrKind => if ptrKind = .normal then .struct (stdType .dataPtr) else .ptr
  | .classPtr => .ptr
  | .functionPtr ptrKind | .propertyPtr ptrKind =>
      if ptrKind ≠ .thin then .struct (stdType .functionPtr) else .ptr

/-- The first of the largest fields, as `UnionType::calcLayout` looks for it. -/
def largestFieldType (largest : Option τ) : List τ → Option τ
  | [] => largest
  | type :: types =>
      match largest with
      | none => largestFieldType (some type) types
      | some old =>
          largestFieldType (some (if LayoutType.size type > LayoutType.size old then type else old))
            types

namespace LaidStruct

def members (type : LaidStruct τ align) : List (FieldDecl τ × LaidField) :=
  (type.baseTypes.map FieldDecl.ofBase ++ type.fields).zip type.placements

end LaidStruct

/-- The types of a module, with their sizes and their types in LLVM. `roundFp` is what the way over
a `double` makes of a floating point number. -/
structure ConstTypes (τ : Type) [MemberType τ] [DecidableEq τ] (align : ℕ → ℕ → ℕ) where
  roundsUp : StructType.RoundsUp align
  kind : τ → ConstTypeKind τ align
  stdType : StdStruct → LaidStruct τ align
  llvmType : τ → LlvmType
  depth : τ → ℕ
  roundFp : List UInt8 → List UInt8
  length_roundFp : ∀ p, (roundFp p).length = p.length
  bool1 : ∀ t, (kind t).shape stdType = .bool1 → LayoutType.size t = 1 ∧ llvmType t = .int 1
  int : ∀ t type isSigned, (kind t).shape stdType = .int type isSigned →
    LayoutType.size t = type.size ∧ llvmType t = .int (8 * type.size)
  fp : ∀ t, (kind t).shape stdType = .fp → llvmType t = .fp (LayoutType.size t)
  array : ∀ t elementType elementCount,
    (kind t).shape stdType = .array elementType elementCount →
    LayoutType.size t = LayoutType.size elementType * elementCount % 2 ^ 64 ∧
      llvmType t = .array elementCount (llvmType elementType) ∧ depth elementType < depth t
  enum : ∀ t rootType, (kind t).shape stdType = .enum rootType →
    LayoutType.size t = LayoutType.size rootType ∧ llvmType t = llvmType rootType ∧
      depth rootType < depth t
  union : ∀ t structType fields, kind t = .union structType fields →
    structType.baseTypes = [] ∧
      structType.fields = (largestFieldType none fields).toList.map FieldDecl.ofBase
  ptr : ∀ t, (kind t).shape stdType = .ptr →
    LayoutType.size t = 8 ∧ ∃ target, llvmType t = .pointer target
  struct : ∀ t type, (kind t).shape stdType = .struct type →
    LayoutType.size t = type.size ∧ llvmType t = .struct type.llvmId ∧
      ∀ d ∈ type.members, depth d.1.type < depth t

namespace ConstTypes

variable (m : ConstTypes τ align)

def shape (type : τ) : ConstShape τ align := (m.kind type).shape m.stdType

def elementType : LlvmFieldType τ → LlvmType
  | .member type => m.llvmType type
  | .padding size => .array size (.int 8)

def elements (type : LaidStruct τ align) : List LlvmType :=
  type.laid.llvmFieldTypeArray.map m.elementType

end ConstTypes

structure LlvmPodStruct where
  llvmFieldArray : List LlvmConst
  llvmIdx : ℕ
  offset : ℕ

namespace LlvmPodStruct

variable (elements : List LlvmType) (p : List UInt8)

def create : LlvmPodStruct := ⟨[],0,0⟩

def append (s : LlvmPodStruct) (field : LlvmConst) : LlvmPodStruct :=
  { s with llvmFieldArray := s.llvmFieldArray ++ [field], llvmIdx := s.llvmIdx + 1 }

def addPaddingIf (s : LlvmPodStruct) (offset : ℕ) : Except LlvmConstError LlvmPodStruct :=
  if offset < s.offset then .error .assertion
  else if offset = s.offset then .ok s
  else
    match elements[s.llvmIdx]? with
    | none => .error .elementIndex
    | some (.array elementCount (.int bitCount)) =>
        if elementCount = offset - s.offset then do
          let data ← readBytes p s.offset (offset - s.offset)
          let field ← LlvmConst.getData (.array elementCount (.int bitCount)) data
          return { s.append field with offset }
        else .error .assertion
    | some _ => .error .assertion

section Add

variable (m : ConstTypes τ align) (getLlvmConst : τ → List UInt8 → Emission)

/-- The member gets a copy of its bytes. -/
def add (s : LlvmPodStruct) (offset : ℕ) (type : τ) : Except LlvmConstError LlvmPodStruct := do
  let s ← s.addPaddingIf elements p offset
  match elements[s.llvmIdx]? with
  | none => .error .elementIndex
  | some llvmType =>
      if llvmType = m.llvmType type then do
        let data ← readBytes p offset (LayoutType.size type)
        let field ← getLlvmConst type data
        return { s.append field with offset := (s.offset + LayoutType.size type) % 2 ^ 64 }
      else .error .assertion

def addMembers (s : LlvmPodStruct) :
    List (FieldDecl τ × LaidField) → Except LlvmConstError LlvmPodStruct
  | [] => .ok s
  | d :: ds => do
      let s ← s.add elements p m getLlvmConst d.2.offset d.1.type
      s.addMembers ds

def get (type : LaidStruct τ align) : Emission := do
  let s ← create.addMembers (m.elements type) p m getLlvmConst type.members
  let s ← s.addPaddingIf (m.elements type) p type.size
  LlvmConst.getStruct type.llvmId (m.elements type) s.llvmFieldArray

end Add
end LlvmPodStruct

namespace ConstTypes

section Table

variable (m : ConstTypes τ align) (getLlvmConst : τ → List UInt8 → Emission)

def getLlvmConstantFunc_bool1 (type : τ) (p : List UInt8) : Emission := do
  let data ← readBytes p 0 1
  LlvmConst.getInt (m.llvmType type) 1 (if data = [0] then 0 else 1)

/-- `(uint64_t)*(const T*)p`. -/
def extend (type : IntType) (isSigned : Bool) (value : ℕ) : ℕ :=
  if isSigned && decide (2 ^ (8 * type.size - 1) ≤ value) then
    value + (2 ^ 64 - 2 ^ (8 * type.size))
  else value

def getLlvmConstantFunc_int (intType : IntType) (isSigned : Bool) (type : τ) (p : List UInt8) :
    Emission := do
  let data ← readBytes p 0 intType.size
  LlvmConst.getInt (m.llvmType type) (intType.size * 8)
    (extend intType isSigned (LittleEndian.load data))

def getLlvmConstantFunc_fp (type : τ) (p : List UInt8) : Emission := do
  let data ← readBytes p 0 (LayoutType.size type)
  return ⟨m.llvmType type,m.roundFp data⟩

def getLlvmConstantFunc_array (type : τ) (p : List UInt8) : Emission := do
  let data ← readBytes p 0 (LayoutType.size type)
  LlvmConst.getData (m.llvmType type) data

def getLlvmConstantFunc_ptr (type : τ) (p : List UInt8) : Emission := do
  let data ← readBytes p 0 8
  let integer ← LlvmConst.getInt (.int 64) 64 (LittleEndian.load data)
  return ⟨m.llvmType type,integer.image⟩

def getLlvmConstantFunc (type : τ) (p : List UInt8) : Emission :=
  match m.kind type with
  | .variant => LlvmPodStruct.get p m getLlvmConst (m.stdType .variant)
  | .string => LlvmPodStruct.get p m getLlvmConst (m.stdType .string)
  | .bool1 => m.getLlvmConstantFunc_bool1 type p
  | .int intType isSigned => m.getLlvmConstantFunc_int intType isSigned type p
  | .fp => m.getLlvmConstantFunc_fp type p
  | .array _ _ => m.getLlvmConstantFunc_array type p
  | .enum rootType => getLlvmConst rootType p
  | .struct structType | .union structType _ => LlvmPodStruct.get p m getLlvmConst structType
  | .dataPtr ptrKind =>
      if ptrKind = .normal then LlvmPodStruct.get p m getLlvmConst (m.stdType .dataPtr)
      else m.getLlvmConstantFunc_ptr type p
  | .classPtr => m.getLlvmConstantFunc_ptr type p
  | .functionPtr ptrKind | .propertyPtr ptrKind =>
      if ptrKind ≠ .thin then LlvmPodStruct.get p m getLlvmConst (m.stdType .functionPtr)
      else m.getLlvmConstantFunc_ptr type p

/-- The body of `getLlvmConst`. -/
def getLlvmConstBody (type : τ) (p : List UInt8) : Emission := do
  let data ← readBytes p 0 (LayoutType.size type)
  if data.all (· == 0) then
    return LlvmConst.getNullValue (m.llvmType type) (LayoutType.size type)
  else m.getLlvmConstantFunc getLlvmConst type p

end Table

/-- The recursion goes as deep as the type. -/
def getLlvmConstAt (m : ConstTypes τ align) : ℕ → τ → List UInt8 → Emission
  | 0 => fun _ _ => .error .depth
  | depth + 1 => m.getLlvmConstBody (m.getLlvmConstAt depth)

def getLlvmConst (m : ConstTypes τ align) (type : τ) (p : List UInt8) : Emission :=
  m.getLlvmConstAt (m.depth type + 1) type p

end ConstTypes
end Jancy.Ct
