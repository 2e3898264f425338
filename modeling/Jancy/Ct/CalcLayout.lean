import Jancy.Ct.StructLayout

/-! `StructType::calcLayout` with its `size_t` arithmetic and the list of LLVM fields. Of a pragma
configuration only the alignment of fields is here; `sl::isPowerOf2` and `sl::align` are not part
of the repository and parameters. -/
namespace Jancy.Ct

inductive PragmaState where
  | default | noValue | customValue
  deriving DecidableEq, Repr

/-- `m_fieldAlignment`, the pack factor of the structs declared next. -/
structure PragmaConfig where
  fieldAlignment : ℕ
  pow : ∃ k, fieldAlignment = 2 ^ k

namespace PragmaConfig

def reset : PragmaConfig := ⟨8,3,rfl⟩

section SetPragma

variable (isPowerOf2 : ℤ → Bool) (hpow : ∀ n, isPowerOf2 n = true ↔ ∃ k : ℕ, n = 2 ^ k)

include hpow in

include hpow in
theorem toNat_pow {value : ℤ} (h : (isPowerOf2 value && decide (value ≤ 16)) = true) :
    ∃ k, value.toNat = 2 ^ k := by
  rw [Bool.and_eq_true] at h
  obtain ⟨k,hk⟩ := (hpow value).mp h.1
  refine ⟨k,?_⟩
  rw [hk]
  exact Int.toNat_natCast (2 ^ k)

/-- `setPragma` of `Pragma_Alignment`. -/
def setPragma (state : PragmaState) (value : ℤ) : Except String PragmaConfig :=
  match state with
  | .default => .ok reset
  | .noValue => .error "pragma 'Alignment' requires a value"
  | .customValue =>
      if h : isPowerOf2 value && decide (value ≤ 16) then
        .ok ⟨value.toNat,toNat_pow isPowerOf2 hpow h⟩
      else .error s!"invalid alignment {value}"

end SetPragma
end PragmaConfig

/-- An element of `m_llvmFieldTypeArray`. -/
inductive LlvmFieldType (τ : Type) where
  | member (type : τ)
  | padding (size : ℕ)

def LlvmFieldType.size {τ : Type} [LayoutType τ] : LlvmFieldType τ → ℕ
  | .member type => LayoutType.size type
  | .padding size => size

/-- A base or a field after its layout. Without code generation it has no LLVM index. -/
structure LaidField extends Placement where
  llvmIndex : Option ℕ

/-- The struct type during its layout. The last index belongs to `m_lastBitField`. -/
structure LlvmStructType (τ : Type) extends StructType τ where
  lastLlvmIndex : Option ℕ
  llvmFieldTypeArray : List (LlvmFieldType τ)

/-- What `calcLayout` asks of a type besides its size and alignment. -/
class MemberType (τ : Type) extends LayoutType τ where
  isDerivable : τ → Bool
  isClass : τ → Bool

/-- An opaque class has its size from an extension library, which may not know it. -/
inductive StructTypeKind where
  | normal
  | ifaceStruct (isOpaque : Bool) (typeInfo : Option UInt64)

inductive LayoutError where
  | notBaseType
  | alreadyBaseType
  | classMember
  | bitFieldTooSmall
  | opaqueTypeInfoMissing
  | opaqueSizeInvalid
  deriving DecidableEq, Repr

namespace LlvmStructType

variable {τ : Type}

def create (config : PragmaConfig) : LlvmStructType τ :=
  { fieldAlignment := config.fieldAlignment, alignment := 1, fieldSize := 0, lastBitField := none,
    fieldAlignment_pow := config.pow, lastLlvmIndex := none, llvmFieldTypeArray := [] }

def createUnionStruct (config : PragmaConfig) (largestAlignment : ℕ) : LlvmStructType τ :=
  { create config with alignment := min largestAlignment config.fieldAlignment }

section Layout

variable [LayoutType τ] (align : ℕ → ℕ → ℕ) (hasCodeGen : Bool)

/-- `sl::align` of a `size_t`. -/
def alignSize (n alignment : ℕ) : ℕ := align n alignment % 2 ^ 64

def addLlvmPadding (s : LlvmStructType τ) (size : ℕ) : LlvmStructType τ :=
  { s with llvmFieldTypeArray := s.llvmFieldTypeArray ++ [.padding size] }

/-- The part for code generation where a unit is laid out. -/
def addLlvmField (s : LlvmStructType τ) (offset : ℕ) (type : τ) :
    Option ℕ × LlvmStructType τ :=
  if hasCodeGen then
    let s := if offset > s.fieldSize then s.addLlvmPadding (offset - s.fieldSize) else s
    (some (s.llvmFieldTypeArray.length % 2 ^ 32),
      { s with llvmFieldTypeArray := s.llvmFieldTypeArray ++ [.member type] })
  else (none,s)

def layoutFieldImpl (s : LlvmStructType τ) (type : τ) : LaidField × LlvmStructType τ :=
  let (offset,base) := s.getFieldOffset (alignSize align) type
  let (llvmIndex,s) := { s with toStructType := base }.addLlvmField hasCodeGen offset type
  (⟨⟨offset,0,0⟩,llvmIndex⟩,
    { s with
      fieldSize := (offset + LayoutType.size type) % 2 ^ 64
      lastBitField := none })

def layoutBitField [DecidableEq τ] (s : LlvmStructType τ) (field : FieldDecl τ) :
    Except LayoutError (LaidField × LlvmStructType τ) :=
  if field.bitCount > LayoutType.size field.type * 8 then .error .bitFieldTooSmall
  else
    match s.mergeBitField field with
    | (some last,bitOffset) =>
        .ok (⟨⟨last.offset,bitOffset,field.bitCount⟩,s.lastLlvmIndex⟩,
          { s with lastBitField := some ⟨field.type,last.offset,bitOffset,field.bitCount⟩ })
    | (none,bitOffset) =>
        let (offset,base) := s.getFieldOffset (alignSize align) field.type
        let (llvmIndex,s) :=
          { s with toStructType := base }.addLlvmField hasCodeGen offset field.type
        .ok (⟨⟨offset,bitOffset,field.bitCount⟩,llvmIndex⟩,
          { s with
            fieldSize := (offset + LayoutType.size field.type) % 2 ^ 64
            lastBitField := some ⟨field.type,offset,bitOffset,field.bitCount⟩
            lastLlvmIndex := llvmIndex })

end Layout

variable [MemberType τ] [DecidableEq τ] (align : ℕ → ℕ → ℕ) (hasCodeGen : Bool)
  (kind : StructTypeKind)

/-- `before` are the base types that are laid out already. -/
def layoutBaseType (s : LlvmStructType τ) (before : List τ) (type : τ) :
    Except LayoutError (LaidField × LlvmStructType τ) :=
  if !MemberType.isDerivable type || MemberType.isClass type then .error .notBaseType
  else if type ∈ before then .error .alreadyBaseType
  else .ok (s.layoutFieldImpl align hasCodeGen type)

def layoutField (s : LlvmStructType τ) (field : FieldDecl τ) :
    Except LayoutError (LaidField × LlvmStructType τ) :=
  match kind, MemberType.isClass field.type with
  | .normal, true => .error .classMember
  | _, _ =>
      if field.bitCount ≠ 0 then s.layoutBitField align hasCodeGen field
      else .ok (s.layoutFieldImpl align hasCodeGen field.type)

def layoutBaseTypes (s : LlvmStructType τ) (before : List τ) :
    List τ → Except LayoutError (List LaidField × LlvmStructType τ)
  | [] => .ok ([],s)
  | type :: types => do
      let (p,s) ← s.layoutBaseType align hasCodeGen before type
      let (ps,s) ← s.layoutBaseTypes (type :: before) types
      return (p :: ps,s)

def layoutFields (s : LlvmStructType τ) :
    List (FieldDecl τ) → Except LayoutError (List LaidField × LlvmStructType τ)
  | [] => .ok ([],s)
  | field :: fields => do
      let (p,s) ← s.layoutField align hasCodeGen kind field
      let (ps,s) ← s.layoutFields fields
      return (p :: ps,s)

def finalSize (s : LlvmStructType τ) : Except LayoutError ℕ :=
  let size := alignSize align s.fieldSize s.alignment
  match kind with
  | .normal => .ok size
  | .ifaceStruct false _ => .ok size
  | .ifaceStruct true none => .error .opaqueTypeInfoMissing
  | .ifaceStruct true (some typeInfo) =>
      if typeInfo.toNat < size then .error .opaqueSizeInvalid else .ok typeInfo.toNat

def calcLayout (s : LlvmStructType τ) (baseTypes : List τ) (fields : List (FieldDecl τ)) :
    Except LayoutError (List LaidField × LlvmStructType τ × ℕ) := do
  let (ps,s) ← s.layoutBaseTypes align hasCodeGen [] baseTypes
  let (qs,s) ← s.layoutFields align hasCodeGen kind fields
  let size ← s.finalSize align kind
  if hasCodeGen && decide (size > s.fieldSize) then
    return (ps ++ qs,s.addLlvmPadding (size - s.fieldSize),size)
  else return (ps ++ qs,s,size)

end LlvmStructType
end Jancy.Ct
