import Jancy.Lib.PrefixCode

/-! The types of the compiler as trees, and the signatures by which they are compared and cached. -/
namespace Jancy.Ct.Types

/-- The primitive types, which are identified by their kind. -/
inductive PrimitiveKind where
  | void
  | variant
  | string
  | bool1
  | bool8
  | int8
  | int8_u
  | int16
  | int16_u
  | int32
  | int32_u
  | int64
  | int64_u
  | float
  | double
  deriving DecidableEq

inductive NamedKind where
  | enum
  | struct
  | union
  | «class»
  deriving DecidableEq

inductive ConstKind where
  | none
  | const
  | maybeConst
  | autoConstX
  | readOnlyX
  | autoConst
  | readOnly
  deriving DecidableEq

inductive DataPtrKind where
  | normal
  | lean
  | thin
  deriving DecidableEq

inductive ClassPtrKind where
  | normal
  | weak
  deriving DecidableEq

/-- The kinds of function pointers and of property pointers. -/
inductive FunctionPtrKind where
  | normal
  | weak
  | thin
  deriving DecidableEq

inductive CallConvKind where
  | undefined
  | jnccall_msc32
  | jnccall_msc64
  | jnccall_gcc32
  | jnccall_gcc64
  | jnccall_arm32
  | jnccall_arm64
  | cdecl_msc32
  | cdecl_msc64
  | cdecl_gcc32
  | cdecl_gcc64
  | cdecl_arm32
  | cdecl_arm64
  | stdcall_msc32
  | stdcall_gcc32
  | thiscall_msc32
  deriving DecidableEq

/-- The pointer type flags other than the pointer kind. -/
structure PtrTypeFlags where
  constKind : ConstKind := .none
  volatile : Bool := false
  safe : Bool := false
  event : Bool := false
  autoEvent : Bool := false
  bindable : Bool := false
  autoGet : Bool := false
  bigEndian : Bool := false
  bitField : Bool := false
  thinThis : Bool := false
  deriving DecidableEq

structure FunctionTypeFlags where
  varArg : Bool := false
  errorCode : Bool := false
  byValArgs : Bool := false
  coercedArgs : Bool := false
  unsafe_ : Bool := false
  async : Bool := false
  asyncErrorCode : Bool := false
  intExtArgs : Bool := false
  deriving DecidableEq

/-- The bits of a bit-field pointer. -/
structure BitRange where
  offset : BitVec 32
  count : BitVec 32
  count_ne_zero : count ≠ 0
  deriving DecidableEq

/-- A dotted name; where a part of it is a template instance, the signatures of the arguments stand
in angle brackets. -/
structure LinkId where
  chars : List Char
  bracketed : PrefixCode.Bracketed '<' '>' '$' 0 chars = true
  deriving DecidableEq

mutual

/-- The types of data. A type that is not taken from a cache has a serial number, since two of them
are different objects even where they are alike. -/
inductive Ty where
  | primitive (kind : PrimitiveKind)
  | named (kind : NamedKind) (linkId : LinkId)
  | array (elementType : Ty) (elementCount : BitVec 64) (serial : Option ℕ)
  | dataPtr (isRef : Bool) (ptrKind : DataPtrKind) (flags : PtrTypeFlags) (bits : Option BitRange)
    (targetType : Ty)
  | classPtr (isRef : Bool) (ptrKind : ClassPtrKind) (flags : PtrTypeFlags) (targetType : LinkId)
  | functionPtr (isRef : Bool) (ptrKind : FunctionPtrKind) (flags : PtrTypeFlags)
    (targetType : FunctionTy)
  | propertyPtr (isRef : Bool) (ptrKind : FunctionPtrKind) (flags : PtrTypeFlags)
    (targetType : PropertyTy)

/-- The async return type is null except in the async types that a user declares. -/
inductive FunctionTy where
  | mk (flags : FunctionTypeFlags) (callConv : CallConvKind) (returnType : Ty)
    (asyncReturnType : AsyncReturnTy) (argArray : ArgTys) (serial : Option ℕ)

inductive AsyncReturnTy where
  | null
  | type (returnType : Ty)

/-- The argument types, with the storage kind of a this argument. -/
inductive ArgTys where
  | nil
  | cons (isThis : Bool) (type : Ty) (rest : ArgTys)

inductive PropertyTy where
  | mk (isConst bindable : Bool) (getterType : FunctionTy) (setterType : SetterTys)

inductive SetterTys where
  | nil
  | cons (type : FunctionTy) (rest : SetterTys)

end

deriving instance DecidableEq for Ty, FunctionTy, AsyncReturnTy, ArgTys, PropertyTy, SetterTys

def PrimitiveKind.signature : PrimitiveKind → Char
  | void => 'v'
  | variant => 'z'
  | string => 's'
  | bool1 => 'j'
  | bool8 => 'b'
  | int8 => 'c'
  | int8_u => 'y'
  | int16 => 'h'
  | int16_u => 'w'
  | int32 => 'i'
  | int32_u => 'd'
  | int64 => 'l'
  | int64_u => 'q'
  | float => 'f'
  | double => 'e'

def NamedKind.prefixChar : NamedKind → Char
  | enum => 'E'
  | struct => 'S'
  | union => 'U'
  | «class» => 'C'

def ConstKind.signature : ConstKind → List Char
  | none => []
  | const => ['c']
  | maybeConst => ['m']
  | autoConstX => ['x']
  | readOnlyX => ['y']
  | autoConst => ['u']
  | readOnly => ['r']

def CallConvKind.signature : CallConvKind → List Char
  | undefined => ['C','C','0']
  | jnccall_msc32 => ['J','M','4']
  | jnccall_msc64 => ['J','M','8']
  | jnccall_gcc32 => ['J','G','4']
  | jnccall_gcc64 => ['J','G','8']
  | jnccall_arm32 => ['J','A','4']
  | jnccall_arm64 => ['J','A','8']
  | cdecl_msc32 => ['C','M','4']
  | cdecl_msc64 => ['C','M','8']
  | cdecl_gcc32 => ['C','G','4']
  | cdecl_gcc64 => ['C','G','8']
  | cdecl_arm32 => ['C','A','4']
  | cdecl_arm64 => ['C','A','8']
  | stdcall_msc32 => ['S','M','4']
  | stdcall_gcc32 => ['S','G','4']
  | thiscall_msc32 => ['T','M','4']

def letterIf (flag : Bool) (c : Char) : List Char :=
  if flag then [c] else []

/-- `appendPtrTypeFlagSignature`: the flags from the lowest bit up, then the const kind. -/
def PtrTypeFlags.signature (flags : PtrTypeFlags) : List Char :=
  letterIf flags.volatile 'v' ++ letterIf flags.safe 's' ++ letterIf flags.event 'e' ++
    letterIf flags.autoEvent 'd' ++ letterIf flags.bindable 'b' ++ letterIf flags.autoGet 'a' ++
    letterIf flags.bigEndian 'n' ++ letterIf flags.bitField 'f' ++ letterIf flags.thinThis 'h' ++
    flags.constKind.signature

/-- `appendFlagSignature` of function types. -/
def FunctionTypeFlags.signature (flags : FunctionTypeFlags) : List Char :=
  letterIf flags.unsafe_ 'u' ++ letterIf flags.async 'a' ++
    letterIf (flags.errorCode || flags.asyncErrorCode) 'e'

/-- What `%d` prints of a 32-bit value. -/
def formatInt (n : BitVec 32) : List Char :=
  if n.msb then '-' :: Nat.toDigits 10 (-n).toNat else Nat.toDigits 10 n.toNat

/-- The bits are printed only if there are any. -/
def bitSignature : Option BitRange → List Char
  | none => []
  | some bits => ':' :: formatInt bits.offset ++ ':' :: formatInt (bits.offset + bits.count)

/-- `(typeKind - TypeKind_DataPtr) * 2 + j`, and the same for function and property pointers. -/
def ptrSignatureIdx (isRef : Bool) (j : ℕ) : ℕ :=
  isRef.toNat * 2 + j

def DataPtrKind.idx : DataPtrKind → ℕ
  | normal => 0
  | lean => 1
  | thin => 2

def ClassPtrKind.idx : ClassPtrKind → ℕ
  | normal => 0
  | weak => 1

def FunctionPtrKind.idx : FunctionPtrKind → ℕ
  | normal => 0
  | weak => 1
  | thin => 2

/-- The string table of data pointers; every index below `5` occurs. -/
def dataPtrStringTable : ℕ → List Char
  | 0 => ['P','n']
  | 1 => ['P','l']
  | 2 => ['P','t']
  | 3 => ['R','n']
  | 4 => ['R','l']
  | _ => ['R','t']

def classPtrStringTable : ℕ → List Char
  | 0 => ['P','n']
  | 1 => ['P','w']
  | 2 => ['R','n']
  | _ => ['R','w']

/-- The string table of function pointers and of property pointers. -/
def functionPtrStringTable : ℕ → List Char
  | 0 => ['P','n']
  | 1 => ['P','w']
  | 2 => ['P','t']
  | 3 => ['R','n']
  | 4 => ['R','w']
  | _ => ['R','t']

def LinkId.signature (kind : NamedKind) (linkId : LinkId) : List Char :=
  kind.prefixChar :: (linkId.chars ++ ['$'])

def ptrSignature (code : List Char) (bits : Option BitRange) (flags : PtrTypeFlags)
    (target : List Char) : List Char :=
  code ++ ((bitSignature bits ++ flags.signature) ++ '&' :: target)

def FunctionTy.flags : FunctionTy → FunctionTypeFlags
  | mk flags _ _ _ _ _ => flags

mutual

/-- `getSignature`. -/
def Ty.signature : Ty → List Char
  | .primitive kind => [kind.signature]
  | .named kind linkId => linkId.signature kind
  | .array elementType elementCount _ =>
    'A' :: (formatInt (elementCount.setWidth 32) ++ elementType.signature)
  | .dataPtr isRef ptrKind flags bits targetType =>
    ptrSignature (dataPtrStringTable (ptrSignatureIdx isRef ptrKind.idx)) bits flags
      targetType.signature
  | .classPtr isRef ptrKind flags targetType =>
    ptrSignature (classPtrStringTable (ptrSignatureIdx isRef ptrKind.idx)) none flags
      (targetType.signature .class)
  | .functionPtr isRef ptrKind flags targetType =>
    ptrSignature (functionPtrStringTable (ptrSignatureIdx isRef ptrKind.idx)) none flags
      targetType.signature
  | .propertyPtr isRef ptrKind flags targetType =>
    ptrSignature (functionPtrStringTable (ptrSignatureIdx isRef ptrKind.idx)) none flags
      targetType.signature

def FunctionTy.signature : FunctionTy → List Char
  | .mk flags callConv returnType _ argArray _ =>
    'F' :: (flags.signature ++ (callConv.signature ++ (returnType.signature ++
      '(' :: (argArray.signature ++ (letterIf flags.varArg '.' ++ [')'])))))

def ArgTys.signature : ArgTys → List Char
  | .nil => []
  | .cons isThis type rest => letterIf isThis '&' ++ (type.signature ++ rest.signature)

def PropertyTy.signature : PropertyTy → List Char
  | .mk _ bindable getterType setterType =>
    'Y' :: (letterIf bindable 'b' ++ (getterType.signature ++ setterType.signature))

def SetterTys.signature : SetterTys → List Char
  | .nil => []
  | .cons type rest => type.signature ++ rest.signature

end

/-- `isEqual`. -/
def Ty.isEqual (type type' : Ty) : Prop :=
  type.signature = type'.signature

end Jancy.Ct.Types
