import Jancy.Ct.TypeSignatureReads

/-! The type manager: it hands out types from a map keyed by signatures, and pointers from tables
keyed by some of their flags. -/
namespace Jancy.Ct.Types

/-- What the type map holds. -/
inductive AnyTy where
  | data (type : Ty)
  | function (type : FunctionTy)
  | property (type : PropertyTy)
  deriving DecidableEq

namespace AnyTy

def signature : AnyTy → List Char
  | data type => type.signature
  | function type => type.signature
  | property type => type.signature

def forget : AnyTy → AnyTy
  | data type => data type.forget
  | function type => function type.forget
  | property type => property type.forget

/-- `isEqual`. -/
def isEqual (type type' : AnyTy) : Prop :=
  type.signature = type'.signature

instance (type type' : AnyTy) : Decidable (type.isEqual type') :=
  inferInstanceAs (Decidable (_ = _))

end AnyTy

mutual

/-- Everything a type is made of, without the identity of the objects. -/
def Ty.shape : Ty → Ty
  | .primitive kind => .primitive kind
  | .named kind linkId => .named kind linkId
  | .array elementType elementCount _ => .array elementType.shape elementCount none
  | .dataPtr isRef ptrKind flags bits targetType =>
    .dataPtr isRef ptrKind flags bits targetType.shape
  | .classPtr isRef ptrKind flags targetType => .classPtr isRef ptrKind flags targetType
  | .functionPtr isRef ptrKind flags targetType =>
    .functionPtr isRef ptrKind flags targetType.shape
  | .propertyPtr isRef ptrKind flags targetType =>
    .propertyPtr isRef ptrKind flags targetType.shape

def FunctionTy.shape : FunctionTy → FunctionTy
  | .mk flags callConv returnType asyncReturnType argArray _ =>
    .mk flags callConv returnType.shape asyncReturnType.shape argArray.shape none

def AsyncReturnTy.shape : AsyncReturnTy → AsyncReturnTy
  | .null => .null
  | .type returnType => .type returnType.shape

def ArgTys.shape : ArgTys → ArgTys
  | .nil => .nil
  | .cons isThis type rest => .cons isThis type.shape rest.shape

def PropertyTy.shape : PropertyTy → PropertyTy
  | .mk isConst bindable getterType setterType =>
    .mk isConst bindable getterType.shape setterType.shape

def SetterTys.shape : SetterTys → SetterTys
  | .nil => .nil
  | .cons type rest => .cons type.shape rest.shape

end

def AnyTy.shape : AnyTy → AnyTy
  | data type => data type.shape
  | function type => function type.shape
  | property type => property type.shape

mutual

theorem Ty.forget_shape : ∀ type : Ty, type.shape.forget = type.forget
  | .primitive kind => rfl
  | .named kind linkId => rfl
  | .array elementType elementCount serial => by
    have helement := elementType.forget_shape
    simp only [Ty.shape,Ty.forget,helement]
  | .dataPtr isRef ptrKind flags bits targetType => by
    have htarget := targetType.forget_shape
    simp only [Ty.shape,Ty.forget,htarget]
  | .classPtr isRef ptrKind flags targetType => rfl
  | .functionPtr isRef ptrKind flags targetType => by
    have htarget := targetType.forget_shape
    simp only [Ty.shape,Ty.forget,htarget]
  | .propertyPtr isRef ptrKind flags targetType => by
    have htarget := targetType.forget_shape
    simp only [Ty.shape,Ty.forget,htarget]

theorem FunctionTy.forget_shape : ∀ type : FunctionTy, type.shape.forget = type.forget
  | .mk flags callConv returnType asyncReturnType argArray serial => by
    have hreturn := returnType.forget_shape
    have hargs := argArray.forget_shape
    simp only [FunctionTy.shape,FunctionTy.forget,hreturn,hargs]

theorem ArgTys.forget_shape : ∀ args : ArgTys, args.shape.forget = args.forget
  | .nil => rfl
  | .cons isThis type rest => by
    have htype := type.forget_shape
    have hrest := rest.forget_shape
    simp only [ArgTys.shape,ArgTys.forget,htype,hrest]

theorem PropertyTy.forget_shape : ∀ type : PropertyTy, type.shape.forget = type.forget
  | .mk isConst bindable getterType setterType => by
    have hgetter := getterType.forget_shape
    have hsetter := setterType.forget_shape
    simp only [PropertyTy.shape,PropertyTy.forget,hgetter,hsetter]

theorem SetterTys.forget_shape : ∀ setters : SetterTys, setters.shape.forget = setters.forget
  | .nil => rfl
  | .cons type rest => by
    have htype := type.forget_shape
    have hrest := rest.forget_shape
    simp only [SetterTys.shape,SetterTys.forget,htype,hrest]

end

theorem AnyTy.forget_shape (type : AnyTy) : type.shape.forget = type.forget := by
  cases type with
  | data type => exact congrArg data type.forget_shape
  | function type => exact congrArg function type.forget_shape
  | property type => exact congrArg property type.forget_shape

theorem AnyTy.forget_eq_of_shape {type type' : AnyTy} (h : type.shape = type'.shape) :
    type.forget = type'.forget := by
  rw [← type.forget_shape,h,type'.forget_shape]

theorem AnyTy.isEqual_iff {type type' : AnyTy} :
    type.isEqual type' ↔ type.forget = type'.forget := by
  have happend {s s' : List Char} (h : s = s') : s ++ [] = s' ++ [] := by rw [h]
  rcases type with type | type | type <;> rcases type' with type' | type' | type' <;>
    simp only [isEqual,signature,forget,data.injEq,function.injEq,property.injEq,reduceCtorEq,
      iff_false]
  · exact Ty.signature_eq_iff
  · exact fun h => Ty.signature_ne_function (happend h)
  · exact fun h => Ty.signature_ne_property (happend h)
  · exact fun h => Ty.signature_ne_function (happend h.symm)
  · exact FunctionTy.signature_eq_iff
  · exact fun h => FunctionTy.signature_ne_property (happend h)
  · exact fun h => Ty.signature_ne_property (happend h.symm)
  · exact fun h => FunctionTy.signature_ne_property (happend h.symm)
  · exact PropertyTy.signature_eq_iff

def ConstKind.idx : ConstKind → ℕ
  | none => 0
  | const => 1
  | maybeConst => 2
  | autoConstX => 3
  | readOnlyX => 4
  | autoConst => 5
  | readOnly => 6

/-- A place in one of the pointer type tuples of a target type. -/
inductive PtrSlot where
  | data (targetType : Ty) (bigEndian isRef : Bool) (ptrKind : DataPtrKind) (constKind : ℕ)
    (volatile safe : Bool)
  | class_ (targetType : LinkId) (isEvent isRef : Bool) (ptrKind : ClassPtrKind) (i3 : ℕ)
    (volatile safe : Bool)
  | function (targetType : FunctionTy) (isRef : Bool) (ptrKind : FunctionPtrKind) (safe : Bool)
  | property (targetType : PropertyTy) (isRef : Bool) (ptrKind : FunctionPtrKind) (safe : Bool)
  deriving DecidableEq

/-- The class of a calling convention as simple property types are filed. -/
def CallConvKind.simplePropertyIdx : CallConvKind → ℕ
  | stdcall_msc32 | stdcall_gcc32 => 2
  | cdecl_msc32 | cdecl_msc64 | cdecl_gcc32 | cdecl_gcc64 | cdecl_arm32 | cdecl_arm64 => 1
  | _ => 0

structure SimplePropertySlot where
  returnType : Ty
  callConv : ℕ
  isConst : Bool
  bindable : Bool
  deriving DecidableEq

structure TypeMgr where
  typeList : List AnyTy
  typeMap : List Char → Option AnyTy
  ptrTypeTuple : PtrSlot → Option Ty
  simplePropertyTypeTuple : SimplePropertySlot → Option PropertyTy
  serial : ℕ

/-- What the type manager is asked for. -/
inductive Request where
  | named (kind : NamedKind) (linkId : LinkId)
  | array (elementType : Ty) (elementCount : BitVec 64)
  | userArray (elementType : Ty) (elementCount : BitVec 64)
  | dataPtr (targetType : Ty) (isRef : Bool) (ptrKind : DataPtrKind) (flags : PtrTypeFlags)
  | bitFieldPtr (targetType : Ty) (bits : BitRange) (isRef : Bool) (ptrKind : DataPtrKind)
    (flags : PtrTypeFlags)
  | classPtr (targetType : LinkId) (isRef : Bool) (ptrKind : ClassPtrKind) (flags : PtrTypeFlags)
  | functionPtr (targetType : FunctionTy) (isRef : Bool) (ptrKind : FunctionPtrKind)
    (flags : PtrTypeFlags)
  | propertyPtr (targetType : PropertyTy) (isRef : Bool) (ptrKind : FunctionPtrKind)
    (flags : PtrTypeFlags)
  | function (callConv : CallConvKind) (returnType : Ty) (argArray : ArgTys)
    (flags : FunctionTypeFlags)
  | userFunction (callConv : CallConvKind) (returnType : Ty) (argArray : ArgTys)
    (flags : FunctionTypeFlags)
  | property (getterType : FunctionTy) (setterType : SetterTys) (isConst bindable : Bool)
  | simpleProperty (callConv : CallConvKind) (returnType : Ty) (isConst bindable : Bool)

def dataPtrSlot (targetType : Ty) (isRef : Bool) (ptrKind : DataPtrKind) (flags : PtrTypeFlags) :
    PtrSlot :=
  .data targetType flags.bigEndian isRef ptrKind flags.constKind.idx flags.volatile flags.safe

/-- Event pointers have a tuple of their own, in which the const kind does not count. -/
def classPtrSlot (targetType : LinkId) (isRef : Bool) (ptrKind : ClassPtrKind)
    (flags : PtrTypeFlags) : PtrSlot :=
  if flags.event || flags.autoEvent then
    .class_ targetType true isRef ptrKind flags.autoEvent.toNat flags.volatile flags.safe
  else .class_ targetType false isRef ptrKind flags.constKind.idx flags.volatile flags.safe

def functionPtrSlot (targetType : FunctionTy) (isRef : Bool) (ptrKind : FunctionPtrKind)
    (flags : PtrTypeFlags) : PtrSlot :=
  .function targetType isRef ptrKind flags.safe

def propertyPtrSlot (targetType : PropertyTy) (isRef : Bool) (ptrKind : FunctionPtrKind)
    (flags : PtrTypeFlags) : PtrSlot :=
  .property targetType isRef ptrKind flags.safe

def functionPtrFlags (targetType : FunctionTy) (flags : PtrTypeFlags) : PtrTypeFlags :=
  if targetType.flags.unsafe_ then { flags with safe := false } else flags

def asyncFlags (flags : FunctionTypeFlags) : FunctionTypeFlags :=
  if flags.errorCode then { flags with errorCode := false, asyncErrorCode := true } else flags

/-- `createUserFunctionType`. -/
def userFunctionTy (promisePtr : Ty) (callConv : CallConvKind) (returnType : Ty)
    (argArray : ArgTys) (flags : FunctionTypeFlags) (serial : Option ℕ) : FunctionTy :=
  if flags.async then
    .mk (asyncFlags flags) callConv promisePtr (.type returnType) argArray serial
  else .mk flags callConv returnType .null argArray serial

def propertyTy (getterType : FunctionTy) (setterType : SetterTys) (isConst bindable : Bool) :
    PropertyTy :=
  .mk (isConst || setterType = .nil) bindable getterType setterType

def simpleGetterTy (callConv : CallConvKind) (returnType : Ty) : FunctionTy :=
  .mk {} callConv returnType .null .nil none

def simpleSetterTy (callConv : CallConvKind) (returnType : Ty) : FunctionTy :=
  .mk {} callConv (.primitive .void) .null (.cons false returnType .nil) none

def simplePropertyTy (callConv : CallConvKind) (returnType : Ty) (isConst bindable : Bool) :
    PropertyTy :=
  propertyTy (simpleGetterTy callConv returnType)
    (if isConst then .nil else .cons (simpleSetterTy callConv returnType) .nil) isConst bindable

def Request.asked (promisePtr : Ty) : Request → AnyTy
  | named kind linkId => .data (.named kind linkId)
  | array elementType elementCount | userArray elementType elementCount =>
    .data (.array elementType elementCount none)
  | dataPtr targetType isRef ptrKind flags => .data (.dataPtr isRef ptrKind flags none targetType)
  | bitFieldPtr targetType bits isRef ptrKind flags =>
    .data (.dataPtr isRef ptrKind flags (some bits) targetType)
  | classPtr targetType isRef ptrKind flags => .data (.classPtr isRef ptrKind flags targetType)
  | functionPtr targetType isRef ptrKind flags =>
    .data (.functionPtr isRef ptrKind flags targetType)
  | propertyPtr targetType isRef ptrKind flags =>
    .data (.propertyPtr isRef ptrKind flags targetType)
  | function callConv returnType argArray flags
  | userFunction callConv returnType argArray flags =>
    .function (userFunctionTy promisePtr callConv returnType argArray flags none)
  | property getterType setterType isConst bindable =>
    .property (propertyTy getterType setterType isConst bindable)
  | simpleProperty callConv returnType isConst bindable =>
    .property (simplePropertyTy callConv returnType isConst bindable)

namespace TypeMgr

/-- The primitive types exist from the start. -/
def init : TypeMgr where
  typeList := [.void,.variant,.string,.bool1,.bool8,.int8,.int8_u,.int16,.int16_u,.int32,.int32_u,
    .int64,.int64_u,.float,.double].map fun kind => .data (.primitive kind)
  typeMap _ := none
  ptrTypeTuple _ := none
  simplePropertyTypeTuple _ := none
  serial := 0

/-- `m_typeMap.visit(signature)`: the cached type, or the new one. -/
def visit (s : TypeMgr) (type : AnyTy) : AnyTy × TypeMgr :=
  match s.typeMap type.signature with
  | some cached => (cached,s)
  | none => (type,{ s with
      typeList := s.typeList ++ [type]
      typeMap := Function.update s.typeMap type.signature (some type) })

/-- The pointer type in the slot, or the new one. -/
def visitPtr (s : TypeMgr) (slot : PtrSlot) (type : Ty) : AnyTy × TypeMgr :=
  match s.ptrTypeTuple slot with
  | some cached => (.data cached,s)
  | none => (.data type,{ s with
      typeList := s.typeList ++ [.data type]
      ptrTypeTuple := Function.update s.ptrTypeTuple slot (some type) })

/-- A type that no cache holds. -/
def create (s : TypeMgr) (type : AnyTy) : AnyTy × TypeMgr :=
  (type,{ s with
    typeList := s.typeList ++ [type]
    serial := s.serial + 1 })

/-- `getFunctionType`; the result is cast without a check. -/
def getFunctionType (s : TypeMgr) (callConv : CallConvKind) (returnType : Ty) (argArray : ArgTys)
    (flags : FunctionTypeFlags) : Option (FunctionTy × TypeMgr) :=
  match s.visit (.function (.mk flags callConv returnType .null argArray none)) with
  | (.function type,s') => some (type,s')
  | _ => none

/-- `getPropertyType`. -/
def getPropertyType (s : TypeMgr) (getterType : FunctionTy) (setterType : SetterTys)
    (isConst bindable : Bool) : Option (PropertyTy × TypeMgr) :=
  match s.visit (.property (propertyTy getterType setterType isConst bindable)) with
  | (.property type,s') => some (type,s')
  | _ => none

/-- What `getSimplePropertyType` does when the slot is empty. -/
def createSimplePropertyType (s : TypeMgr) (callConv : CallConvKind) (returnType : Ty)
    (isConst bindable : Bool) : Option (PropertyTy × TypeMgr) := do
  let (getterType,s) ← s.getFunctionType callConv returnType .nil {}
  if isConst then s.getPropertyType getterType .nil isConst bindable
  else do
    let (setterType,s) ← s.getFunctionType callConv (.primitive .void)
      (.cons false returnType .nil) {}
    s.getPropertyType getterType (.cons setterType .nil) isConst bindable

def getSimplePropertyType (s : TypeMgr) (callConv : CallConvKind) (returnType : Ty)
    (isConst bindable : Bool) : Option (PropertyTy × TypeMgr) :=
  let slot := ⟨returnType,callConv.simplePropertyIdx,isConst,bindable⟩
  match s.simplePropertyTypeTuple slot with
  | some cached => some (cached,s)
  | none => do
    let (type,s) ← s.createSimplePropertyType callConv returnType isConst bindable
    pure (type,{ s with
      simplePropertyTypeTuple := Function.update s.simplePropertyTypeTuple slot (some type) })

def request (promisePtr : Ty) (s : TypeMgr) : Request → Option (AnyTy × TypeMgr)
  | .named kind linkId => some (s.create (.data (.named kind linkId)))
  | .array elementType elementCount =>
    some (s.visit (.data (.array elementType elementCount none)))
  | .userArray elementType elementCount =>
    some (s.create (.data (.array elementType elementCount (some s.serial))))
  | .dataPtr targetType isRef ptrKind flags =>
    some (s.visitPtr (dataPtrSlot targetType isRef ptrKind flags)
      (.dataPtr isRef ptrKind flags none targetType))
  | .bitFieldPtr targetType bits isRef ptrKind flags =>
    some (s.visit (.data (.dataPtr isRef ptrKind flags (some bits) targetType)))
  | .classPtr targetType isRef ptrKind flags =>
    some (s.visitPtr (classPtrSlot targetType isRef ptrKind flags)
      (.classPtr isRef ptrKind flags targetType))
  | .functionPtr targetType isRef ptrKind flags =>
    some (s.visitPtr (functionPtrSlot targetType isRef ptrKind (functionPtrFlags targetType flags))
      (.functionPtr isRef ptrKind (functionPtrFlags targetType flags) targetType))
  | .propertyPtr targetType isRef ptrKind flags =>
    some (s.visitPtr (propertyPtrSlot targetType isRef ptrKind flags)
      (.propertyPtr isRef ptrKind flags targetType))
  | .function callConv returnType argArray flags => do
    let (type,s) ← s.getFunctionType callConv returnType argArray flags
    pure (.function type,s)
  | .userFunction callConv returnType argArray flags =>
    some (s.create (.function
      (userFunctionTy promisePtr callConv returnType argArray flags (some s.serial))))
  | .property getterType setterType isConst bindable => do
    let (type,s) ← s.getPropertyType getterType setterType isConst bindable
    pure (.property type,s)
  | .simpleProperty callConv returnType isConst bindable => do
    let (type,s) ← s.getSimplePropertyType callConv returnType isConst bindable
    pure (.property type,s)

/-- Two types of the manager are equal exactly when they have one shape. -/
def Coherent (s : TypeMgr) : Prop :=
  ∀ type ∈ s.typeList, ∀ type' ∈ s.typeList, type.isEqual type' ↔ type.shape = type'.shape

/-- Every request gets the type that it describes, and in every state the types that are equal are
those of one shape. -/
def ExactRequests (promisePtr : Ty) (s : TypeMgr) : List Request → Prop
  | [] => s.Coherent
  | r :: rs => s.Coherent ∧ ∃ type s', s.request promisePtr r = some (type,s') ∧
      type.shape = (r.asked promisePtr).shape ∧ ExactRequests promisePtr s' rs

/-- No type of the manager differs from this one in forgotten parts only. -/
def Fresh (s : TypeMgr) (type : AnyTy) : Prop :=
  ∀ type' ∈ s.typeList, type'.forget = type.forget → type'.shape = type.shape

instance (s : TypeMgr) (type : AnyTy) : Decidable (s.Fresh type) :=
  inferInstanceAs (Decidable (∀ type' ∈ s.typeList, _ → _))

end TypeMgr

def Ty.ptrTypeFlags : Ty → PtrTypeFlags
  | .dataPtr _ _ flags _ _ => flags
  | .classPtr _ _ flags _ => flags
  | .functionPtr _ _ flags _ => flags
  | .propertyPtr _ _ flags _ => flags
  | _ => {}

def PropertyTy.callConv : PropertyTy → CallConvKind
  | .mk _ _ (.mk _ callConv _ _ _ _) _ => callConv

namespace TypeMgr

/-- The pointer that is filed in the slot, if any, has these flags. -/
def SlotFlags (s : TypeMgr) (slot : PtrSlot) (flags : PtrTypeFlags) : Prop :=
  ∀ type, s.ptrTypeTuple slot = some type → type.ptrTypeFlags = flags

/-- The request differs from every type there is in more than forgotten parts. A pointer moreover
has no other flags than the one in its slot, a simple property the calling convention of the one in
its slot; async functions are declared by the user, and no safe pointer to an unsafe function is
asked for. -/
def Distinguished (promisePtr : Ty) (s : TypeMgr) (r : Request) : Prop :=
  s.Fresh (r.asked promisePtr) ∧
    match r with
    | .dataPtr targetType isRef ptrKind flags =>
      s.SlotFlags (dataPtrSlot targetType isRef ptrKind flags) flags
    | .classPtr targetType isRef ptrKind flags =>
      s.SlotFlags (classPtrSlot targetType isRef ptrKind flags) flags
    | .functionPtr targetType isRef ptrKind flags =>
      s.SlotFlags (functionPtrSlot targetType isRef ptrKind flags) flags ∧
        ¬ (targetType.flags.unsafe_ ∧ flags.safe)
    | .propertyPtr targetType isRef ptrKind flags =>
      s.SlotFlags (propertyPtrSlot targetType isRef ptrKind flags) flags
    | .function _ _ _ flags => flags.async = false
    | .simpleProperty callConv returnType isConst bindable =>
      s.Fresh (.function (simpleGetterTy callConv returnType)) ∧
        (isConst = false → s.Fresh (.function (simpleSetterTy callConv returnType))) ∧
        ∀ type, s.simplePropertyTypeTuple
          ⟨returnType,callConv.simplePropertyIdx,isConst,bindable⟩ = some type →
            type.callConv = callConv
    | _ => True

/-- Every request of the run can be told apart from what there is when it is made. -/
def DistinctRequests (promisePtr : Ty) (s : TypeMgr) : List Request → Prop
  | [] => True
  | r :: rs => s.Distinguished promisePtr r ∧ ∀ type s', s.request promisePtr r = some (type,s') →
      DistinctRequests promisePtr s' rs

end TypeMgr

end Jancy.Ct.Types
