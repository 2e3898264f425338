import Jancy.Lib.Stable
import Jancy.Ct.Closure

/-! Preparation of operands: one table of steps for types and one for values, each taken until the
type stays the same. -/
namespace Jancy.Ct.PrepareOperand

/-- The kinds whose entry does nothing in both tables, and loads in both tables of references. -/
inductive PlainKind where
  | bool1 | bool8 | int8 | int8_u | int16 | int16_u | int32 | int32_u | int64 | int64_u
  | float | double | function | property
  | templateArg | templateTypeName | templatePtr | templateIntMod | templateDecl
  deriving DecidableEq

inductive DerivableKind where
  | struct | union | «class»
  deriving DecidableEq

inductive ImportKind where
  | importTypeName | importPtr | importIntMod
  deriving DecidableEq

/-- Types as far as the tables read them; named types and the targets of pointers that no step
unwraps are told apart by a number. -/
inductive Ty where
  | void
  | variant
  | string
  | plain (kind : PlainKind) (id : ℕ)
  | array (elementType : Ty) (elementCount : ℕ)
  | «enum» (id : ℕ) (rootType : Ty)
  | derivable (kind : DerivableKind) (id : ℕ)
  | dataPtr (targetType : Ty) (flags : ℕ)
  | dataRef (targetType : Ty) (flags : ℕ)
  | classPtr (targetType flags : ℕ)
  | classRef (targetType flags : ℕ)
  | functionPtr (targetType flags : ℕ)
  | functionRef (targetType flags : ℕ)
  | propertyPtr (targetType flags : ℕ)
  | propertyRef (getterArgs : List ℕ) (returnType : Ty) (isBindable : Bool) (flags : ℕ)
  | importType (kind : ImportKind) (actualType : Ty)
  | typedefShadow (type : Ty)
  deriving DecidableEq

/-- A property with an autoget field keeps the flags of the reference to that field. -/
inductive ValueKind where
  | type
  | property (autoGet : Option ℕ)
  | other
  deriving DecidableEq

structure Value (V D : Type) where
  kind : ValueKind
  type : Ty
  closure : Option (Closure Ty V)
  content : Option D

namespace Value

variable {V D : Type}

def ofType (type : Ty) : Value V D := ⟨.type,type,none,none⟩

def overrideType (value : Value V D) (type : Ty) : Value V D := { value with type := type }

/-- What a load, a call or the address of a field leaves. -/
def ofContent (type : Ty) (content : D) : Value V D := ⟨.other,type,none,some content⟩

end Value

inductive Operand (V D : Type) where
  | void
  | functionOverload (value : Value V D)
  | field (fieldType : Ty) (content : Option D)
  | value (value : Value V D)

structure OpFlags where
  keepDataRef : Bool
  keepClassRef : Bool
  keepFunctionRef : Bool
  keepPropertyRef : Bool
  keepDerivableRef : Bool
  keepVariantRef : Bool
  keepStringRef : Bool
  keepEnum : Bool
  arrayRefToPtr : Bool
  loadArrayRef : Bool
  ensurePtrTargetLayout : Bool

/-- What the steps use of the module. -/
structure Module (V D : Type) where
  hasCodeGen : Bool
  isReactiveExpression : Bool
  ensureLayout : Ty → Bool
  checkCastKind : V → ℕ → Except String Unit
  /-- The layouts of the accessors and the overloads of the setter, with the arguments left. -/
  accessorsReady : Ty → List ℕ → Bool
  loadDataRef : Value V D → Option D
  prepareArrayRef : Value V D → D
  addReactorBinding : Value V D → Bool
  callGetter : Value V D → Option D
  getPropertyField : Value V D → Option D

section Steps

variable {V D : Type} (module : Module V D) (opFlags : OpFlags) (value : Value V D)

def prepareOperandNop : Option (Value V D) := some value

def prepareOperandEnum (rootType : Ty) : Option (Value V D) :=
  some (if opFlags.keepEnum then value else value.overrideType rootType)

def prepareOperandImport (actualType : Ty) : Option (Value V D) :=
  some (value.overrideType actualType)

def prepareOperandTypedef (type : Ty) : Option (Value V D) := some (value.overrideType type)

def prepareOperandClassPtr (targetType : ℕ) : Option (Value V D) :=
  if opFlags.ensurePtrTargetLayout ∧ module.ensureLayout (.derivable .class targetType) = false then
    none
  else some value

def prepareOperandClassRef (targetType flags : ℕ) : Option (Value V D) :=
  if opFlags.ensurePtrTargetLayout ∧ module.ensureLayout (.derivable .class targetType) = false then
    none
  else some (if opFlags.keepClassRef then value else value.overrideType (.classPtr targetType flags))

def prepareOperandFunctionRef (targetType flags : ℕ) : Option (Value V D) :=
  some
    (if opFlags.keepFunctionRef then value else value.overrideType (.functionPtr targetType flags))

def prepareOperandDataPtr (targetType : Ty) : Option (Value V D) :=
  if opFlags.ensurePtrTargetLayout ∧ module.ensureLayout targetType = false then none
  else some value

def prepareOperandTypeDataRef (targetType : Ty) (flags : ℕ) : Option (Value V D) :=
  if opFlags.ensurePtrTargetLayout ∧ module.ensureLayout targetType = false then none
  else if opFlags.keepDataRef then some value
  else
    match targetType with
    | .derivable .. => some (if opFlags.keepDerivableRef then value else .ofType targetType)
    | .variant => some (if opFlags.keepVariantRef then value else .ofType targetType)
    | .string => some (if opFlags.keepStringRef then value else .ofType targetType)
    | .array elementType _ =>
        if opFlags.loadArrayRef then some (.ofType targetType)
        else if opFlags.arrayRefToPtr then some (.ofType (.dataPtr elementType flags))
        else some value
    | _ => some (.ofType targetType)

/-- The value that `loadDataRef` leaves has the type of the target. -/
def loadDataRef (targetType : Ty) : Option (Value V D) :=
  (module.loadDataRef value).map (Value.ofContent targetType)

def prepareOperandDataRef (targetType : Ty) (flags : ℕ) : Option (Value V D) :=
  if opFlags.ensurePtrTargetLayout ∧ module.ensureLayout targetType = false then none
  else if opFlags.keepDataRef then some value
  else
    match targetType with
    | .derivable .. =>
        if opFlags.keepDerivableRef then some value else loadDataRef module value targetType
    | .variant => if opFlags.keepVariantRef then some value else loadDataRef module value targetType
    | .string => if opFlags.keepStringRef then some value else loadDataRef module value targetType
    | .array elementType _ =>
        if opFlags.loadArrayRef then loadDataRef module value targetType
        else if opFlags.arrayRefToPtr then
          some (.ofContent (.dataPtr elementType flags) (module.prepareArrayRef value))
        else some value
    | _ => loadDataRef module value targetType

/-- The arguments of the getter in the closure-aware type of a property reference. -/
def closureAwareArgs (getterArgs : List ℕ) : Option (List ℕ) :=
  match value.closure with
  | none => some getterArgs
  | some closure =>
      match closure.getArgTypeArray module.checkCastKind getterArgs with
      | .error _ => none
      | .ok args => if module.accessorsReady value.type args then some args else none

def prepareOperandTypePropertyRef (getterArgs : List ℕ) (returnType : Ty) : Option (Value V D) :=
  if opFlags.keepPropertyRef then some value
  else
    (closureAwareArgs module value getterArgs).map fun args =>
      if args = [] then .ofType returnType else value

/-- The autoget field has the type that the getter returns: `setAutoGetValue` refuses another. -/
def getProperty (returnType : Ty) : Option (Value V D) :=
  match value.kind with
  | .property (some flags) =>
      (module.getPropertyField value).map (Value.ofContent (.dataRef returnType flags))
  | _ => (module.callGetter value).map (Value.ofContent returnType)

def prepareOperandPropertyRef (getterArgs : List ℕ) (returnType : Ty) (isBindable : Bool) :
    Option (Value V D) :=
  if opFlags.keepPropertyRef then some value
  else
    (closureAwareArgs module value getterArgs).bind fun args =>
      if args ≠ [] then some value
      else if isBindable ∧ module.isReactiveExpression ∧ module.addReactorBinding value = false then
        none
      else getProperty module value returnType

/-- `m_prepareOperandTypeFuncTable`. -/
def prepareOperandTypeFunc : Option (Value V D) :=
  match value.type with
  | .enum _ rootType => prepareOperandEnum opFlags value rootType
  | .dataPtr targetType _ => prepareOperandDataPtr module opFlags value targetType
  | .dataRef targetType flags => prepareOperandTypeDataRef module opFlags value targetType flags
  | .classPtr targetType _ => prepareOperandClassPtr module opFlags value targetType
  | .classRef targetType flags => prepareOperandClassRef module opFlags value targetType flags
  | .propertyRef getterArgs returnType _ _ =>
      prepareOperandTypePropertyRef module opFlags value getterArgs returnType
  | .importType _ actualType => prepareOperandImport value actualType
  | .typedefShadow type => prepareOperandTypedef value type
  | _ => prepareOperandNop value

/-- `m_prepareOperandFuncTable`. -/
def prepareOperandFunc : Option (Value V D) :=
  match value.type with
  | .enum _ rootType => prepareOperandEnum opFlags value rootType
  | .dataPtr targetType _ => prepareOperandDataPtr module opFlags value targetType
  | .dataRef targetType flags => prepareOperandDataRef module opFlags value targetType flags
  | .classPtr targetType _ => prepareOperandClassPtr module opFlags value targetType
  | .classRef targetType flags => prepareOperandClassRef module opFlags value targetType flags
  | .functionRef targetType flags => prepareOperandFunctionRef opFlags value targetType flags
  | .propertyRef getterArgs returnType isBindable _ =>
      prepareOperandPropertyRef module opFlags value getterArgs returnType isBindable
  | .importType _ actualType => prepareOperandImport value actualType
  | _ => prepareOperandNop value

/-- One turn of either loop. -/
def turn (func : Value V D → Option (Value V D)) (value : Value V D) : Option (Value V D) :=
  if module.ensureLayout value.type then func value else none

/-- The outer option is for the turns, the inner one for an error. -/
def prepareOperandType (turns : ℕ) : Operand V D → Option (Option (Value V D))
  | .void => some (some (.ofType .void))
  | .functionOverload value => some (some value)
  | .field fieldType _ => some (some (.ofType fieldType))
  | .value value =>
      Stable.run Value.type (turn module (prepareOperandTypeFunc module opFlags)) turns value

def prepareOperand (turns : ℕ) (operand : Operand V D) : Option (Option (Value V D)) :=
  if module.hasCodeGen = false then prepareOperandType module opFlags turns operand
  else
    match operand with
    | .void => some (some (.ofType .void))
    | .functionOverload value => some (some value)
    | .field _ content =>
        Stable.run Value.type (turn module (prepareOperandFunc module opFlags)) turns
          ⟨.other,.void,none,content⟩
    | .value value =>
        Stable.run Value.type (turn module (prepareOperandFunc module opFlags)) turns value

end Steps

end Jancy.Ct.PrepareOperand
