import Mathlib.Data.Finset.SDiff

/-! `DeclTypeCalc::calcType`: the type of a declarator, from its base type, its pointer prefixes and
its suffixes. The type is the list of the constructors that are applied to the base type, the first
one innermost, with the suffix and the modifiers that each of them takes. -/
namespace Jancy.Ct.DeclTypeCalc

inductive TypeModifier where
  | unsigned | bigEndian | const | maybeConst | autoConst | readOnly | volatile | weak | thin | safe
  | cdecl | stdcall | array | function | property | bindable | autoGet | indexed | multicast | event
  | autoEvent | reactor | thiscall | jnccall | unsafe_ | errorCode | async
  deriving DecidableEq

abbrev Modifiers := Finset TypeModifier

section MaskKinds

open TypeModifier

def maskCallConv : Modifiers := {cdecl,stdcall,thiscall,jnccall}

def maskFunction : Modifiers := {function,errorCode,unsafe_,async} ∪ maskCallConv

def maskProperty : Modifiers :=
  {property,errorCode,const,readOnly,autoGet,bindable,indexed,bigEndian,volatile} ∪ maskCallConv

def maskDataPtr : Modifiers := {bigEndian,safe,const,maybeConst,autoConst,readOnly,volatile,thin}

def maskClassPtr : Modifiers :=
  {safe,const,maybeConst,autoConst,readOnly,volatile,event,autoEvent,weak}

/-- The same for function pointers and for property pointers. -/
def maskFunctionPtr : Modifiers := {safe,weak,thin}

/-- The same for pointers to imports and to template parameters. -/
def maskImportPtr : Modifiers := maskDataPtr ∪ maskClassPtr ∪ maskFunctionPtr

/-- What `getDataPtrTypeFlags` takes. -/
def maskDataPtrFlags : Modifiers :=
  {const,maybeConst,autoConst,readOnly,bigEndian,volatile,event,autoEvent,bindable,autoGet}

/-- What `getThisArgTypeFlags` takes. -/
def maskThisArgFlags : Modifiers := {const,maybeConst,thin}

end MaskKinds

/-- The integer types, booleans among them. -/
inductive IntKind where
  | bool1 | bool8 | int8 | int8_u | int16 | int16_u | int32 | int32_u | int64 | int64_u
  deriving DecidableEq

/-- `getUnsignedIntegerTypeKind`. -/
def IntKind.unsigned : IntKind → IntKind
  | .int8 => .int8_u
  | .int16 => .int16_u
  | .int32 => .int32_u
  | .int64 => .int64_u
  | kind => kind

/-- The types as far as the calculation tells them apart. An import has the type that it will be
resolved to; `data` is every type of data without a case of its own. -/
inductive Ty where
  | void
  | integer (kind : IntKind)
  | enum
  | data
  | abstractData
  | autoSizeArray
  | «class»
  | function
  | functionPtr
  | property
  | typedefShadow (actualType : Ty)
  | importTypeName (actualType : Ty)
  | importIntMod (actualType : Ty)
  | templateArg
  | templateIntMod
  deriving DecidableEq

structure ArraySuffix where
  elementCount : Option ℕ
  hasInitializer : Bool
  deriving DecidableEq

structure FunctionSuffix where
  isGetter : Bool
  varArg : Bool
  argArray : ℕ
  deriving DecidableEq

inductive Suffix where
  | array (suffix : ArraySuffix)
  | function (suffix : FunctionSuffix)
  deriving DecidableEq

def Suffix.isGetter : Suffix → Bool
  | .array _ => false
  | .function suffix => suffix.isGetter

/-- The constructors; that of integers comes with the type that it makes. -/
inductive CtorKind where
  | integer (type : Ty)
  | array (isAutoSize : Bool)
  | function
  | property
  | bindableData
  | multicast
  | reactor
  | dataPtr
  | classPtr
  | functionPtr
  | propertyPtr
  | importPtr
  | templatePtr
  | getterOfFunction
  | declFlags
  deriving DecidableEq

/-- The modifiers that a constructor can take. -/
def CtorKind.mask : CtorKind → Modifiers
  | .integer _ => {.unsigned}
  | .array _ => {.array}
  | .function => maskFunction
  | .property => maskProperty
  | .bindableData => maskProperty
  | .multicast => {.multicast}
  | .reactor => {.reactor}
  | .dataPtr => maskDataPtr
  | .classPtr => maskClassPtr
  | .functionPtr => maskFunctionPtr
  | .propertyPtr => maskFunctionPtr
  | .importPtr => maskImportPtr
  | .templatePtr => maskImportPtr
  | .getterOfFunction => ∅
  | .declFlags => {.autoGet} ∪ maskThisArgFlags ∪ maskDataPtrFlags

/-- A type constructor, with what it takes of the declarator. -/
structure Ctor where
  kind : CtorKind
  suffix : Option Suffix
  modifiers : Modifiers
  deriving DecidableEq

inductive DeclError where
  | cannotBeApplied
  | missingArraySuffix
  | arrayElement
  | abstractData
  | returnType
  | missingFunctionSuffix
  | varArg
  | instantiation
  | voidProperty
  | missingIndexedSuffix
  | templatedProperty
  | indexedBindable
  | unusedModifiers
  | elementCount
  deriving DecidableEq

/-- What the calculation calls: the parser of expressions, the calling conventions, and the
instantiation of the arguments of a template. -/
structure Env where
  isTemplate : Bool
  parseExpression : ArraySuffix → Bool
  varArgAllowed : Modifiers → Bool
  instantiates : FunctionSuffix → Bool

/-- The suffixes from `m_suffix` back to the first one, and `m_typeModifiers`. -/
structure State where
  type : Ty
  suffixes : List Suffix
  modifiers : Modifiers
  ctors : List Ctor
  deriving DecidableEq

abbrev Calc := Except DeclError State

namespace State

/-- One more constructor, which takes the modifiers of the mask. -/
def build (s : State) (kind : CtorKind) (suffix : Option Suffix) (mask : Modifiers) (type : Ty) :
    State :=
  { s with
    type
    modifiers := s.modifiers \ mask
    ctors := s.ctors ++ [⟨kind,suffix,s.modifiers ∩ mask⟩] }

/-- The type that `getIntegerType` makes. The kind is that of the shadow where the type is one. -/
def integerType : Ty → Option Ty
  | .importTypeName actualType => some (.importIntMod actualType)
  | .templateArg => some .templateIntMod
  | .integer kind => some (.integer kind.unsigned)
  | .enum => some .enum
  | .typedefShadow (.integer kind) => some (.integer kind)
  | .typedefShadow .enum => some .enum
  | _ => none

def getIntegerType (s : State) : Calc :=
  match integerType s.type with
  | none => .error .cannotBeApplied
  | some type => .ok (s.build (.integer type) none {.unsigned} type)

/-- The check of the modifiers of integers, and of `anydata`. -/
def checkInteger (s : State) : Calc :=
  if .unsigned ∈ s.modifiers then s.getIntegerType
  else if s.type = .abstractData then .error .abstractData
  else .ok s

/-- Types that an array cannot have as elements, or a function cannot return. -/
def isNoElement (type : Ty) : Bool :=
  type ∈ [Ty.class,.function,.property,.autoSizeArray]

def getArrayType (s : State) : Calc :=
  match s.suffixes with
  | .array suffix :: suffixes =>
      if isNoElement s.type || s.type = .void then .error .arrayElement
      else do
        let s ← { s with suffixes }.checkInteger
        let isAutoSize := !suffix.hasInitializer && suffix.elementCount.isNone
        return s.build (.array isAutoSize) (some (.array suffix)) {.array}
          (if isAutoSize then .autoSizeArray else .data)
  | _ => .error .missingArraySuffix

/-- The loop over array suffixes; it runs at most as often as there are suffixes. -/
def getArrayTypes : ℕ → State → Calc
  | 0, s => .ok s
  | n + 1, s =>
      match s.suffixes with
      | .array _ :: _ => do
          let s ← s.getArrayType
          getArrayTypes n s
      | _ => .ok s

def prepareReturnType (s : State) : Calc := do
  let s ← s.getArrayTypes s.suffixes.length
  if isNoElement s.type then .error .returnType else s.checkInteger

/-- The kind of a getter suffix is changed to that of a function before. -/
def getFunctionType (s : State) (env : Env) (acceptGetter : Bool) : Calc := do
  let s ← s.prepareReturnType
  match s.suffixes with
  | .function suffix :: suffixes =>
      if suffix.isGetter && !acceptGetter then .error .missingFunctionSuffix
      else if suffix.varArg && !env.varArgAllowed s.modifiers then .error .varArg
      else if env.isTemplate && !env.instantiates suffix then .error .instantiation
      else
        return { s with suffixes }.build .function (some (.function suffix)) maskFunction .function
  | _ => .error .missingFunctionSuffix

def getPropertyType (s : State) (env : Env) : Calc := do
  let s ← s.prepareReturnType
  if s.type = .void then .error .voidProperty
  else if .indexed ∉ s.modifiers then return s.build .property none maskProperty .property
  else
    match s.suffixes with
    | .function suffix :: suffixes =>
        if suffix.isGetter then .error .missingIndexedSuffix
        else if env.isTemplate then .error .templatedProperty
        else
          return { s with suffixes }.build .property (some (.function suffix)) maskProperty .property
    | _ => .error .missingIndexedSuffix

def getBindableDataType (s : State) : Calc := do
  let s ← s.prepareReturnType
  if s.type = .void then .error .voidProperty
  else if .indexed ∈ s.modifiers then .error .indexedBindable
  else return s.build .bindableData none maskProperty .property

def getFunctionPtrType (s : State) : State := s.build .functionPtr none maskFunctionPtr .functionPtr

def getMulticastPtrType (s : State) (env : Env) : Calc :=
  match s.type with
  | .functionPtr => .ok s
  | .function => .ok s.getFunctionPtrType
  | _ => do
      let s ← s.getFunctionType env false
      return s.getFunctionPtrType

def getMulticastType (s : State) (env : Env) : Calc := do
  let s ← s.getMulticastPtrType env
  return s.build .multicast none {.multicast} .class

/-- Here `anydata` is not looked at. -/
def getTargetType (s : State) : Calc :=
  if .unsigned ∈ s.modifiers then s.getIntegerType else .ok s

def getDataPtrType (s : State) : Calc := do
  let s ← s.getTargetType
  return s.build .dataPtr none maskDataPtr .data

def getClassPtrType (s : State) : State := s.build .classPtr none maskClassPtr .data

def getPropertyPtrType (s : State) : State := s.build .propertyPtr none maskFunctionPtr .data

def checkUnusedModifiers (s : State) : Calc :=
  if s.modifiers = ∅ then .ok s else .error .unusedModifiers

/-- The pointer that goes by the kind of the type alone. -/
def getPlainPointerType (s : State) : Calc :=
  match s.type with
  | .class => .ok s.getClassPtrType
  | .function => .ok s.getFunctionPtrType
  | .property => .ok s.getPropertyPtrType
  | .importTypeName _ => .ok (s.build .importPtr none maskImportPtr .data)
  | .templateArg => .ok (s.build .templatePtr none maskImportPtr .data)
  | _ => s.getDataPtrType

def getPointerType (s : State) (env : Env) : Calc :=
  if .array ∈ s.modifiers then do
    let s ← s.getArrayType
    s.getDataPtrType
  else if .function ∈ s.modifiers ∨ .async ∈ s.modifiers then do
    let s ← s.getFunctionType env false
    return s.getFunctionPtrType
  else if .property ∈ s.modifiers then do
    let s ← s.getPropertyType env
    return s.getPropertyPtrType
  else if .multicast ∈ s.modifiers ∨ .event ∈ s.modifiers then do
    let s ← s.getMulticastType env
    return s.getClassPtrType
  else if .reactor ∈ s.modifiers then return s.build .reactor none {.reactor} .class
  else s.getPlainPointerType

def pointerPrefix (s : State) (env : Env) (modifiers : Modifiers) : Calc := do
  let s ← { s with modifiers }.getPointerType env
  s.checkUnusedModifiers

def pointerPrefixes (s : State) (env : Env) : List Modifiers → Calc
  | [] => .ok s
  | modifiers :: prefixes => do
      let s ← s.pointerPrefix env modifiers
      s.pointerPrefixes env prefixes

/-- The flags of the declaration take modifiers only where the caller asks for them. -/
def takeFlags (s : State) (hasFlags : Bool) (mask : Modifiers) : State :=
  if hasFlags then s.build .declFlags none mask s.type else s

/-- The modifiers of the declarator itself, up to the loop over the suffixes. -/
def typeModifiers (s : State) (env : Env) (hasFlags : Bool) (modifiers : Modifiers) : Calc := do
  let s ← { s with modifiers }.checkInteger
  if .property ∈ s.modifiers then do
    let s ← s.getPropertyType env
    return s.takeFlags hasFlags {.autoGet}
  else if .multicast ∈ s.modifiers ∨ .event ∈ s.modifiers then s.getMulticastType env
  else if .bindable ∈ s.modifiers ∧ s.type ≠ .void then s.getBindableDataType
  else if .reactor ∈ s.modifiers then return s.build .reactor none {.reactor} .class
  else return s

/-- What can go wrong in the loop over the suffixes. -/
inductive LoopError where
  | reported (error : DeclError)
  | stepPastEnd
  | assertion
  | fuel
  deriving DecidableEq

def lift : Calc → Except LoopError State
  | .ok s => .ok s
  | .error error => .error (.reported error)

/-- The loop until the iterator is the end marker, which has `last` suffixes before it and itself. -/
def suffixLoop (env : Env) (last : ℕ) : ℕ → State → Except LoopError State
  | 0, _ => .error .fuel
  | n + 1, s =>
      if s.suffixes.length = last then .ok s
      else
        match s.suffixes with
        | [] => .error .stepPastEnd
        | .array _ :: _ => do
            let s ← lift s.getArrayType
            suffixLoop env last n s
        | .function suffix :: suffixes =>
            if suffix.isGetter ∧ s.type = .function then
              if suffixes = [] then
                suffixLoop env last n
                  ({ s with suffixes }.build .getterOfFunction (some (.function suffix)) ∅ .function)
              else .error .assertion
            else do
              let s ← lift (s.getFunctionType env true)
              suffixLoop env last n s

/-- The flags after the loop. -/
def finalFlags (s : State) (hasFlags : Bool) : State :=
  match s.type with
  | .function => s.takeFlags hasFlags maskThisArgFlags
  | .property => s
  | _ => s.takeFlags hasFlags maskDataPtrFlags

end State

structure Declarator where
  baseType : Ty
  typeModifiers : Modifiers
  pointerPrefixList : List Modifiers
  suffixList : List Suffix
  hasElementCount : Bool
  hasFlags : Bool
  getter_head : ∀ suffix ∈ suffixList.tail, suffix.isGetter = false

namespace Declarator

/-- The first array suffix, where the caller takes its element count. -/
def strip (d : Declarator) (env : Env) : Except DeclError Bool :=
  match d.hasElementCount,d.suffixList with
  | true, .array suffix :: _ =>
      if suffix.hasInitializer then
        if env.parseExpression suffix then .ok true else .error .elementCount
      else .ok suffix.elementCount.isSome
  | _, _ => .ok false

def beforeLoop (d : Declarator) (env : Env) : Calc := do
  let s : State := ⟨d.baseType,d.suffixList.reverse,∅,[]⟩
  let s ← s.pointerPrefixes env d.pointerPrefixList
  s.typeModifiers env d.hasFlags d.typeModifiers

def calcType (d : Declarator) (env : Env) : Except State.LoopError State := do
  let stripped ←
    match d.strip env with
    | .ok stripped => .ok stripped
    | .error error => .error (.reported error)
  let s ← State.lift (d.beforeLoop env)
  let s ← s.suffixLoop env (if stripped then 1 else 0) (s.suffixes.length + 1)
  State.lift (s.finalFlags d.hasFlags).checkUnusedModifiers

end Declarator
end Jancy.Ct.DeclTypeCalc
