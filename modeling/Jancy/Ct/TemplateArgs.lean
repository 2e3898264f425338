import Jancy.Ct.TypeSignature

/-! `Template::deduceArgs`: the arguments of a function template from the types of the arguments of a
call. The deduction goes through a declared type and the type of an argument in lock step. -/
namespace Jancy.Ct.TemplateArgs

open Types (PrimitiveKind)

inductive DerivableKind where
  | struct
  | union
  | «class»
  deriving DecidableEq

inductive PtrKind where
  | data
  | «class»
  | function
  | property
  deriving DecidableEq

mutual

/-- The types that the deduction meets. A `templatePtr` is a pointer to a template parameter, whose
kind is open, and a `templateIntMod` an unsigned one. -/
inductive Ty where
  | primitive (kind : PrimitiveKind)
  | array (elementType : Ty) (elementCount : ℕ)
  | enum (name : String) (baseType : Ty)
  | named (kind : DerivableKind) (name : String)
  | instance (kind : DerivableKind) (template : String) (argArray : Tys)
  | function (flags : ℕ) (returnType : Ty) (argArray : Tys)
  | property (signature : String) (getterReturnType : Ty)
  | ptr (kind : PtrKind) (isRef : Bool) (flags : ℕ) (targetType : Ty)
  | templateArg (index : ℕ)
  | templateTypeName (name : String)
  | templatePtr (baseType : Ty) (typeModifiers : ℕ)
  | templateIntMod (baseType : Ty)

inductive Tys where
  | nil
  | cons (type : Ty) (rest : Tys)

end

deriving instance DecidableEq for Ty, Tys

def Tys.length : Tys → ℕ
  | .nil => 0
  | .cons _ rest => rest.length + 1

def primitiveTypeKind : PrimitiveKind → ℕ
  | .void => 0
  | .variant => 1
  | .string => 2
  | .bool1 => 3
  | .bool8 => 4
  | .int8 => 5
  | .int8_u => 6
  | .int16 => 7
  | .int16_u => 8
  | .int32 => 9
  | .int32_u => 10
  | .int64 => 11
  | .int64_u => 12
  | .float => 13
  | .double => 14

def Ty.typeKind : Ty → ℕ
  | .primitive kind => primitiveTypeKind kind
  | .array _ _ => 15
  | .enum _ _ => 16
  | .named .struct _ | .instance .struct _ _ => 17
  | .named .union _ | .instance .union _ _ => 18
  | .named .class _ | .instance .class _ _ => 19
  | .function _ _ _ => 20
  | .property _ _ => 21
  | .ptr .data isRef _ _ => 22 + isRef.toNat
  | .ptr .class isRef _ _ => 24 + isRef.toNat
  | .ptr .function isRef _ _ => 26 + isRef.toNat
  | .ptr .property isRef _ _ => 28 + isRef.toNat
  | .templateArg _ => 33
  | .templateTypeName _ => 34
  | .templatePtr _ _ => 35
  | .templateIntMod _ => 36

/-- The table of the promotions. -/
def arithmeticKind : PrimitiveKind → Option PrimitiveKind
  | .void | .variant | .string => none
  | .bool1 | .bool8 | .int8 | .int8_u | .int16 | .int16_u | .int32 => some .int32
  | .int32_u => some .int32_u
  | .int64 => some .int64
  | .int64_u => some .int64_u
  | .float => some .float
  | .double => some .double

def getArithmeticOperatorResultType : Ty → Option Ty
  | .primitive kind => (arithmeticKind kind).map .primitive
  | .enum _ baseType => getArithmeticOperatorResultType baseType
  | _ => none

/-- Of two types, the one with the larger kind decides. -/
def getArithmeticOperatorResultType₂ (opType1 opType2 : Ty) : Option Ty :=
  getArithmeticOperatorResultType (if opType1.typeKind > opType2.typeKind then opType1 else opType2)

def selectTemplateArg (type1 type2 : Ty) : Option Ty :=
  if type1 = type2 then some type1 else getArithmeticOperatorResultType₂ type1 type2

/-- `TypeKindFlag_Integer`, which booleans and enums have too. -/
def Ty.isInteger : Ty → Bool
  | .primitive kind => 3 ≤ primitiveTypeKind kind && primitiveTypeKind kind ≤ 12
  | .enum _ _ => true
  | _ => false

def getSignedIntegerKind : PrimitiveKind → PrimitiveKind
  | .int8_u => .int8
  | .int16_u => .int16
  | .int32_u => .int32
  | .int64_u => .int64
  | kind => kind

/-- The type that an unsigned template parameter is to be. -/
def intModReferenceType (type : Ty) : Option Ty :=
  if type.isInteger then
    match type with
    | .primitive kind => some (.primitive (getSignedIntegerKind kind))
    | _ => some type
  else none

/-- The target of a data pointer, or the elements of an array behind a reference. -/
def dataPtrTarget : Ty → Option Ty
  | .ptr .data true _ (.array elementType _) => some elementType
  | .ptr .data false _ targetType => some targetType
  | _ => none

/-- The target that the pointer type finds in the type of an argument. -/
def ptrTarget (kind : PtrKind) (type : Ty) : Option Ty :=
  match kind with
  | .data => dataPtrTarget type
  | kind =>
      match type with
      | .ptr kind' false _ targetType => if kind' = kind then some targetType else none
      | _ => none

def templatePtrTarget (type : Ty) : Option Ty :=
  match dataPtrTarget type with
  | some targetType => some targetType
  | none =>
      match type with
      | .ptr .class false _ targetType => some targetType
      | .ptr .function false _ targetType => some targetType
      | .ptr .property false _ targetType => some targetType
      | _ => none

def instanceArgs (kind : DerivableKind) (template : String) : Ty → Option Tys
  | .instance kind' template' argArray =>
      if kind' = kind ∧ template' = template then some argArray else none
  | _ => none

/-- `templateArgTypeArray`. -/
abbrev Slots := List (Option Ty)

/-- What a slot has after one more type for it. -/
def join : Option Ty → Ty → Option Ty
  | none, type => some type
  | some type1, type2 => selectTemplateArg type1 type2

mutual

/-- `deduceTemplateArgs`. The slots may have changed where the result is `false`. -/
def deduceTemplateArgs : Ty → Slots → Ty → Bool × Slots
  | .templateArg index, slots, type =>
      match slots[index]? with
      | none => (false,slots)
      | some slot =>
          match join slot type with
          | none => (false,slots)
          | some actualType => (true,slots.set index (some actualType))
  | .templateTypeName _, slots, _ => (false,slots)
  | .templatePtr baseType _, slots, type =>
      match templatePtrTarget type with
      | none => (false,slots)
      | some targetType => deduceTemplateArgs baseType slots targetType
  | .templateIntMod baseType, slots, type =>
      match intModReferenceType type with
      | none => (false,slots)
      | some referenceType => deduceTemplateArgs baseType slots referenceType
  | .ptr kind _ _ targetType, slots, type =>
      match ptrTarget kind type with
      | none => (false,slots)
      | some referenceTarget => deduceTemplateArgs targetType slots referenceTarget
  | .function _ returnType argArray, slots, type =>
      match type with
      | .function _ returnType' argArray' =>
          let r := deduceTemplateArgs returnType slots returnType'
          let r' := deduceArgArray argArray r.2 argArray'
          (r.1 && r'.1 && decide (argArray.length = argArray'.length),r'.2)
      | _ => (false,slots)
  | .property _ getterReturnType, slots, type =>
      match type with
      | .property _ getterReturnType' => deduceTemplateArgs getterReturnType slots getterReturnType'
      | _ => (false,slots)
  | .instance kind template argArray, slots, type =>
      match instanceArgs kind template type with
      | none => (false,slots)
      | some argArray' => (true,(deduceArgArray argArray slots argArray').2)
  | .primitive _, slots, _ | .array _ _, slots, _ | .enum _ _, slots, _ | .named _ _, slots, _ =>
      (true,slots)

/-- The loop over two arrays, as long as the shorter one. -/
def deduceArgArray : Tys → Slots → Tys → Bool × Slots
  | .cons type rest, slots, .cons type' rest' =>
      let r := deduceTemplateArgs type slots type'
      let r' := deduceArgArray rest r.2 rest'
      (r.1 && r'.1,r'.2)
  | _, slots, _ => (true,slots)

end

/-- `declType` is the deduction type. -/
structure Template where
  argCount : ℕ
  declType : Option Ty

inductive DeduceError where
  | declType
  | notFunction
  | argCount
  | cannotDeduce (index : ℕ)
  | mismatch
  deriving DecidableEq

/-- The slots with the types that the call gives. -/
def explicitSlots (argCount : ℕ) (argTypeArray : List (Option Ty)) : Slots :=
  (List.range argCount).map fun i => argTypeArray[i]?.join

section DeduceArgs

variable {ν : Type} (prepareOperandType : ν → Option Ty)

/-- The loop over the arguments of the call. -/
def deduceArgValues : Tys → Slots → List ν → Bool × Slots
  | .cons type rest, slots, value :: values =>
      let r :=
        match prepareOperandType value with
        | none => (false,slots)
        | some argType => deduceTemplateArgs type slots argType
      let r' := deduceArgValues rest r.2 values
      (r.1 && r'.1,r'.2)
  | _, slots, _ => (true,slots)

/-- The index of the first template parameter without a type. -/
def firstMissing (slots : Slots) : Option ℕ := slots.findIdx? Option.isNone

def Template.deduceArgs (t : Template) (argTypeArray : List (Option Ty)) (argValueList : List ν) :
    Except DeduceError (List Ty) :=
  match t.declType with
  | none => .error .declType
  | some (.function _ _ argArray) =>
      if argArray.length ≠ argValueList.length then .error .argCount
      else
        let r := deduceArgValues prepareOperandType argArray (explicitSlots t.argCount argTypeArray)
          argValueList
        match firstMissing r.2 with
        | some index => .error (.cannotDeduce index)
        | none => if r.1 then .ok (r.2.filterMap id) else .error .mismatch
  | some _ => .error .notFunction

end DeduceArgs
end Jancy.Ct.TemplateArgs
