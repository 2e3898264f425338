import Mathlib.Order.Lattice
import Jancy.Ct.TypeSignature

/-! Function and property types as the property accessors need them, the struct type of a property
vtable, and the cast kinds of function and property pointers. -/
namespace Jancy.Ct.Properties

variable {κ α : Type}

/-- A type of data up to its signature. The types of `this` arguments are kept apart: `κ` are the
derivable types. -/
inductive Ty (κ α : Type) where
  | thisArg (targetType : κ) (flags : Types.PtrTypeFlags)
  | data (type : α)
  deriving DecidableEq

/-- Ordered from the worst to the best. -/
inductive CastKind where
  | none
  | dynamic
  | explicit
  | implicitLossyFunctionCall
  | implicitCrossFamily
  | implicitCrossConst
  | implicit
  | identity
  deriving DecidableEq, Repr

def CastKind.rank : CastKind → ℕ
  | none => 0
  | dynamic => 1
  | explicit => 2
  | implicitLossyFunctionCall => 3
  | implicitCrossFamily => 4
  | implicitCrossConst => 5
  | implicit => 6
  | identity => 7

theorem CastKind.rank_injective : Function.Injective CastKind.rank := by
  intro a b h
  cases a <;> cases b <;> first | rfl | exact absurd h (by decide)

instance : LinearOrder CastKind := LinearOrder.lift' CastKind.rank CastKind.rank_injective

structure FunctionArg (κ α : Type) where
  type : Ty κ α
  isThis : Bool := false
  hasInitializer : Bool := false
  deriving DecidableEq

structure FunctionType (κ α : Type) where
  callConv : Types.CallConvKind
  returnType : Ty κ α
  args : List (FunctionArg κ α)
  flags : Types.FunctionTypeFlags := {}
  deriving DecidableEq

/-- What the types and the casts of the rest of the compiler give to properties. -/
structure TypeMgr (κ α : Type) where
  abstractClass : κ
  isClass : κ → Bool
  defaultCallConv : Types.CallConvKind
  voidType : α
  boolType : α
  /-- What `StdType_Binder` returns, and `StdType_SimpleMulticast`. -/
  multicastPtr : α
  simpleMulticast : α
  castKind : Ty κ α → Ty κ α → CastKind

namespace FunctionType

/-- What `createSignature` writes of a function type. -/
structure Signature (κ α : Type) where
  isUnsafe : Bool
  isAsync : Bool
  isErrorCode : Bool
  callConv : Types.CallConvKind
  returnType : Ty κ α
  argTypes : List (Ty κ α)
  isVarArg : Bool
  deriving DecidableEq

def signature (f : FunctionType κ α) : Signature κ α where
  isUnsafe := f.flags.unsafe_
  isAsync := f.flags.async
  isErrorCode := f.flags.errorCode || f.flags.asyncErrorCode
  callConv := f.callConv
  returnType := f.returnType
  argTypes := f.args.map (·.type)
  isVarArg := f.flags.varArg

def argSignature (f : FunctionType κ α) : List (Ty κ α) × Bool :=
  (f.args.map (·.type),f.flags.varArg)

def isEqual [DecidableEq κ] [DecidableEq α] (f g : FunctionType κ α) : Bool :=
  f.signature == g.signature

def isMemberMethodType (f : FunctionType κ α) : Bool :=
  match f.args with
  | [] => false
  | arg :: _ => arg.isThis

def getThisTargetType (f : FunctionType κ α) : Option κ :=
  match f.args with
  | ⟨.thisArg targetType _,true,_⟩ :: _ => some targetType
  | _ => none

def getShortType (f : FunctionType κ α) : FunctionType κ α :=
  if f.isMemberMethodType then { f with args := f.args.tail } else f

theorem isEqual_refl [DecidableEq κ] [DecidableEq α] (f : FunctionType κ α) : f.isEqual f = true := by
  simp [isEqual]

theorem isEqual_iff [DecidableEq κ] [DecidableEq α] {f g : FunctionType κ α} :
    f.isEqual g = true ↔ f.signature = g.signature := by
  simp [isEqual]

end FunctionType

namespace TypeMgr

variable [DecidableEq κ] (Γ : TypeMgr κ α)

/-- `std object members are miscellaneous closures`: their `this` is not safe. -/
def getMemberMethodType (parentType : κ) (f : FunctionType κ α) (flags : Types.PtrTypeFlags := {}) :
    FunctionType κ α :=
  let flags := if parentType = Γ.abstractClass then flags else { flags with safe := true }
  { f with args := { type := .thisArg parentType flags, isThis := true } :: f.args }

def getStdObjectMemberMethodType (f : FunctionType κ α) : FunctionType κ α :=
  Γ.getMemberMethodType Γ.abstractClass f

/-- `StdType_Binder`. -/
def binderType : FunctionType κ α where
  callConv := Γ.defaultCallConv
  returnType := .data Γ.multicastPtr
  args := []

/-- `getFunctionType(returnType, NULL, 0)`. -/
def getSimpleGetterType (returnType : Ty κ α) : FunctionType κ α where
  callConv := Γ.defaultCallConv
  returnType := returnType
  args := []

@[simp] theorem getMemberMethodType_isMember (parentType : κ) (f : FunctionType κ α)
    (flags : Types.PtrTypeFlags) : (Γ.getMemberMethodType parentType f flags).isMemberMethodType = true :=
  rfl

@[simp] theorem getMemberMethodType_thisTarget (parentType : κ) (f : FunctionType κ α)
    (flags : Types.PtrTypeFlags) :
    (Γ.getMemberMethodType parentType f flags).getThisTargetType = some parentType :=
  rfl

@[simp] theorem getMemberMethodType_short (parentType : κ) (f : FunctionType κ α)
    (flags : Types.PtrTypeFlags) : (Γ.getMemberMethodType parentType f flags).getShortType = f :=
  rfl

end TypeMgr

/-- Setter overloads in the order they were added; a property type without any is `const`. -/
structure PropertyType (κ α : Type) where
  getterType : FunctionType κ α
  setterType : List (FunctionType κ α)
  isBindable : Bool
  deriving DecidableEq

namespace PropertyType

variable [DecidableEq κ]

/-- The binder type that `getPropertyType` stores in a bindable type. -/
def binderType (Γ : TypeMgr κ α) (T : PropertyType κ α) : FunctionType κ α :=
  match T.getterType.getThisTargetType with
  | some parentType => Γ.getMemberMethodType parentType Γ.binderType { constKind := .const }
  | none => Γ.binderType

def getMemberPropertyType (Γ : TypeMgr κ α) (parentType : κ) (T : PropertyType κ α) :
    PropertyType κ α where
  getterType := Γ.getMemberMethodType parentType T.getterType { constKind := .const }
  setterType := T.setterType.map (Γ.getMemberMethodType parentType ·)
  isBindable := T.isBindable

def getStdObjectMemberPropertyType (Γ : TypeMgr κ α) (T : PropertyType κ α) : PropertyType κ α :=
  T.getMemberPropertyType Γ Γ.abstractClass

/-- The accessors of a property by their roles; setters by their overload. -/
inductive Role where
  | binder
  | getter
  | setter (i : ℕ)
  deriving DecidableEq, Repr

/-- The fields of `getPropertyVtableStructType`: the accessor that belongs into the field, and the
function type of the thin pointer it holds. -/
def getVtableFields (Γ : TypeMgr κ α) (T : PropertyType κ α) : List (Role × FunctionType κ α) :=
  (if T.isBindable then [(.binder,T.binderType Γ)] else []) ++
    (.getter,T.getterType) :: T.setterType.zipIdx.map fun ⟨f,i⟩ => (.setter i,f)

/-- The indices that `getPropertyGetter`, `getPropertySetter` and `getPropertyBinder` access. -/
def vtableIndex (T : PropertyType κ α) : Role → ℕ
  | .binder => 0
  | .getter => if T.isBindable then 1 else 0
  | .setter i => (if T.isBindable then 2 else 1) + i

end PropertyType

/-- The loop of `chooseOverload` and `chooseSetterOverload` over the cast kinds of the overloads
after the first: the best overload so far and its kind, and whether another one is as good. -/
def chooseStep (kinds : List CastKind) (i : ℕ) (best : CastKind) (bestOverload : Option ℕ)
    (isAmbiguous : Bool) : Option ℕ × Bool :=
  match kinds with
  | [] => (bestOverload,isAmbiguous)
  | kind :: kinds =>
    if kind = .none then chooseStep kinds (i + 1) best bestOverload isAmbiguous
    else if best < kind then chooseStep kinds (i + 1) kind (some i) false
    else chooseStep kinds (i + 1) best bestOverload (isAmbiguous || kind == best)

def chooseBest : List CastKind → Option ℕ
  | [] => none
  | kind :: kinds =>
    match chooseStep kinds 1 kind (if kind = .none then none else some 0) false with
    | (bestOverload,false) => bestOverload
    | (_,true) => none

/-- The formal arguments left after `actualArgCount` ones are given: the others must have
initializers. -/
def dropInitialized (args : List (FunctionArg κ α)) (actualArgCount : ℕ) :
    Option (List (FunctionArg κ α)) :=
  if (args.drop actualArgCount).all (·.hasInitializer) then some (args.take actualArgCount) else none

/-- The worst of the cast kinds of the arguments; an argument that cannot be cast ends it. -/
def worstArgCastKind (Γ : TypeMgr κ α) (worst : CastKind) :
    List (FunctionArg κ α) → List (Ty κ α) → CastKind
  | formal :: formals, actual :: actuals =>
    let kind := Γ.castKind actual formal.type
    if kind = .none then .none else worstArgCastKind Γ (min kind worst) formals actuals
  | _, _ => worst

def getArgCastKind (Γ : TypeMgr κ α) (f : FunctionType κ α) (actualArgs : List (Ty κ α))
    (isFunctionPtrCast : Bool) : CastKind :=
  if f.args.length < actualArgs.length then
    let worst :=
      if f.flags.varArg then .identity
      else if isFunctionPtrCast then .implicitLossyFunctionCall else .none
    worstArgCastKind Γ worst f.args actualArgs
  else match dropInitialized f.args actualArgs.length with
    | none => .none
    | some formals => worstArgCastKind Γ .identity formals actualArgs

def getFunctionPtrCastKind [DecidableEq κ] [DecidableEq α] (Γ : TypeMgr κ α) (srcType dstType : FunctionType κ α) : CastKind :=
  let argCastKind := getArgCastKind Γ srcType (dstType.args.map (·.type)) true
  if argCastKind = .none then .none
  else if dstType.returnType = .data Γ.voidType then argCastKind
  else min argCastKind (Γ.castKind srcType.returnType dstType.returnType)

def setterArgCastKinds (Γ : TypeMgr κ α) (overloads : List (FunctionType κ α))
    (dst : FunctionType κ α) : List CastKind :=
  overloads.map fun f => getArgCastKind Γ f (dst.args.map (·.type)) false

/-- `getPropertyPtrCastKind`. A source without setters does not get past `ASSERT(m_type)` of
`chooseOverload`; no cast kind comes out of it. -/
def getPropertyPtrCastKind [DecidableEq κ] [DecidableEq α] (Γ : TypeMgr κ α)
    (srcType dstType : PropertyType κ α) : CastKind :=
  let castKind := getFunctionPtrCastKind Γ srcType.getterType dstType.getterType
  if castKind = .none then .none
  else dstType.setterType.foldl (fun worst dst =>
    let kinds := setterArgCastKinds Γ srcType.setterType dst
    match chooseBest kinds with
    | none => .none
    | some j => min ((kinds[j]?).getD .none) worst) castKind

end Jancy.Ct.Properties
