import Jancy.Lib.Keyed
import Jancy.Ct.TypeSignature

/-! The direct thunks of `FunctionMgr`, which are cached by a printed key, and the call that
`ThunkFunction::compile` makes of each. -/
namespace Jancy.Ct.Thunks

open Types

/-- Whether each argument is a this argument, and its type. -/
def argList : ArgTys → List (Bool × Ty)
  | .nil => []
  | .cons isThis type rest => (isThis,type) :: argList rest

def argArray : FunctionTy → List (Bool × Ty)
  | .mk _ _ _ _ argArray _ => argList argArray

def returnType : FunctionTy → Ty
  | .mk _ _ returnType _ _ _ => returnType

def callConv : FunctionTy → CallConvKind
  | .mk _ callConv _ _ _ _ => callConv

/-- `CallConvFlag_Cdecl`. -/
def isCdecl : CallConvKind → Bool
  | .cdecl_msc32 | .cdecl_msc64 | .cdecl_gcc32 | .cdecl_gcc64 | .cdecl_arm32 | .cdecl_arm64 => true
  | _ => false

def getterType : PropertyTy → FunctionTy
  | .mk _ _ getterType _ => getterType

def setterTys : PropertyTy → SetterTys
  | .mk _ _ _ setterType => setterType

/-- `StdType_AbstractClassPtr`. -/
def abstractClassPtr : Ty :=
  .classPtr false .normal {} ⟨['j','n','c','.','A','b','s','t','r','a','c','t','C','l','a','s','s'],
    by decide⟩

/-- The this argument comes before the others; an async type returns its promise in either form. -/
def stdObjectMemberMethodType : FunctionTy → FunctionTy
  | .mk flags callConv returnType asyncReturnType argArray serial =>
    .mk flags callConv returnType asyncReturnType (.cons true abstractClassPtr argArray) serial

/-- A function of the module; a thunk is one as well, when it is the target of another thunk. -/
structure FunctionItem where
  address : BitVec 64
  type : FunctionTy
  isVirtual : Bool
  /-- the arguments that have a default value, which can be compiled -/
  hasInitializer : ℕ → Bool

structure PropertyItem where
  address : BitVec 64
  type : PropertyTy
  getter : ℕ
  hasSetter : Bool
  chooseSetterOverload : FunctionTy → Option ℕ

/-- The items by their numbers; `castOperator` tells whether a value of the first type is cast to
the second. -/
structure ThunkModule where
  function : ℕ → FunctionItem
  property : ℕ → PropertyItem
  variableAddress : ℕ → BitVec 64
  castOperator : Ty → Ty → Bool

structure ThunkFunction where
  targetFunction : ℕ
  type : FunctionTy

/-- The call of a thunk: each argument is an argument of the thunk, by its number, cast to a type. -/
structure ThunkCall where
  function : ℕ
  args : List (ℕ × Ty)
  deriving DecidableEq

def takesThis : List (Bool × Ty) → Bool
  | [] => false
  | (isThis,_) :: _ => isThis

/-- The loop over the arguments from `j` on. -/
def castArgs (m : ThunkModule) : ℕ → List (Bool × Ty) → List (Bool × Ty) → Option (List (ℕ × Ty))
  | j,arg :: args,targetArg :: targetArgs =>
      if m.castOperator arg.2 targetArg.2 then
        (castArgs m (j + 1) args targetArgs).map ((j,targetArg.2) :: ·)
      else none
  | _,_,_ => some []

/-- `callOperator` for a function without a closure: a virtual one needs an object, an unsafe one an
unsafe region, and every argument that is not given a default value. -/
def FunctionItem.callOperator (function : FunctionItem) (argCount : ℕ) : Bool :=
  !function.isVirtual && !function.type.flags.unsafe_ &&
    (List.range (argArray function.type).length).all
      (fun i => decide (i < argCount) || function.hasInitializer i) &&
    (!function.type.flags.varArg || isCdecl (callConv function.type))

/-- `ret` of what a call has returned, if anything. -/
def canReturn (m : ThunkModule) (targetType thunkType : FunctionTy) : Bool :=
  decide (returnType targetType ≠ .primitive .void) &&
    m.castOperator (returnType targetType) (returnType thunkType)

def ThunkFunction.compile (m : ThunkModule) (thunk : ThunkFunction) : Option (Option ThunkCall) :=
  let args := argArray thunk.type
  let target := m.function thunk.targetFunction
  let targetArgs := argArray target.type
  -- skip the closure argument
  let j := if takesThis args && !takesThis targetArgs then 1 else 0
  -- trim unused arguments
  let argCount := if args.length > j + targetArgs.length then j + targetArgs.length
    else args.length
  match castArgs m j ((args.take argCount).drop j) targetArgs with
  | none => none
  | some values =>
      let result := target.callOperator values.length
      let call := if result then some ⟨thunk.targetFunction,values⟩ else none
      if returnType thunk.type = .primitive .void then some call
      else if result && canReturn m target.type thunk.type then some call
      else none

/-- What `%x` prints of a pointer: it is read as an `unsigned int`. -/
def formatHex (address : BitVec 64) : List Char :=
  Nat.toDigits 16 (address.setWidth 32).toNat

/-- `"%c%x.%s"`. -/
def thunkSignature (hasUnusedClosure : Bool) (address : BitVec 64) (signature : List Char) :
    List Char :=
  (if hasUnusedClosure then 'U' else 'D') :: (formatHex address ++ '.' :: signature)

structure FunctionRequest where
  targetFunction : ℕ
  thunkFunctionType : FunctionTy
  hasUnusedClosure : Bool

inductive PropertyTarget where
  | property (p : ℕ)
  | data (v : ℕ)
  deriving DecidableEq

structure PropertyRequest where
  target : PropertyTarget
  thunkPropertyType : PropertyTy
  hasUnusedClosure : Bool

/-- The target itself, or a thunk by its number. -/
inductive ThunkResult where
  | target
  | thunk (i : ℕ)
  deriving DecidableEq

structure ThunkProperty where
  target : PropertyTarget
  /-- the getter and the setters -/
  accessors : List ThunkResult

/-- The caches, and everything that has been asked for with what was returned. -/
structure FunctionMgr where
  thunkFunctionMap : List (List Char × ThunkFunction)
  thunkPropertyMap : List (List Char × ThunkProperty)
  functionLog : List (FunctionRequest × ThunkResult)
  propertyLog : List (PropertyRequest × ThunkResult)

namespace FunctionRequest

def type (r : FunctionRequest) : FunctionTy :=
  if r.hasUnusedClosure then stdObjectMemberMethodType r.thunkFunctionType
  else r.thunkFunctionType

def isDirect (m : ThunkModule) (r : FunctionRequest) : Bool :=
  !r.hasUnusedClosure &&
    decide ((m.function r.targetFunction).type.signature = r.thunkFunctionType.signature)

def key (m : ThunkModule) (r : FunctionRequest) : List Char :=
  thunkSignature r.hasUnusedClosure (m.function r.targetFunction).address r.type.signature

def thunk (r : FunctionRequest) : ThunkFunction := ⟨r.targetFunction,r.type⟩

end FunctionRequest

namespace PropertyRequest

def isDirect (m : ThunkModule) (r : PropertyRequest) : Bool :=
  match r.target with
  | .property p => !r.hasUnusedClosure &&
      decide ((m.property p).type.signature = r.thunkPropertyType.signature)
  | .data _ => false

def address (m : ThunkModule) (r : PropertyRequest) : BitVec 64 :=
  match r.target with
  | .property p => (m.property p).address
  | .data v => m.variableAddress v

def key (m : ThunkModule) (r : PropertyRequest) : List Char :=
  thunkSignature r.hasUnusedClosure (r.address m) r.thunkPropertyType.signature

def setterRequests (hasUnusedClosure : Bool) (chooseSetterOverload : FunctionTy → Option ℕ) :
    SetterTys → List FunctionRequest
  | .nil => []
  | .cons type rest =>
      match chooseSetterOverload type with
      | none => []
      | some overload =>
          ⟨overload,type,hasUnusedClosure⟩ ::
            setterRequests hasUnusedClosure chooseSetterOverload rest

/-- `ThunkProperty::create`; the accessors of a variable are no thunks. -/
def accessorRequests (m : ThunkModule) (r : PropertyRequest) : List FunctionRequest :=
  match r.target with
  | .data _ => []
  | .property p =>
      ⟨(m.property p).getter,getterType r.thunkPropertyType,r.hasUnusedClosure⟩ ::
        if (m.property p).hasSetter then
          setterRequests r.hasUnusedClosure (m.property p).chooseSetterOverload
            (setterTys r.thunkPropertyType)
        else []

end PropertyRequest

namespace FunctionMgr

def initial : FunctionMgr := ⟨[],[],[],[]⟩

def getDirectThunkFunction (m : ThunkModule) (s : FunctionMgr) (r : FunctionRequest) :
    ThunkResult × FunctionMgr :=
  if r.isDirect m then (.target,{ s with functionLog := s.functionLog ++ [(r,.target)] })
  else
    match Keyed.find s.thunkFunctionMap (r.key m) with
    | some i => (.thunk i,{ s with functionLog := s.functionLog ++ [(r,.thunk i)] })
    | none =>
        let i := s.thunkFunctionMap.length
        (.thunk i,{ s with
          thunkFunctionMap := s.thunkFunctionMap ++ [(r.key m,r.thunk)]
          functionLog := s.functionLog ++ [(r,.thunk i)] })

def getAccessors (m : ThunkModule) (s : FunctionMgr) :
    List FunctionRequest → List ThunkResult × FunctionMgr
  | [] => ([],s)
  | r :: rest =>
      let accessor := s.getDirectThunkFunction m r
      let accessors := accessor.2.getAccessors m rest
      (accessor.1 :: accessors.1,accessors.2)

/-- `getDirectThunkProperty` and `getDirectDataThunkProperty`. -/
def getDirectThunkProperty (m : ThunkModule) (s : FunctionMgr) (r : PropertyRequest) :
    ThunkResult × FunctionMgr :=
  if r.isDirect m then (.target,{ s with propertyLog := s.propertyLog ++ [(r,.target)] })
  else
    match Keyed.find s.thunkPropertyMap (r.key m) with
    | some i => (.thunk i,{ s with propertyLog := s.propertyLog ++ [(r,.thunk i)] })
    | none =>
        let i := s.thunkPropertyMap.length
        let accessors := s.getAccessors m (r.accessorRequests m)
        (.thunk i,{ accessors.2 with
          thunkPropertyMap := s.thunkPropertyMap ++ [(r.key m,⟨r.target,accessors.1⟩)]
          propertyLog := s.propertyLog ++ [(r,.thunk i)] })

end FunctionMgr

inductive ThunkRequest where
  | function (request : FunctionRequest)
  | property (request : PropertyRequest)

namespace FunctionMgr

def request (m : ThunkModule) (s : FunctionMgr) : ThunkRequest → FunctionMgr
  | .function r => (s.getDirectThunkFunction m r).2
  | .property r => (s.getDirectThunkProperty m r).2

def run (m : ThunkModule) (s : FunctionMgr) (requests : List ThunkRequest) : FunctionMgr :=
  requests.foldl (request m) s

end FunctionMgr

/-- The target, the signature and the flag agree. -/
def FunctionRequest.Same (r r' : FunctionRequest) : Prop :=
  r.targetFunction = r'.targetFunction ∧
    r.thunkFunctionType.signature = r'.thunkFunctionType.signature ∧
    r.hasUnusedClosure = r'.hasUnusedClosure

def PropertyRequest.Same (r r' : PropertyRequest) : Prop :=
  r.target = r'.target ∧ r.thunkPropertyType.signature = r'.thunkPropertyType.signature ∧
    r.hasUnusedClosure = r'.hasUnusedClosure

namespace ThunkFunction

/-- The closure argument comes first, and is not passed to a target that does not take it. -/
def closureCount (m : ThunkModule) (thunk : ThunkFunction) : ℕ :=
  if takesThis (argArray thunk.type) = true ∧
    takesThis (argArray (m.function thunk.targetFunction).type) = false then 1 else 0

/-- The parameters of the target that get an argument, with the numbers of these; surplus arguments
at the end are dropped. -/
def passed (m : ThunkModule) (thunk : ThunkFunction) : List (ℕ × Ty) :=
  (((argArray (m.function thunk.targetFunction).type).take
    ((argArray thunk.type).length - thunk.closureCount m)).zipIdx (thunk.closureCount m)).map
      fun arg => (arg.2,arg.1.2)

/-- Each argument that is passed can be cast. -/
def CanCast (m : ThunkModule) (thunk : ThunkFunction) : Prop :=
  ∀ args ∈ ((argArray thunk.type).drop (thunk.closureCount m)).zip
    (argArray (m.function thunk.targetFunction).type), m.castOperator args.1.2 args.2.2 = true

def CanCall (m : ThunkModule) (thunk : ThunkFunction) : Prop :=
  (m.function thunk.targetFunction).callOperator (thunk.passed m).length = true

def Callable (m : ThunkModule) (thunk : ThunkFunction) : Prop :=
  thunk.CanCast m ∧ thunk.CanCall m ∧ (returnType thunk.type = .primitive .void ∨
    canReturn m (m.function thunk.targetFunction).type thunk.type = true)

end ThunkFunction

namespace ThunkFunction

def Compiles (m : ThunkModule) (thunk : ThunkFunction) : Prop :=
  (thunk.Callable m → thunk.compile m = some (some ⟨thunk.targetFunction,thunk.passed m⟩)) ∧
    (¬thunk.Callable m → thunk.compile m = none)

end ThunkFunction

namespace FunctionMgr

structure Exact (m : ThunkModule) (s : FunctionMgr) : Prop where
  functions : ∀ r r' i, (r,.thunk i) ∈ s.functionLog → (r',.thunk i) ∈ s.functionLog → r.Same r'
  properties : ∀ r r' i, (r,.thunk i) ∈ s.propertyLog → (r',.thunk i) ∈ s.propertyLog → r.Same r'
  calls : ∀ r i, (r,.thunk i) ∈ s.functionLog → ∃ key thunk,
    s.thunkFunctionMap[i]? = some (key,thunk) ∧ thunk.targetFunction = r.targetFunction ∧
      thunk.type.signature = r.type.signature ∧ thunk.Compiles m
  accessors : ∀ r i, (r,.thunk i) ∈ s.propertyLog → ∃ key thunk, ∃ r' : PropertyRequest,
    s.thunkPropertyMap[i]? = some (key,thunk) ∧ thunk.target = r.target ∧ r'.Same r ∧
      (r'.accessorRequests m).length = thunk.accessors.length ∧
      ∀ accessor ∈ (r'.accessorRequests m).zip thunk.accessors, accessor ∈ s.functionLog

end FunctionMgr

instance (r r' : PropertyRequest) : Decidable (r.Same r') :=
  inferInstanceAs (Decidable (_ ∧ _ ∧ _))

/-- The function requests of a sequence, after the property requests of `earlier`: those for the
accessors of a thunk property are made at the first of the same requests. -/
def made (m : ThunkModule) : List PropertyRequest → List ThunkRequest → List FunctionRequest
  | _,[] => []
  | earlier,.function r :: rest => r :: made m earlier rest
  | earlier,.property r :: rest =>
      (if r.isDirect m = true ∨ ∃ r' ∈ earlier, r'.Same r then [] else r.accessorRequests m) ++
        made m (r :: earlier) rest

def properties : List ThunkRequest → List PropertyRequest
  | [] => []
  | .function _ :: rest => properties rest
  | .property r :: rest => r :: properties rest

/-- The addresses of two functions differ in their low 32 bits, where the rest of the requests
agrees. -/
def FunctionRequest.Apart (m : ThunkModule) (r r' : FunctionRequest) : Prop :=
  r.thunkFunctionType.signature = r'.thunkFunctionType.signature →
    r.hasUnusedClosure = r'.hasUnusedClosure → r.targetFunction ≠ r'.targetFunction →
      (m.function r.targetFunction).address.setWidth 32 ≠
        (m.function r'.targetFunction).address.setWidth 32

/-- The same of two properties or variables. -/
def PropertyRequest.Apart (m : ThunkModule) (r r' : PropertyRequest) : Prop :=
  r.thunkPropertyType.signature = r'.thunkPropertyType.signature →
    r.hasUnusedClosure = r'.hasUnusedClosure → r.target ≠ r'.target →
      (r.address m).setWidth 32 ≠ (r'.address m).setWidth 32

/-- A thunk that returns nothing has a target that can be called, once the arguments are cast. -/
def FunctionRequest.VoidOk (m : ThunkModule) (r : FunctionRequest) : Prop :=
  returnType r.type = .primitive .void → r.thunk.CanCast m → r.thunk.CanCall m

/-- The condition on a sequence of requests; the first of the same requests makes the thunk. -/
structure Sound (m : ThunkModule) (requests : List ThunkRequest) : Prop where
  functions : ∀ r ∈ made m [] requests, ∀ r' ∈ made m [] requests, r.isDirect m = false →
    r'.isDirect m = false → r.Apart m r'
  properties : ∀ r ∈ properties requests, ∀ r' ∈ properties requests, r.isDirect m = false →
    r'.isDirect m = false → r.Apart m r'
  calls : ∀ before r after, made m [] requests = before ++ r :: after → r.isDirect m = false →
    (∀ r' ∈ before, ¬r'.Same r) → r.VoidOk m

end Jancy.Ct.Thunks
