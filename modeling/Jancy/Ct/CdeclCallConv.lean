import Mathlib.Data.List.Basic

/-! The calling convention for gcc on 64 bits: how arguments and results are classified, passed and
read back. -/
namespace Jancy.Ct.CdeclCallConv

/-- The parts of a type that the calling convention reads. -/
structure CType where
  id : ℕ
  size : ℕ
  isStructRet : Bool
  deriving DecidableEq

/-- Some bytes of a value may be undefined. -/
abbrev Bytes := List (Option UInt8)

/-- The memory of the source type is read as the destination type; a smaller value is put in front
of undefined bytes. -/
def forceCast (bytes : Bytes) (dstSize : ℕ) : Bytes :=
  if dstSize ≤ bytes.length then bytes.take dstSize
  else bytes ++ List.replicate (dstSize - bytes.length) none

theorem forceCast_length (bytes : Bytes) (dstSize : ℕ) :
    (forceCast bytes dstSize).length = dstSize := by
  rw [forceCast]
  split
  case isTrue hle => exact List.length_take_of_le hle
  case isFalse hlt =>
    rw [List.length_append,List.length_replicate]
    omega

@[ext] structure ArgValue where
  type : CType
  bytes : Bytes
  length_eq : bytes.length = type.size

def ArgValue.load (bytes : Bytes) (type : CType) : ArgValue :=
  ⟨type,forceCast bytes type.size,forceCast_length bytes type.size⟩

inductive CoerceType where
  | int64
  | int64Int64
  deriving DecidableEq

def CoerceType.size : CoerceType → ℕ
  | int64 => 8
  | int64Int64 => 16

def getArgCoerceType (type : CType) : CoerceType :=
  if type.size ≤ 8 then .int64 else .int64Int64

structure FunctionArg where
  type : CType
  isNamed : Bool

/-- The first argument of a member is its this argument. -/
structure FunctionType where
  returnType : CType
  argArray : List FunctionArg
  isVarArg : Bool
  isMember : Bool
  hasThisArg : isMember = true → argArray ≠ []

namespace FunctionType

def argTypes (functionType : FunctionType) : List CType :=
  functionType.argArray.map (·.type)

def returnsInMemory (functionType : FunctionType) : Bool :=
  functionType.returnType.isStructRet && decide (16 < functionType.returnType.size)

end FunctionType

inductive ArgFlag where
  | none
  | byVal
  | coerced
  deriving DecidableEq

inductive LlvmType where
  | void
  | plain (type : CType)
  | ptr (type : CType)
  | coerced (type : CoerceType)
  deriving DecidableEq

/-- The loop over the arguments in `prepareFunctionType`. -/
def prepareLoop : ℕ → List CType → List (LlvmType × ArgFlag)
  | _,[] => []
  | argRegCount,type :: types =>
    let regCount := if 8 < type.size then 2 else 1
    if !type.isStructRet then (.plain type,.none) :: prepareLoop (argRegCount - 1) types
    else if 16 < type.size ∨ argRegCount < regCount then
      (.ptr type,.byVal) :: prepareLoop argRegCount types
    else
      (.coerced (getArgCoerceType type),.coerced) :: prepareLoop (argRegCount - regCount) types

structure PreparedType where
  llvmReturnType : LlvmType
  llvmArgTypeArray : List LlvmType
  argFlagArray : List ArgFlag

namespace PreparedType

def byValArgs (prepared : PreparedType) : Bool := prepared.argFlagArray.contains .byVal

def coercedArgs (prepared : PreparedType) : Bool := prepared.argFlagArray.contains .coerced

end PreparedType

/-- A result in memory takes the first argument and its register. -/
def prepareFunctionType (functionType : FunctionType) : PreparedType :=
  let returnType := functionType.returnType
  if functionType.returnsInMemory then
    let args := prepareLoop 5 functionType.argTypes
    ⟨.void,.ptr returnType :: args.map (·.1),args.map (·.2)⟩
  else
    let args := prepareLoop 6 functionType.argTypes
    ⟨if returnType.isStructRet then .coerced (getArgCoerceType returnType) else .plain returnType,
      args.map (·.1),args.map (·.2)⟩

inductive LlvmAttribute where
  | structRet (type : CType)
  | byVal (type : CType)
  deriving DecidableEq

/-- Attributes by the number of the argument; the result has the number zero. -/
abbrev Attributes := List (ℕ × LlvmAttribute)

/-- The loop over the arguments in `createLlvmFunction`. -/
def byValLoop : ℕ → List CType → List ArgFlag → Attributes
  | j,type :: types,.byVal :: flags => (j,.byVal type) :: byValLoop (j + 1) types flags
  | j,_ :: types,_ :: flags => byValLoop (j + 1) types flags
  | _,_,_ => []

def createLlvmFunction (functionType : FunctionType) : Attributes :=
  let prepared := prepareFunctionType functionType
  let structRet : Attributes :=
    if functionType.returnsInMemory then [(1,.structRet functionType.returnType)] else []
  let j := if functionType.returnsInMemory then 2 else 1
  structRet ++
    if prepared.byValArgs then byValLoop j functionType.argTypes prepared.argFlagArray else []

/-- The arguments of a call instruction; a slot is a pointer to a fresh stack variable, with what was
stored there. -/
inductive LlvmValue where
  | plain (value : ArgValue)
  | coerced (type : CoerceType) (bytes : Bytes)
  | slot (type : CType) (content : Option ArgValue)

def LlvmValue.llvmType : LlvmValue → LlvmType
  | plain value => .plain value.type
  | coerced type _ => .coerced type
  | slot type _ => .ptr type

structure CallInst where
  args : List LlvmValue
  attributes : Attributes

/-- The loop over the arguments in `call`, which classifies them again. -/
def callLoop : ℕ → ℕ → List ArgValue → List LlvmValue × Attributes
  | _,_,[] => ([],[])
  | argRegCount,byValIdx,value :: values =>
    if !value.type.isStructRet then
      let rest := callLoop (argRegCount - 1) (byValIdx + 1) values
      (.plain value :: rest.1,rest.2)
    else
      let regCount := if 8 < value.type.size then 2 else 1
      if 16 < value.type.size ∨ argRegCount < regCount then
        let rest := callLoop argRegCount (byValIdx + 1) values
        (.slot value.type (some value) :: rest.1,(byValIdx,.byVal value.type) :: rest.2)
      else
        let coerceType := getArgCoerceType value.type
        let rest := callLoop (argRegCount - regCount) (byValIdx + 1) values
        (.coerced coerceType (forceCast value.bytes coerceType.size) :: rest.1,rest.2)

def call (functionType : FunctionType) (argValueList : List ArgValue) : CallInst :=
  let returnType := functionType.returnType
  let prepared := prepareFunctionType functionType
  if !returnType.isStructRet &&
      !(functionType.isVarArg || prepared.byValArgs || prepared.coercedArgs) then
    ⟨argValueList.map .plain,[]⟩
  else if functionType.returnsInMemory then
    let loop := callLoop 5 2 argValueList
    ⟨.slot returnType none :: loop.1,loop.2 ++ [(1,.structRet returnType)]⟩
  else
    let loop := callLoop 6 1 argValueList
    ⟨loop.1,loop.2⟩

def attributeAt (attributes : Attributes) (i : ℕ) : Option LlvmAttribute :=
  (attributes.find? (·.1 = i)).map (·.2)

/-- The callee gets its arguments if they have the types of its parameters and the attributes of the
call are those of the function; only a variadic function can get more of them. -/
def enter (functionType : FunctionType) (inst : CallInst) : Option (List LlvmValue) :=
  let llvmArgTypeArray := (prepareFunctionType functionType).llvmArgTypeArray
  let count := llvmArgTypeArray.length
  if (inst.args.take count).map (·.llvmType) = llvmArgTypeArray ∧
      (inst.args.length = count ∨ functionType.isVarArg = true) ∧
      ∀ i < count, attributeAt inst.attributes (i + 1) =
        attributeAt (createLlvmFunction functionType) (i + 1) then
    some (inst.args.take count)
  else none

/-- A value is read as its flag says; without a result if it was passed in another way. -/
def getArgValue (functionType : FunctionType) (llvmValue : Option LlvmValue) (argIdx : ℕ) :
    Option ArgValue := do
  let arg ← functionType.argArray[argIdx]?
  let flag ← (prepareFunctionType functionType).argFlagArray[argIdx]?
  match flag,llvmValue with
  | .byVal,some (.slot _ (some content)) => some (.load content.bytes arg.type)
  | .coerced,some (.coerced _ bytes) => some (.load bytes arg.type)
  | .none,some (.plain value) => some (.load value.bytes arg.type)
  | _,_ => none

/-- The number of the first argument that is not the hidden one for the result. -/
def baseLlvmArgIdx (functionType : FunctionType) : ℕ :=
  if functionType.returnsInMemory then 1 else 0

def getThisArgValue (functionType : FunctionType) (llvmArgs : List LlvmValue) : Option ArgValue :=
  getArgValue functionType llvmArgs[baseLlvmArgIdx functionType]? 0

def getArgValueArray (functionType : FunctionType) (llvmArgs : List LlvmValue) (count : ℕ) :
    Option (List ArgValue) :=
  (List.range count).mapM fun i =>
    getArgValue functionType llvmArgs[baseLlvmArgIdx functionType + i]? i

def createArgVariablesLoop (functionType : FunctionType) (llvmArgs : List LlvmValue) :
    ℕ → ℕ → List FunctionArg → Option (List (ℕ × ArgValue))
  | _,_,[] => some []
  | i,llvmArg,arg :: args =>
    if !arg.isNamed then createArgVariablesLoop functionType llvmArgs (i + 1) (llvmArg + 1) args
    else do
      let argValue ← getArgValue functionType llvmArgs[llvmArg]? i
      let rest ← createArgVariablesLoop functionType llvmArgs (i + 1) (llvmArg + 1) args
      return (i,argValue) :: rest

def createArgVariables (functionType : FunctionType) (llvmArgs : List LlvmValue) :
    Option (List (ℕ × ArgValue)) :=
  let base := baseLlvmArgIdx functionType
  if functionType.isMember then
    createArgVariablesLoop functionType llvmArgs 1 (base + 1) (functionType.argArray.drop 1)
  else createArgVariablesLoop functionType llvmArgs 0 base functionType.argArray

/-- What a callee returns; `stored` returns nothing and stores to its first argument. -/
inductive LlvmReturn where
  | plain (value : ArgValue)
  | coerced (type : CoerceType) (bytes : Bytes)
  | stored (value : ArgValue)

def ret (functionType : FunctionType) (llvmArgs : List LlvmValue) (value : ArgValue) :
    Option LlvmReturn :=
  let returnType := functionType.returnType
  if !returnType.isStructRet then some (.plain value)
  else if 16 < returnType.size then
    match llvmArgs.head? with
    | some (.slot _ _) => some (.stored value)
    | _ => none
  else
    let coerceType := getArgCoerceType returnType
    some (.coerced coerceType (forceCast value.bytes coerceType.size))

/-- What the caller makes of it. -/
def result (functionType : FunctionType) (returned : LlvmReturn) : Option ArgValue :=
  let returnType := functionType.returnType
  if !returnType.isStructRet then
    match returned with
    | .plain value => some (.load value.bytes returnType)
    | _ => none
  else if 16 < returnType.size then
    match returned with
    | .stored value => some (.load value.bytes returnType)
    | _ => none
  else
    match returned with
    | .coerced _ bytes => some (.load bytes returnType)
    | _ => none

end Jancy.Ct.CdeclCallConv
