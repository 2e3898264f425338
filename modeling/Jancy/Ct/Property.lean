import Jancy.Ct.PropertyType

/-! Properties: how their accessors are added, how their types come about, and the vtable that is
laid out of the accessors. -/
namespace Jancy.Ct.Properties

variable {κ α : Type}

inductive StorageKind where
  | undefined
  | static
  | member
  | abstract
  | virtual
  | override
  | reactor
  deriving DecidableEq, Repr

inductive AccessorKind where
  | getter
  | setter
  | binder
  | thunk
  deriving DecidableEq, Repr

structure Accessor (κ α : Type) where
  functionKind : AccessorKind
  storageKind : StorageKind
  thisArgTypeFlags : Types.PtrTypeFlags := {}
  type : FunctionType κ α
  deriving DecidableEq

/-- The member data behind `m_onChanged` and `m_autoGetValue`; some items have no type. An alias is
resolved when the property is finalized, if it can be. -/
inductive Item (κ α : Type) where
  | data (type : Option (Ty κ α))
  | alias (target : Option (Option (Ty κ α)))
  deriving DecidableEq

structure Property (κ α : Type) where
  storageKind : StorageKind
  parentType : Option κ
  isConst : Bool := false
  type : Option (PropertyType κ α) := none
  getter : Option (Accessor κ α) := none
  setter : List (Accessor κ α) := []
  binder : Option (Accessor κ α) := none
  onChanged : Option (Item κ α) := none
  autoGetValue : Option (Item κ α) := none
  /-- The index arguments that the verifier took from the first accessor. -/
  verifier : Option (List (Ty κ α)) := none
  deriving DecidableEq

/-- The index arguments of an accessor: a setter's last argument is the value. -/
def indexArgs (functionKind : AccessorKind) (f : FunctionType κ α) : Option (List (Ty κ α)) :=
  let args := f.getShortType.args.map (·.type)
  match functionKind with
  | .setter => if args = [] then none else some args.dropLast
  | _ => some args

variable [DecidableEq κ] [DecidableEq α]

namespace Property

def getAccessorStorageKind (p : Property κ α) : StorageKind :=
  match p.storageKind with
  | .abstract => .virtual
  | .reactor => .member
  | storageKind => storageKind

/-- `m_thisArgTypeFlags` of the getters and binders that the compiler creates. -/
def constThis (p : Property κ α) : Types.PtrTypeFlags :=
  if p.parentType.isSome then { constKind := .const } else {}

/-- `PropertyVerifier::checkIndexSignature`. -/
def checkIndexSignature (functionKind : AccessorKind) (f : FunctionType κ α) (p : Property κ α) :
    Option (Property κ α) := do
  let indexArgs ← indexArgs functionKind f
  match p.verifier with
  | none => some { p with verifier := some indexArgs }
  | some indexArgs' => if indexArgs = indexArgs' then some p else none

/-- How `addMethod` turns an accessor into a member method, or finds its storage to be wrong. -/
def convertMethod (Γ : TypeMgr κ α) (p : Property κ α) (f : Accessor κ α) :
    Option (Accessor κ α) :=
  match p.parentType with
  | some parentType =>
    let memberType := Γ.getMemberMethodType parentType f.type f.thisArgTypeFlags
    match f.storageKind with
    | .static => if f.thisArgTypeFlags = {} then some f else none
    | .undefined | .member => some { f with storageKind := .member, type := memberType }
    | .abstract | .virtual | .override =>
      if Γ.isClass parentType then some { f with type := memberType } else none
    | .reactor => none
  | none =>
    match f.storageKind with
    | .undefined | .static =>
      if f.thisArgTypeFlags = {} then some { f with storageKind := .static } else none
    | _ => none

/-- `addMethod` of an accessor. -/
def addMethod (Γ : TypeMgr κ α) (p : Property κ α) (f : Accessor κ α) : Option (Property κ α) := do
  let f ← p.convertMethod Γ f
  match f.functionKind with
  | .getter =>
    let p ← p.checkIndexSignature .getter f.type
    if p.getter.isSome then none else some { p with getter := some f }
  | .setter =>
    if p.isConst then none
    else
      let p ← p.checkIndexSignature .setter f.type
      if p.setter.any (·.type.argSignature == f.type.argSignature) then none
      else some { p with setter := p.setter ++ [f] }
  | .binder => if p.binder.isSome then none else some { p with binder := some f }
  | .thunk => none

/-- The binder that `setOnChanged` creates. -/
def createBinder (Γ : TypeMgr κ α) (p : Property κ α) : Accessor κ α where
  functionKind := .binder
  storageKind := p.getAccessorStorageKind
  thisArgTypeFlags := p.constThis
  type := Γ.binderType

def setOnChanged (Γ : TypeMgr κ α) (item : Item κ α) (isForced : Bool) (p : Property κ α) :
    Option (Property κ α) :=
  if p.onChanged.isSome && !isForced then none
  else
    let p := { p with onChanged := some item }
    match item with
    | .alias _ => some p -- fixed up later
    | .data none => none
    | .data (some _) => p.addMethod Γ (p.createBinder Γ)

/-- The data itself is a field or a variable of the type `StdType_SimpleMulticast`. -/
def createOnChanged (Γ : TypeMgr κ α) (p : Property κ α) : Option (Property κ α) :=
  p.setOnChanged Γ (.data (some (.data Γ.simpleMulticast))) false

def createAutoGetter (Γ : TypeMgr κ α) (type : Ty κ α) (p : Property κ α) : Accessor κ α where
  functionKind := .getter
  storageKind := p.getAccessorStorageKind
  thisArgTypeFlags := p.constThis
  type := Γ.getSimpleGetterType type

def setAutoGetValue (Γ : TypeMgr κ α) (item : Item κ α) (isForced : Bool) (p : Property κ α) :
    Option (Property κ α) :=
  if p.autoGetValue.isSome && !isForced then none
  else
    let p := { p with autoGetValue := some item }
    match item with
    | .alias _ => some p -- fixed up later
    | .data none => none
    | .data (some type) =>
      match p.getter with
      | some getter => if getter.type.returnType = type then some p else none
      | none => p.addMethod Γ (p.createAutoGetter Γ type)

def createAutoGetValue (Γ : TypeMgr κ α) (type : Ty κ α) (p : Property κ α) :
    Option (Property κ α) :=
  p.setAutoGetValue Γ (.data (some type)) false

/-- The flags that a declared property takes with its type, and whether the class of the property
creates getters and setters without a storage kind, as `DataThunkProperty` does. -/
structure CreateFlags where
  autoGet : Bool := false
  autoSet : Bool := false
  noStorage : Bool := false
  deriving DecidableEq, Repr

def createAccessor (flags : CreateFlags) (functionKind : AccessorKind) (type : FunctionType κ α)
    (thisArgTypeFlags : Types.PtrTypeFlags) (p : Property κ α) : Accessor κ α where
  functionKind := functionKind
  storageKind := if flags.noStorage then .undefined else p.getAccessorStorageKind
  thisArgTypeFlags := thisArgTypeFlags
  type := type

def createSetters (Γ : TypeMgr κ α) (flags : CreateFlags) (p : Property κ α) :
    List (FunctionType κ α) → Option (Property κ α)
  | [] => some p
  | type :: types => do
    let p ← p.addMethod Γ (p.createAccessor flags .setter type {})
    p.createSetters Γ flags types

/-- The first part of `create`. -/
def createBinderOf (Γ : TypeMgr κ α) (type : PropertyType κ α) (p : Property κ α) :
    Option (Property κ α) :=
  if type.isBindable then p.createOnChanged Γ else some p

/-- The second part of `create`. -/
def createGetterOf (Γ : TypeMgr κ α) (flags : CreateFlags) (type : PropertyType κ α)
    (p : Property κ α) : Option (Property κ α) :=
  if flags.autoGet then p.createAutoGetValue Γ type.getterType.returnType
  else p.addMethod Γ (p.createAccessor flags .getter type.getterType p.constThis)

/-- The third part of `create`. -/
def createSettersOf (Γ : TypeMgr κ α) (flags : CreateFlags) (type : PropertyType κ α)
    (p : Property κ α) : Option (Property κ α) :=
  if flags.autoSet then
    match type.setterType with
    | [] => none
    | setterType :: _ =>
      p.addMethod Γ {
        functionKind := .setter
        storageKind := p.getAccessorStorageKind
        type := setterType }
  else p.createSetters Γ flags type.setterType

/-- The type that `create` gives to a property. -/
def placedType (Γ : TypeMgr κ α) (parentType : Option κ) (type : PropertyType κ α) :
    PropertyType κ α :=
  match parentType with
  | some parentType => type.getMemberPropertyType Γ parentType
  | none => type

/-- `Property::create`. -/
def create (Γ : TypeMgr κ α) (flags : CreateFlags) (type : PropertyType κ α) (p : Property κ α) :
    Option (Property κ α) := do
  let p ← p.createBinderOf Γ type
  let p ← p.createGetterOf Γ flags type
  let p ← p.createSettersOf Γ flags type
  some { p with type := some (placedType Γ p.parentType type) }

/-- `createType`: the type is made of the accessors. -/
def createType (p : Property κ α) : Option (Property κ α) := do
  let getter ← p.getter
  some { p with
    type := some {
      getterType := getter.type
      setterType := p.setter.map (·.type)
      isBindable := p.onChanged.isSome } }

/-- `prepareVtable`; each method stands with the role for which it was appended. -/
def prepareVtable (p : Property κ α) : Option (List (PropertyType.Role × Accessor κ α)) := do
  let getter ← p.getter
  some (p.binder.toList.map ((.binder,·)) ++
    (.getter,getter) :: p.setter.zipIdx.map fun ⟨f,i⟩ => (.setter i,f))

def accessor (p : Property κ α) : PropertyType.Role → Option (Accessor κ α)
  | .binder => p.binder
  | .getter => p.getter
  | .setter i => p.setter[i]?

/-- `finalize` resolves an alias for the autoget value. -/
def resolveAutoGetValue (Γ : TypeMgr κ α) (p : Property κ α) : Option (Property κ α) :=
  match p.autoGetValue with
  | some (.alias target) => target.bind fun type => p.setAutoGetValue Γ (.data type) true
  | _ => some p

/-- `finalize` resolves an alias for the bindable event. -/
def resolveOnChanged (Γ : TypeMgr κ α) (p : Property κ α) : Option (Property κ α) :=
  match p.onChanged with
  | some (.alias target) => target.bind fun type => p.setOnChanged Γ (.data type) true
  | _ => some p

/-- `finalize`, as far as accessors and the type go. -/
def finalize (Γ : TypeMgr κ α) (p : Property κ α) : Option (Property κ α) := do
  let p ← p.resolveAutoGetValue Γ
  let p ← p.resolveOnChanged Γ
  if p.getter.isNone then none else if p.type.isSome then some p else p.createType

/-- A function type as it is declared: without a `this` argument. -/
structure DeclaredFunctionType (κ α : Type) where
  type : FunctionType κ α
  plain : type.isMemberMethodType = false

/-- What stands in the body of a property and bears on its accessors. -/
inductive BodyItem (κ α : Type) where
  | method (functionKind : AccessorKind) (storageKind : StorageKind)
    (thisArgTypeFlags : Types.PtrTypeFlags) (type : DeclaredFunctionType κ α)
  | bindable (item : Item κ α)
  | autoGet (item : Item κ α)

structure DeclModifiers (κ α : Type) where
  isConst : Bool := false
  autoGet : Bool := false
  bindable : Bool := false
  errorCode : Bool := false
  thin : Bool := false
  byteOrder : Bool := false
  getterType : Option (DeclaredFunctionType κ α) := none

def methodStorageKind (p : Property κ α) (storageKind : StorageKind) : StorageKind :=
  if storageKind = .undefined then p.storageKind else storageKind

def addBodyItem (Γ : TypeMgr κ α) (p : Property κ α) : BodyItem κ α → Option (Property κ α)
  | .method functionKind storageKind thisArgTypeFlags type =>
    if p.methodStorageKind storageKind = .static ∧ thisArgTypeFlags ≠ {} then none
    else p.addMethod Γ
      ⟨functionKind,p.methodStorageKind storageKind,thisArgTypeFlags,type.type⟩
  | .bindable item => p.setOnChanged Γ item false
  | .autoGet item => p.setAutoGetValue Γ item false

/-- The setter of a read-write property without a body. -/
def simpleSetterType (Γ : TypeMgr κ α) (isErrorCode : Bool) (getterType : FunctionType κ α) :
    FunctionType κ α where
  callConv := Γ.defaultCallConv
  returnType := .data (if isErrorCode then Γ.boolType else Γ.voidType)
  args := getterType.getShortType.args ++ [{ type := getterType.getShortType.returnType }]
  flags := { errorCode := isErrorCode }

/-- The flags of `this` in the accessors that `finalizeLastProperty` adds. -/
def thinThis (mods : DeclModifiers κ α) : Types.PtrTypeFlags :=
  if mods.thin then { thinThis := true } else {}

/-- `finalizeLastProperty` finalizes the getter. -/
def finalizeGetter (Γ : TypeMgr κ α) (mods : DeclModifiers κ α) (p : Property κ α) :
    Option (Property κ α) :=
  match p.getter,p.autoGetValue,mods.getterType with
  | some getter,_,some type => if type.type.isEqual getter.type then some p else none
  | some _,_,none => some p
  | none,some _,_ => some p
  | none,none,none => none
  | none,none,some type => p.addMethod Γ {
      functionKind := .getter
      storageKind := .undefined
      thisArgTypeFlags :=
        if p.parentType.isSome then { thinThis mods with constKind := .const } else {}
      type := type.type }

def finalizeSetter (Γ : TypeMgr κ α) (mods : DeclModifiers κ α) (hasBody : Bool)
    (p : Property κ α) : Option (Property κ α) :=
  if mods.isConst || hasBody then some p
  else match p.getter with
    | none => none
    | some getter => p.addMethod Γ {
        functionKind := .setter
        storageKind := .undefined
        thisArgTypeFlags := if p.parentType.isSome then thinThis mods else {}
        type := simpleSetterType Γ mods.errorCode getter.type }

def finalizeBinder (Γ : TypeMgr κ α) (mods : DeclModifiers κ α) (p : Property κ α) :
    Option (Property κ α) :=
  if mods.bindable && p.onChanged.isNone then p.createOnChanged Γ else some p

def finalizeAutoGetValue (Γ : TypeMgr κ α) (mods : DeclModifiers κ α) (p : Property κ α) :
    Option (Property κ α) :=
  if mods.autoGet then
    match p.autoGetValue,p.getter with
    | some _,_ => some p
    | none,some getter => p.createAutoGetValue Γ getter.type.returnType
    | none,none => none
  else if mods.byteOrder then none else some p

/-- `finalizeLastProperty`: the accessors that the body left out, and the type. -/
def finalizeLastProperty (Γ : TypeMgr κ α) (mods : DeclModifiers κ α) (hasBody : Bool)
    (p : Property κ α) : Option (Property κ α) := do
  if mods.thin && p.parentType.isNone then none
  else
    let p ← p.finalizeGetter Γ mods
    let p ← p.finalizeSetter Γ mods hasBody
    let p ← p.finalizeBinder Γ mods
    let p ← p.finalizeAutoGetValue Γ mods
    if p.getter.isSome then p.createType else some p

end Property

/-- `getDirectThunkFunction`. -/
def getDirectThunkFunction (Γ : TypeMgr κ α) (target : Accessor κ α)
    (thunkType : FunctionType κ α) (hasUnusedClosure : Bool) : Accessor κ α :=
  if !hasUnusedClosure && target.type.isEqual thunkType then target
  else {
    functionKind := .thunk
    storageKind := .static
    type := if hasUnusedClosure then Γ.getStdObjectMemberMethodType thunkType else thunkType }

/-- The cast kinds that `chooseSetterOverload` compares: the last argument of the thunk setter
against the argument of each overload at the place of the first overload's last one. -/
def setterValueCastKinds (Γ : TypeMgr κ α) (overloads : List (FunctionType κ α))
    (thunkType : FunctionType κ α) : Option (List CastKind) := do
  let first ← overloads.head?
  let value ← thunkType.args.getLast?
  overloads.mapM fun f => (f.args[first.args.length - 1]?).map (Γ.castKind value.type ·.type)

def chooseSetterOverload (Γ : TypeMgr κ α) (overloads : List (FunctionType κ α))
    (thunkType : FunctionType κ α) : Option ℕ :=
  (setterValueCastKinds Γ overloads thunkType).bind chooseBest

/-- The loop of `ThunkProperty::create` over the setter overloads. -/
def createThunkSetters (Γ : TypeMgr κ α) (target : Property κ α) (hasUnusedClosure : Bool) :
    List (FunctionType κ α) → List (Accessor κ α) → Option (List (Accessor κ α))
  | [],setter => some setter
  | thunkType :: thunkTypes,setter => do
    let i ← chooseSetterOverload Γ (target.setter.map (·.type)) thunkType
    let overload ← target.setter[i]?
    let thunk := getDirectThunkFunction Γ overload thunkType hasUnusedClosure
    if setter.any (·.type.argSignature == thunk.type.argSignature) then none
    else createThunkSetters Γ target hasUnusedClosure thunkTypes (setter ++ [thunk])

/-- `ThunkProperty::create`. -/
def createThunkProperty (Γ : TypeMgr κ α) (target : Property κ α) (thunkType : PropertyType κ α)
    (hasUnusedClosure : Bool) : Option (Property κ α) := do
  let getter ← target.getter
  if thunkType.setterType ≠ [] ∧ target.setter = [] then none
  else
    let setter ← createThunkSetters Γ target hasUnusedClosure thunkType.setterType []
    some {
      storageKind := .static
      parentType := none
      type := some
        (if hasUnusedClosure then thunkType.getStdObjectMemberPropertyType Γ else thunkType)
      getter := some (getDirectThunkFunction Γ getter thunkType.getterType hasUnusedClosure)
      setter := setter }

/-- `DataThunkProperty::create`, from `getDirectDataThunkProperty`. -/
def createDataThunkProperty (Γ : TypeMgr κ α) (thunkType : PropertyType κ α)
    (hasUnusedClosure : Bool) : Option (Property κ α) :=
  Property.create Γ { noStorage := true }
    (if hasUnusedClosure then thunkType.getStdObjectMemberPropertyType Γ else thunkType)
    { storageKind := .static, parentType := none }

end Jancy.Ct.Properties
