import Jancy.Lib.Holes

/-! Closures of the compiler: partial application, the views of a closure's type and of its call,
and the closure object with its thunk. -/
namespace Jancy.Ct

/-- An empty value in the list is a skipped argument, an empty type a skipped template argument. -/
structure Closure (T V : Type) where
  templateArgArray : List (Option T)
  argValueList : List (Option V)
  thisArgIdx : Option ℕ

namespace Closure

variable {T V A : Type}

def empty : Closure T V := ⟨[],[],none⟩

def insertThisArgValue (closure : Closure T V) (value : V) : Closure T V :=
  { closure with argValueList := some value :: closure.argValueList, thisArgIdx := some 0 }

/-- The first empty value is replaced; without one the value goes to the tail. -/
def replaceEmpty (value : V) : List (Option V) → List (Option V)
  | [] => [some value]
  | some internalArg :: argValueList => some internalArg :: replaceEmpty value argValueList
  | none :: argValueList => some value :: argValueList

def appendValue (closure : Closure T V) (argValue : V) : Closure T V :=
  { closure with argValueList := replaceEmpty argValue closure.argValueList }

/-- The inner loop of `prepend` and of `prependTemplateArgs`, with a bound for its turns. It has no
exit but the end of the internal list: at an empty slot the iterator stays where it is, and the
assignment behind the loop is never reached. The result is what is left of the external list. -/
def prependLoop {α : Type} : ℕ → List (Option α) → List (Option α) → Option (List (Option α))
  | 0,_,_ => none
  | _ + 1,[],externalArg => some externalArg
  | turns + 1,some _ :: internalArg,externalArg => prependLoop turns internalArg externalArg
  | turns + 1,none :: internalArg,externalArg =>
    prependLoop turns (none :: internalArg) externalArg

def append (turns : ℕ) (closure : Closure T V) (argValueList : List (Option V)) :
    Option (Closure T V) :=
  (prependLoop turns closure.argValueList argValueList).map fun externalArg =>
    { closure with argValueList := closure.argValueList ++ externalArg }

def appendTemplateArgs (turns : ℕ) (closure : Closure T V) (argTypeArray : List (Option T)) :
    Option (Closure T V) :=
  (prependLoop turns closure.templateArgArray argTypeArray).map fun rest =>
    { closure with templateArgArray := closure.templateArgArray ++ rest }

/-- The loop of `apply`: the target list is read up to the next empty slot of the closure. -/
def applyLoop : ℕ → List (Option V) → List (Option V) → Except String (List (Option V))
  | _,[],targetArg => .ok targetArg
  | i,some closureArg :: closureArgs,targetArg =>
    (some closureArg :: ·) <$> applyLoop (i + 1) closureArgs targetArg
  | i,none :: closureArgs,arg :: targetArg => (arg :: ·) <$> applyLoop (i + 1) closureArgs targetArg
  | i,none :: _,[] => .error s!"closure call misses argument #{i + 1}"

def apply (closure : Closure T V) (argValueList : List (Option V)) :
    Except String (List (Option V)) :=
  if closure.argValueList = [] then .ok argValueList
  else applyLoop 0 closure.argValueList argValueList

variable (checkCastKind : V → A → Except String Unit)

/-- The loop of `getArgTypeArray`; the index outside the array is its assertion. -/
def getArgTypeArrayLoop : ℕ → List (Option V) → List A → Except String (List A)
  | _,[],argArray => .ok argArray
  | i,none :: closureArgs,argArray => getArgTypeArrayLoop (i + 1) closureArgs argArray
  | i,some closureArg :: closureArgs,argArray =>
    match argArray[i]? with
    | none => .error "assertion i < argCount"
    | some arg =>
      match checkCastKind closureArg arg with
      | .error error => .error error
      | .ok () => getArgTypeArrayLoop i closureArgs (argArray.eraseIdx i)

def getArgTypeArray (closure : Closure T V) (argArray : List A) : Except String (List A) :=
  let closureArgCount := closure.argValueList.length
  let argCount := argArray.length
  if closureArgCount > argCount then
    .error s!"closure with {closureArgCount} arguments for function with {argCount} arguments"
  else getArgTypeArrayLoop checkCastKind 0 closure.argValueList argArray

end Closure

/-- The closure object: the types of its fields behind the target, the parameter that each field
belongs to, and the captured values. -/
structure ClosureObject (A V : Type) where
  argTypeArray : List A
  closureMap : List ℕ
  argFields : List V
  thisArgIdx : Option ℕ

namespace ClosureObject

variable {T V A : Type}

/-- The loop that builds the argument types and the closure map; skipped arguments have none. -/
def closureArgs : ℕ → List (Option V) → List A → List (A × ℕ × V)
  | i,some closureArgValue :: closureArgValues,srcArg :: srcArgArray =>
    (srcArg,i,closureArgValue) :: closureArgs (i + 1) closureArgValues srcArgArray
  | i,none :: closureArgValues,_ :: srcArgArray => closureArgs (i + 1) closureArgValues srcArgArray
  | _,_,_ => []

def create (closure : Closure T V) (srcArgArray : List A) : Except String (ClosureObject A V) :=
  if closure.argValueList.length > srcArgArray.length then .error "closure is too big"
  else
    let args := closureArgs 0 closure.argValueList srcArgArray
    .ok ⟨args.map (·.1),args.map (·.2.1),args.map (·.2.2),closure.thisArgIdx⟩

/-- The loops of `buildArgValueList`: arguments come from the fields and from the thunk as long as
there are fields, and then from the thunk only. Reading behind the thunk's arguments has no
result. -/
def buildLoop (i : ℕ) (closureMap : List ℕ) (argFields : List V) (thunkArgs : List (Option V)) :
    Option (List (Option V)) :=
  match closureMap,argFields with
  | closureIdx :: closureMap',field :: argFields' =>
    if i = closureIdx then (some field :: ·) <$> buildLoop (i + 1) closureMap' argFields' thunkArgs
    else
      match thunkArgs with
      | arg :: thunkArgs =>
        (arg :: ·) <$> buildLoop (i + 1) (closureIdx :: closureMap') (field :: argFields') thunkArgs
      | [] => none
  | _,_ => some thunkArgs
  termination_by argFields.length + thunkArgs.length

/-- The first argument of the thunk is the closure object itself. -/
def buildArgValueList (object : ClosureObject A V) (thunkArgs : List (Option V)) :
    Option (List (Option V)) :=
  buildLoop 0 object.closureMap object.argFields thunkArgs.tail

end ClosureObject

end Jancy.Ct
