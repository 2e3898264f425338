import Jancy.Ct.FunctionCompile

/-! Compiling a function: its prologue, what its body does to the managers, to the blocks and to
the namespaces, its epilogue; and the functions that are compiled while it is. -/
namespace Jancy.Ct.FunctionCompile

/-- What is known of a function before it is compiled, and which of the checks around its body
succeed. -/
structure FunctionDecl where
  parentNamespace : Namespace
  isUnsafe : Bool := false
  /-- The variables and values that the prologue creates for `this` and the arguments. -/
  arguments : Managers → Managers := id
  layoutReady : Bool := true
  bodyTokenized : Bool := true
  returns : Bool := true
  /-- Every capture is used and the closure class is laid out. -/
  closureReady : Bool := true

mutual

inductive Expr
  | skip
  | fail
  | seq (first second : Expr)
  | write (f : Managers → Managers)
  | setCurrentBlock (index : ℕ)
  | jump (followIndex : ℕ)
  /-- The prologue block is entered, written to and left. -/
  | visitPrologue (f : Managers → Managers)
  | setSourcePos (loc : DebugLoc)
  | prepareLlvmValue (isTls : Bool) (fieldVariable : Variable) (llvmAlloca : LlvmValue)
  | createByRefCaptureVariable (outerVariable : Variable)
  | parseContext (nspace : Namespace) (isExpression : Bool) (body : Expr)
  | lambda (decl : FunctionDecl) (body : Stmt)

/-- What a statement does. -/
inductive Stmt
  | expr (e : Expr)
  | seq (first second : Stmt)
  | compound (isTry catchAhead finallyAhead : Bool) (body : Stmt)
  | namespaceBlock (nspace : Namespace) (body : Stmt)
  | disposable
  | nestedScope (catchAhead finallyAhead : Bool)
  | catchLabel (returns : Bool)
  | finallyLabel
  /-- A list in which the parser goes on after an error, if the handler of errors agrees. -/
  | attempt (recovers : Bool) (body : Stmt)

end

/-- A function compiled in the middle of another: the module before its context is captured, when
the compilation of the function starts, and after the context is restored. -/
structure Nesting where
  before : Module
  start : Module
  after : Module

/-- `nested` are the functions that were compiled meanwhile. -/
structure Outcome where
  ok : Bool
  module : Module
  nested : List Nesting := []

namespace Outcome

def andThen (o : Outcome) (next : Module → Outcome) : Outcome :=
  if o.ok then
    let o' := next o.module
    { o' with nested := o.nested ++ o'.nested }
  else o

/-- Also after a failure. -/
def afterwards (o : Outcome) (f : Module → Module) : Outcome := { o with module := f o.module }

end Outcome

def Managers.write (s : Managers) (f : Managers → Managers) : Managers :=
  { f s with
    functionMgr := { (f s).functionMgr with currentFunction := s.functionMgr.currentFunction }
    controlFlowMgr := { (f s).controlFlowMgr with currentBlock := s.controlFlowMgr.currentBlock } }

namespace Module

def succeed (m : Module) : Outcome := ⟨true,m,[]⟩

def fail (m : Module) : Outcome := ⟨false,m,[]⟩

def write (m : Module) (f : Managers → Managers) : Module :=
  { m with managers := m.managers.write f }

def withCurrentFunction (m : Module) (function : Option Function) : Module :=
  { m with managers.functionMgr.currentFunction := function }

def setBodyBlock (m : Module) (index : ℕ) : Module :=
  match m.currentFunction with
  | none => m
  | some function => m.setCurrentBlock (some ⟨function,false,index⟩)

def jumpBody (m : Module) (followIndex : ℕ) : Module :=
  match m.currentFunction with
  | none => m
  | some function => m.jump ⟨function,false,followIndex⟩

def visitPrologue (m : Module) (f : Managers → Managers) : Module :=
  match m.currentFunction with
  | none => m
  | some function =>
      ((m.setCurrentBlock (some ⟨function,true,1⟩)).write f).setCurrentBlock m.currentBlock

def prepareLlvmValue (m : Module) (isTls : Bool) (fieldVariable : Variable)
    (llvmAlloca : LlvmValue) : Module :=
  match m.currentFunction, m.llvmValues fieldVariable with
  | some function, none =>
      { m with
        llvmValues := Function.update m.llvmValues fieldVariable (some llvmAlloca)
        functions := Function.update m.functions function (
          let data := m.functions function
          if isTls then
            { data with
              tlsVariableArray := data.tlsVariableArray ++ [⟨fieldVariable,llvmAlloca⟩] }
          else
            { data with
              reactorVariableArray := data.reactorVariableArray ++
                [⟨fieldVariable,llvmAlloca⟩] }) }
  | _, _ => m

def createByRefCaptureVariable (m : Module) (outerVariable : Variable) : Module :=
  match m.currentFunction with
  | none => m
  | some function =>
      m.updateFunction function fun data =>
        { data with byRefCaptureArray := data.byRefCaptureArray ++ [outerVariable] }

def setCurrentReactor (m : Module) (reactorBody : Option ReactorBody) : Module :=
  { m with managers.controlFlowMgr.reactorBody := reactorBody }

def openNamespaceIf (m : Module) (nspace : Namespace) (scope : Option Scope) : Module :=
  if m.namespaceMgr.current.nspace = nspace then m
  else { m with namespaceMgr := m.namespaceMgr.openNamespace nspace scope }

def enterParseContext (m : Module) (nspace : Namespace) (isExpression : Bool) : Module :=
  (m.setCurrentReactor none).openNamespaceIf nspace (if isExpression then m.currentScope else none)

/-- `before` is the module that the context was set in. -/
def leaveParseContext (before : Module) (nspace : Namespace) (m : Module) : Module :=
  let m := m.setCurrentReactor before.managers.controlFlowMgr.reactorBody
  if before.namespaceMgr.current.nspace = nspace then m else m.closeNamespace

def updateCurrentScope (m : Module) (f : Scope → Scope) : Module :=
  { m with namespaceMgr.current.scope := m.currentScope.map f }

/-- The scopes of labels and of disposable variables are those of a function with their parent. -/
def propagateFunctionFlag (m : Module) (parent : Scope) : Module :=
  m.updateCurrentScope fun scope => { scope with isFunction := scope.isFunction || parent.isFunction }

def openDisposableScope (m : Module) : Outcome :=
  match m.currentScope with
  | none => m.fail
  | some scope =>
      if scope.isDisposable then m.succeed
      else
        ((m.openScope { isDisposable := true, finallyAhead := true }).propagateFunctionFlag
          scope).succeed

/-- The scope stays open if it is not allowed. -/
def openNestedScope (m : Module) (catchAhead finallyAhead : Bool) : Outcome :=
  let m' := m.openScope { isNested := true, catchAhead, finallyAhead }
  match m.currentScope with
  | none => m'.succeed
  | some parent =>
      if parent.isCatch || parent.isFinally || parent.isNested then m'.fail
      else (m'.propagateFunctionFlag parent).succeed

/-- The scope of disposable variables is closed by the labels of the scope around it. -/
def closeDisposableScope (m : Module) : Module :=
  match m.currentScope with
  | none => m
  | some scope => if scope.isDisposable then m.closeScope else m

def openCatchScope (m : Module) (scope : Scope) : Module :=
  (m.closeScope.openScope { isCatch := true }).updateCurrentScope fun catchScope =>
    { catchScope with
      isNested := catchScope.isNested || scope.isNested
      finallyAhead := catchScope.finallyAhead || scope.finallyAhead
      disposable_finallyAhead := fun h => by simp [catchScope.disposable_finallyAhead h] }

def openFinallyScope (m : Module) (scope : Scope) : Module :=
  (m.closeScope.openScope { isFinally := true }).updateCurrentScope fun finallyScope =>
    { finallyScope with isNested := finallyScope.isNested || scope.isNested }

def catchScope (m : Module) : Outcome :=
  match m.currentScope with
  | none => m.fail
  | some scope => if scope.catchAhead then (m.openCatchScope scope).succeed else m.fail

/-- `returns` tells whether the body before the label may end there. -/
def catchLabel (m : Module) (returns : Bool) : Outcome :=
  match m.currentScope with
  | none => m.fail
  | some scope =>
      if scope.isFunction && !scope.finallyAhead && !returns then m.fail
      else m.closeDisposableScope.catchScope

/-- A `try` without a `catch` gets an empty one. -/
def finallyScope (m : Module) : Outcome :=
  match m.currentScope with
  | none => m.fail
  | some scope =>
      if scope.catchAhead || !scope.finallyAhead then m.fail
      else if scope.isTry then ((m.openCatchScope scope).openFinallyScope scope).succeed
      else (m.openFinallyScope scope).succeed

def finallyLabel (m : Module) : Outcome := m.closeDisposableScope.finallyScope

/-- Code generation stops at the very first error. -/
def processCompileError (m : Module) : Module :=
  { m with
    compileErrorCount := m.compileErrorCount + 1
    llvmIrBuilder := if m.compileErrorCount = 0 then none else m.llvmIrBuilder }

def createFunction (m : Module) : Module := { m with functionCount := m.functionCount + 1 }

/-- The blocks before the body: 0 of the entry blocks has the allocas, 1 is the prologue. -/
def enterFunction (m : Module) (function : Function) : Module :=
  ((((m.withCurrentFunction (some function)).setCurrentDebugLoc none)
    |>.setCurrentBlock (some ⟨function,true,0⟩)).jump ⟨function,true,1⟩)
    |>.setAllocaBlock ⟨function,true,0⟩

def openFunctionScope (m : Module) (function : Function) (decl : FunctionDecl) : Module :=
  let m := m.openNamespace decl.parentNamespace
  (m.openScope {}).updateFunction function ({ · with scope := some m.scopeCount })

def enterUnsafeRgn (m : Module) (decl : FunctionDecl) : Module :=
  if decl.isUnsafe then
    { m with managers.operatorMgr.unsafeEnterCount :=
        m.managers.operatorMgr.unsafeEnterCount + 1 }
  else m

def leaveUnsafeRgn (m : Module) (decl : FunctionDecl) : Module :=
  if decl.isUnsafe then
    { m with managers.operatorMgr.unsafeEnterCount :=
        m.managers.operatorMgr.unsafeEnterCount - 1 }
  else m

def prologue (m : Module) (function : Function) (decl : FunctionDecl) : Module :=
  ((((m.enterFunction function).openFunctionScope function decl).enterUnsafeRgn decl).write
    decl.arguments).jump ⟨function,false,0⟩

/-- The unsafe regions are reset before. -/
def finalizeManagers (m : Module) : Module :=
  { m with
    managers.operatorMgr.unsafeEnterCount := 0
    managers.variableMgr := m.managers.variableMgr.finalizeFunction
    managers.gcShadowStackMgr := m.managers.gcShadowStackMgr.finalizeFunction
    managers.controlFlowMgr := m.managers.controlFlowMgr.finalizeFunction
    managers.functionMgr := { currentFunction := none, thisValue := none, promiseValue := none } }

def finalizeFunction (m : Module) (function : Function) : Module :=
  (m.closeScope.closeNamespace.resetFieldVariables (some function)).finalizeManagers

def epilogue (m : Module) (function : Function) (decl : FunctionDecl) : Outcome :=
  match m.currentScope with
  | none => m.fail
  | some scope =>
      if !scope.isFunction || !decl.returns then m.fail
      else ((m.leaveUnsafeRgn decl).finalizeFunction function).succeed

/-- `Function::compile` of a function with a body. -/
def compileFunction (m : Module) (function : Function) (decl : FunctionDecl)
    (body : Module → Outcome) : Outcome :=
  if !decl.layoutReady then m.fail
  else
    let m := m.prologue function decl
    if !decl.bodyTokenized then m.fail
    else (body m).andThen fun m => m.epilogue function decl

/-- After the context is restored, a capture may turn out unused or the closure class faulty. -/
def finishLambda (decl : FunctionDecl) (before start : Module) (o : Outcome) : Outcome :=
  let after := (o.module.closeNamespaces before.namespaceMgr.namespaceStack.length)
    |>.restoreFunctionCompileContext before.managers.context
  ⟨o.ok && (!after.hasCodeGen || decl.closureReady),after,o.nested ++ [⟨before,start,after⟩]⟩

/-- `LambdaFunction::compile` -/
def compileLambda (m : Module) (function : Function) (decl : FunctionDecl)
    (body : Module → Outcome) : Outcome :=
  if !decl.layoutReady then m.fail
  else
    let start := m.captureFunctionCompileContext.2
    finishLambda decl m start (start.compileFunction function decl body)

/-- `Parser::lambdaExpression` -/
def lambdaExpression (m : Module) (decl : FunctionDecl) (body : Module → Outcome) : Outcome :=
  if !m.hasCodeGen then m.succeed
  else m.createFunction.compileLambda m.functionCount decl body

end Module

mutual

def Expr.exec : Expr → Module → Outcome
  | .skip, m => m.succeed
  | .fail, m => m.fail
  | .seq first second, m => (first.exec m).andThen second.exec
  | .write f, m => (m.write f).succeed
  | .setCurrentBlock index, m => (m.setBodyBlock index).succeed
  | .jump followIndex, m => (m.jumpBody followIndex).succeed
  | .visitPrologue f, m => (m.visitPrologue f).succeed
  | .setSourcePos loc, m => (m.setCurrentDebugLoc (some loc)).succeed
  | .prepareLlvmValue isTls fieldVariable llvmAlloca, m =>
      (m.prepareLlvmValue isTls fieldVariable llvmAlloca).succeed
  | .createByRefCaptureVariable outerVariable, m =>
      (m.createByRefCaptureVariable outerVariable).succeed
  | .parseContext nspace isExpression body, m =>
      (body.exec (m.enterParseContext nspace isExpression)).afterwards (m.leaveParseContext nspace)
  | .lambda decl body, m => m.lambdaExpression decl body.exec

def Stmt.exec : Stmt → Module → Outcome
  | .expr e, m => e.exec m
  | .seq first second, m => (first.exec m).andThen second.exec
  | .compound isTry catchAhead finallyAhead body, m =>
      (body.exec (m.openScope { isTry, catchAhead, finallyAhead })).andThen
        fun m => m.closeScope.succeed
  | .namespaceBlock nspace body, m =>
      (body.exec (m.openNamespace nspace)).andThen fun m => m.closeNamespace.succeed
  | .disposable, m => m.openDisposableScope
  | .nestedScope catchAhead finallyAhead, m => m.openNestedScope catchAhead finallyAhead
  | .catchLabel returns, m => m.catchLabel returns
  | .finallyLabel, m => m.finallyLabel
  | .attempt recovers body, m =>
      let o := body.exec m
      if o.ok then o else ⟨recovers,o.module.processCompileError,o.nested⟩

end

def Module.compileTopLevel (m : Module) (decl : FunctionDecl) (body : Stmt) : Outcome :=
  m.createFunction.compileFunction m.functionCount decl body.exec

end Jancy.Ct.FunctionCompile
