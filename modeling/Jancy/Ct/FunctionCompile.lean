import Jancy.Lib.Frames
import Mathlib.Data.Int.Notation

/-! What the managers keep for the function that is compiled, and how it is captured, cleared and
restored around a function that is compiled in the middle of another. -/
namespace Jancy.Ct.FunctionCompile

/-- Functions, variables, scopes and frame maps are numbered in the order of their creation. -/
abbrev Function := ℕ

abbrev Variable := ℕ

abbrev FrameMap := ℕ

abbrev RegexCondStmt := ℕ

abbrev ReactorBody := ℕ

abbrev LlvmValue := ℕ

abbrev DebugLoc := ℕ

/-- `none` is the empty value. -/
abbrev Value := Option ℕ

structure BasicBlock where
  function : Function
  isEntry : Bool
  index : ℕ
deriving DecidableEq

/-- A scope of disposable variables always has a `finally` ahead. -/
structure ScopeFlags where
  isFunction : Bool := false
  isNested : Bool := false
  isDisposable : Bool := false
  isTry : Bool := false
  isCatch : Bool := false
  isFinally : Bool := false
  catchAhead : Bool := false
  finallyAhead : Bool := false
  disposable_finallyAhead : isDisposable = true → finallyAhead = true := by simp
deriving DecidableEq

structure Scope extends ScopeFlags where
  index : ℕ
deriving DecidableEq

inductive Namespace
  | declared (index : ℕ)
  | scope (index : ℕ)
deriving DecidableEq

inductive AccessKind
  | «public»
  | «protected»
deriving DecidableEq

structure FunctionMgr where
  currentFunction : Option Function := none
  thisValue : Value := none
  promiseValue : Value := none
deriving DecidableEq

structure OperatorMgr where
  unsafeEnterCount : ℤ := 0
deriving DecidableEq

structure VariableMgr where
  liftedStackVariableArray : List Variable := []
  argVariableArray : List Variable := []
  reactorVariableArray : List Variable := []
deriving DecidableEq

structure GcShadowStackMgr where
  frameVariable : Option Variable := none
  gcRootArrayValue : Value := none
  functionFrameMapArray : List FrameMap := []
  gcRootCount : ℕ := 0
deriving DecidableEq

structure ControlFlowMgr where
  asyncBlockArray : List BasicBlock := []
  returnBlockArray : List BasicBlock := []
  landingPadBlockArray : List BasicBlock := []
  currentBlock : Option BasicBlock := none
  unreachableBlock : Option BasicBlock := none
  catchFinallyFollowBlock : Option BasicBlock := none
  returnBlock : Option BasicBlock := none
  dynamicThrowBlock : Option BasicBlock := none
  emissionLockBlock : Option BasicBlock := none
  returnValueVariable : Option Variable := none
  finallyRouteIdxVariable : Option Variable := none
  regexCondStmt : Option RegexCondStmt := none
  reactorBody : Option ReactorBody := none
  emissionLockCount : ℕ := 0
  finallyRouteIdx : UInt64 := -1
  sjljFrameCount : ℕ := 0
  sjljFrameArrayValue : Value := none
  prevSjljFrameValue : Value := none
deriving DecidableEq

/-- The managers of a module, with what they keep for the function that is compiled; the defaults
are those of their constructors. -/
structure Managers where
  functionMgr : FunctionMgr := {}
  operatorMgr : OperatorMgr := {}
  variableMgr : VariableMgr := {}
  gcShadowStackMgr : GcShadowStackMgr := {}
  controlFlowMgr : ControlFlowMgr := {}
deriving DecidableEq

structure FunctionCompileContext where
  currentFunction : Option Function
  thisValue : Value
  promiseValue : Value
  unsafeEnterCount : ℤ
  liftedStackVariableArray : List Variable
  argVariableArray : List Variable
  reactorVariableArray : List Variable
  frameVariable : Option Variable
  gcRootArrayValue : Value
  functionFrameMapArray : List FrameMap
  gcRootCount : ℕ
  asyncBlockArray : List BasicBlock
  returnBlockArray : List BasicBlock
  landingPadBlockArray : List BasicBlock
  currentBlock : Option BasicBlock
  unreachableBlock : Option BasicBlock
  catchFinallyFollowBlock : Option BasicBlock
  returnBlock : Option BasicBlock
  dynamicThrowBlock : Option BasicBlock
  emissionLockBlock : Option BasicBlock
  returnValueVariable : Option Variable
  finallyRouteIdxVariable : Option Variable
  regexCondStmt : Option RegexCondStmt
  reactorBody : Option ReactorBody
  emissionLockCount : ℕ
  finallyRouteIdx : UInt64
  sjljFrameCount : ℕ
  sjljFrameArrayValue : Value
  prevSjljFrameValue : Value

structure NamespaceStackEntry where
  nspace : Namespace
  scope : Option Scope
  accessKind : AccessKind
deriving DecidableEq

/-- `current` holds the current namespace, scope and access kind. -/
structure NamespaceMgr where
  current : NamespaceStackEntry := ⟨.declared 0,none,.public⟩
  namespaceStack : List NamespaceStackEntry := []
deriving DecidableEq

structure FieldVariable where
  «variable» : Variable
  llvmAlloca : LlvmValue

/-- What a function keeps itself while it is compiled. -/
structure FunctionData where
  scope : Option ℕ := none
  tlsVariableArray : List FieldVariable := []
  reactorVariableArray : List FieldVariable := []
  byRefCaptureArray : List Variable := []

structure BlockData where
  hasTerminator : Bool := false
  llvmDebugLoc : Option DebugLoc := none

inductive InsertPoint
  | endOf (block : BasicBlock)
  | beforeTerminator (block : BasicBlock)
deriving DecidableEq

structure LlvmIrBuilder where
  insertPoint : Option InsertPoint := none
  currentDebugLoc : Option DebugLoc := none
  allocaInsertPoint : Option InsertPoint := none
deriving DecidableEq

/-- There is a builder as long as code is generated. `llvmValues` are those of the variables that
are kept as fields of TLS and of reactors. -/
structure Module where
  managers : Managers := {}
  namespaceMgr : NamespaceMgr := {}
  llvmIrBuilder : Option LlvmIrBuilder := some {}
  compileErrorCount : ℕ := 0
  functionCount : ℕ := 0
  scopeCount : ℕ := 0
  functions : Function → FunctionData := fun _ => {}
  blocks : BasicBlock → BlockData := fun _ => {}
  llvmValues : Variable → Option LlvmValue := fun _ => none

namespace OperatorMgr

def captureFunctionCompileContext (mgr : OperatorMgr) : OperatorMgr :=
  { mgr with unsafeEnterCount := 0 }

def restoreFunctionCompileContext (mgr : OperatorMgr) (context : FunctionCompileContext) :
    OperatorMgr :=
  { mgr with unsafeEnterCount := context.unsafeEnterCount }

end OperatorMgr

namespace VariableMgr

def finalizeFunction (mgr : VariableMgr) : VariableMgr :=
  { mgr with
    liftedStackVariableArray := []
    argVariableArray := []
    reactorVariableArray := [] }

/-- The arrays are moved. -/
def captureFunctionCompileContext (mgr : VariableMgr) : VariableMgr :=
  { mgr with
    liftedStackVariableArray := []
    argVariableArray := []
    reactorVariableArray := [] }

def restoreFunctionCompileContext (mgr : VariableMgr) (context : FunctionCompileContext) :
    VariableMgr :=
  { mgr with
    liftedStackVariableArray := context.liftedStackVariableArray
    argVariableArray := context.argVariableArray
    reactorVariableArray := context.reactorVariableArray }

end VariableMgr

namespace GcShadowStackMgr

def finalizeFunction (mgr : GcShadowStackMgr) : GcShadowStackMgr :=
  if mgr.frameVariable.isNone then mgr
  else
    { mgr with
      gcRootArrayValue := none
      functionFrameMapArray := []
      frameVariable := none
      gcRootCount := 0 }

def captureFunctionCompileContext (mgr : GcShadowStackMgr) : GcShadowStackMgr :=
  { mgr with
    functionFrameMapArray := []
    gcRootArrayValue := none
    frameVariable := none
    gcRootCount := 0 }

def restoreFunctionCompileContext (mgr : GcShadowStackMgr) (context : FunctionCompileContext) :
    GcShadowStackMgr :=
  { mgr with
    frameVariable := context.frameVariable
    gcRootArrayValue := context.gcRootArrayValue
    functionFrameMapArray := context.functionFrameMapArray
    gcRootCount := context.gcRootCount }

end GcShadowStackMgr

namespace ControlFlowMgr

/-- The body of a reactor stays: `leaveReactor` takes it away. -/
def finalizeFunction (mgr : ControlFlowMgr) : ControlFlowMgr :=
  { mgr with
    asyncBlockArray := []
    returnBlockArray := []
    landingPadBlockArray := []
    currentBlock := none
    unreachableBlock := none
    catchFinallyFollowBlock := none
    returnBlock := none
    dynamicThrowBlock := none
    emissionLockBlock := none
    returnValueVariable := none
    finallyRouteIdxVariable := none
    regexCondStmt := none
    emissionLockCount := 0
    finallyRouteIdx := -1
    sjljFrameCount := 0
    sjljFrameArrayValue := none
    prevSjljFrameValue := none }

/-- The arrays and the body of a reactor are moved. The current block is left by
`setCurrentBlock`. -/
def captureFunctionCompileContext (mgr : ControlFlowMgr) : ControlFlowMgr :=
  { mgr with
    asyncBlockArray := []
    returnBlockArray := []
    landingPadBlockArray := []
    unreachableBlock := none
    catchFinallyFollowBlock := none
    returnBlock := none
    dynamicThrowBlock := none
    emissionLockBlock := none
    returnValueVariable := none
    finallyRouteIdxVariable := none
    regexCondStmt := none
    reactorBody := none
    emissionLockCount := 0
    finallyRouteIdx := -1
    sjljFrameCount := 0
    sjljFrameArrayValue := none
    prevSjljFrameValue := none }

def restoreFunctionCompileContext (mgr : ControlFlowMgr) (context : FunctionCompileContext) :
    ControlFlowMgr :=
  { mgr with
    asyncBlockArray := context.asyncBlockArray
    returnBlockArray := context.returnBlockArray
    landingPadBlockArray := context.landingPadBlockArray
    unreachableBlock := context.unreachableBlock
    catchFinallyFollowBlock := context.catchFinallyFollowBlock
    returnBlock := context.returnBlock
    dynamicThrowBlock := context.dynamicThrowBlock
    emissionLockBlock := context.emissionLockBlock
    returnValueVariable := context.returnValueVariable
    finallyRouteIdxVariable := context.finallyRouteIdxVariable
    regexCondStmt := context.regexCondStmt
    reactorBody := context.reactorBody
    emissionLockCount := context.emissionLockCount
    finallyRouteIdx := context.finallyRouteIdx
    sjljFrameCount := context.sjljFrameCount
    sjljFrameArrayValue := context.sjljFrameArrayValue
    prevSjljFrameValue := context.prevSjljFrameValue }

end ControlFlowMgr

def Managers.context (s : Managers) : FunctionCompileContext where
  currentFunction := s.functionMgr.currentFunction
  thisValue := s.functionMgr.thisValue
  promiseValue := s.functionMgr.promiseValue
  unsafeEnterCount := s.operatorMgr.unsafeEnterCount
  liftedStackVariableArray := s.variableMgr.liftedStackVariableArray
  argVariableArray := s.variableMgr.argVariableArray
  reactorVariableArray := s.variableMgr.reactorVariableArray
  frameVariable := s.gcShadowStackMgr.frameVariable
  gcRootArrayValue := s.gcShadowStackMgr.gcRootArrayValue
  functionFrameMapArray := s.gcShadowStackMgr.functionFrameMapArray
  gcRootCount := s.gcShadowStackMgr.gcRootCount
  asyncBlockArray := s.controlFlowMgr.asyncBlockArray
  returnBlockArray := s.controlFlowMgr.returnBlockArray
  landingPadBlockArray := s.controlFlowMgr.landingPadBlockArray
  currentBlock := s.controlFlowMgr.currentBlock
  unreachableBlock := s.controlFlowMgr.unreachableBlock
  catchFinallyFollowBlock := s.controlFlowMgr.catchFinallyFollowBlock
  returnBlock := s.controlFlowMgr.returnBlock
  dynamicThrowBlock := s.controlFlowMgr.dynamicThrowBlock
  emissionLockBlock := s.controlFlowMgr.emissionLockBlock
  returnValueVariable := s.controlFlowMgr.returnValueVariable
  finallyRouteIdxVariable := s.controlFlowMgr.finallyRouteIdxVariable
  regexCondStmt := s.controlFlowMgr.regexCondStmt
  reactorBody := s.controlFlowMgr.reactorBody
  emissionLockCount := s.controlFlowMgr.emissionLockCount
  finallyRouteIdx := s.controlFlowMgr.finallyRouteIdx
  sjljFrameCount := s.controlFlowMgr.sjljFrameCount
  sjljFrameArrayValue := s.controlFlowMgr.sjljFrameArrayValue
  prevSjljFrameValue := s.controlFlowMgr.prevSjljFrameValue

namespace Module

def hasCodeGen (m : Module) : Bool := m.llvmIrBuilder.isSome

def currentFunction (m : Module) : Option Function := m.managers.functionMgr.currentFunction

def currentBlock (m : Module) : Option BasicBlock := m.managers.controlFlowMgr.currentBlock

def insertPoint (m : Module) : Option InsertPoint := m.llvmIrBuilder.bind (·.insertPoint)

def allocaInsertPoint (m : Module) : Option InsertPoint :=
  m.llvmIrBuilder.bind (·.allocaInsertPoint)

def blockInsertPoint (m : Module) (block : BasicBlock) : InsertPoint :=
  if block.isEntry && (m.blocks block).hasTerminator then .beforeTerminator block
  else .endOf block

def withCurrentBlock (m : Module) (block : Option BasicBlock) : Module :=
  { m with managers.controlFlowMgr.currentBlock := block }

/-- The debug location of a block that is left is kept with the block. -/
def leaveBlock (m : Module) (builder : LlvmIrBuilder) : Option BasicBlock → Module
  | none => m
  | some block =>
      { m with
        blocks := Function.update m.blocks block
          { m.blocks block with llvmDebugLoc := builder.currentDebugLoc } }

def enterBlock (m : Module) (builder : LlvmIrBuilder) : Option BasicBlock → Module
  | none => m
  | some block =>
      { m with
        llvmIrBuilder := some { builder with
          insertPoint := some (m.blockInsertPoint block)
          currentDebugLoc := (m.blocks block).llvmDebugLoc <|> builder.currentDebugLoc } }

def setCurrentBlock (m : Module) (block : Option BasicBlock) : Module :=
  if m.currentBlock = block then m
  else
    match m.llvmIrBuilder with
    | none => m.withCurrentBlock block
    | some builder =>
        ((m.withCurrentBlock block).leaveBlock builder m.currentBlock).enterBlock builder block

def terminateBlock (m : Module) : Module :=
  match m.llvmIrBuilder, m.currentBlock with
  | some _, some block =>
      { m with
        blocks := Function.update m.blocks block
          { m.blocks block with hasTerminator := true } }
  | _, _ => m

def jump (m : Module) (followBlock : BasicBlock) : Module :=
  m.terminateBlock.setCurrentBlock (some followBlock)

def setCurrentDebugLoc (m : Module) (loc : Option DebugLoc) : Module :=
  { m with llvmIrBuilder := m.llvmIrBuilder.map ({ · with currentDebugLoc := loc }) }

def setAllocaBlock (m : Module) (block : BasicBlock) : Module :=
  { m with
    llvmIrBuilder := m.llvmIrBuilder.map
      ({ · with allocaInsertPoint := some (.beforeTerminator block) }) }

def updateFunction (m : Module) (function : Function) (f : FunctionData → FunctionData) : Module :=
  { m with functions := Function.update m.functions function (f (m.functions function)) }

def resetFieldVariableLlvmValues (m : Module) (array : List FieldVariable) : Module :=
  { m with
    llvmValues := array.foldl (fun values field => Function.update values field.«variable» none)
      m.llvmValues }

def restoreFieldVariableLlvmValues (m : Module) (array : List FieldVariable) : Module :=
  { m with
    llvmValues := array.foldl
      (fun values field => Function.update values field.«variable» (some field.llvmAlloca))
      m.llvmValues }

def resetFieldVariables (m : Module) : Option Function → Module
  | none => m
  | some function =>
      (m.resetFieldVariableLlvmValues (m.functions function).tlsVariableArray)
        |>.resetFieldVariableLlvmValues (m.functions function).reactorVariableArray

def restoreFieldVariables (m : Module) : Option Function → Module
  | none => m
  | some function =>
      (m.restoreFieldVariableLlvmValues (m.functions function).tlsVariableArray)
        |>.restoreFieldVariableLlvmValues (m.functions function).reactorVariableArray

end Module

namespace ScopeFlags

def isAhead (flags : ScopeFlags) : Bool := flags.catchAhead || flags.finallyAhead

/-- A scope opened by a label is closed with the scope around it. -/
def closesParent (flags : ScopeFlags) : Bool :=
  (flags.isNested || flags.isDisposable) && !flags.isAhead

end ScopeFlags

def NamespaceStackEntry.closesParent (entry : NamespaceStackEntry) : Bool :=
  match entry.scope with
  | none => false
  | some scope => scope.closesParent

namespace NamespaceMgr

def openNamespace (mgr : NamespaceMgr) (nspace : Namespace) (scope : Option Scope) :
    NamespaceMgr :=
  ⟨⟨nspace,scope,.public⟩,mgr.current :: mgr.namespaceStack⟩

def closeNamespace (mgr : NamespaceMgr) : NamespaceMgr :=
  match mgr.namespaceStack with
  | [] => mgr
  | entry :: stack => ⟨entry,stack⟩

def closeScopes (current : NamespaceStackEntry) : List NamespaceStackEntry → NamespaceMgr
  | [] => ⟨current,[]⟩
  | entry :: stack => if current.closesParent then closeScopes entry stack else ⟨entry,stack⟩

/-- The labels that the closing of a scope adds replace it before it is closed. -/
def closeScope (mgr : NamespaceMgr) : NamespaceMgr := closeScopes mgr.current mgr.namespaceStack

def closeNamespacesFrom (depth : ℕ) (current : NamespaceStackEntry) :
    List NamespaceStackEntry → NamespaceMgr
  | [] => ⟨current,[]⟩
  | entry :: stack =>
      if stack.length + 1 > depth then closeNamespacesFrom depth entry stack
      else ⟨current,entry :: stack⟩

/-- Down to the given depth of the stack. -/
def closeNamespaces (mgr : NamespaceMgr) (depth : ℕ) : NamespaceMgr :=
  closeNamespacesFrom depth mgr.current mgr.namespaceStack

end NamespaceMgr

namespace Module

def openNamespace (m : Module) (nspace : Namespace) : Module :=
  { m with namespaceMgr := m.namespaceMgr.openNamespace nspace none }

def closeNamespace (m : Module) : Module :=
  { m with namespaceMgr := m.namespaceMgr.closeNamespace }

def closeScope (m : Module) : Module :=
  { m with namespaceMgr := m.namespaceMgr.closeScope }

def closeNamespaces (m : Module) (depth : ℕ) : Module :=
  { m with namespaceMgr := m.namespaceMgr.closeNamespaces depth }

def currentScope (m : Module) : Option Scope := m.namespaceMgr.current.scope

/-- The scope of a function, and the scopes right in it, are marked as those of a function. -/
def isFunctionScope (m : Module) : Bool :=
  match m.currentScope, m.currentFunction.bind fun function => (m.functions function).scope with
  | none, _ => true
  | some _, none => false
  | some _, some scope => m.namespaceMgr.current.nspace = .scope scope

def openScope (m : Module) (flags : ScopeFlags) : Module :=
  { m with
    namespaceMgr := m.namespaceMgr.openNamespace (.scope m.scopeCount)
      (some { flags with index := m.scopeCount, isFunction := flags.isFunction || m.isFunctionScope })
    scopeCount := m.scopeCount + 1 }

/-- The managers, each of them cleared after its part of the context is taken. -/
def captureManagers (m : Module) : Module :=
  { m with
    managers.operatorMgr := m.managers.operatorMgr.captureFunctionCompileContext
    managers.variableMgr := m.managers.variableMgr.captureFunctionCompileContext
    managers.gcShadowStackMgr := m.managers.gcShadowStackMgr.captureFunctionCompileContext
    managers.controlFlowMgr := m.managers.controlFlowMgr.captureFunctionCompileContext
    managers.functionMgr := { currentFunction := none, thisValue := none, promiseValue := none } }

def captureFunctionCompileContext (m : Module) : FunctionCompileContext × Module :=
  (m.managers.context,
    ((m.resetFieldVariables m.currentFunction).setCurrentBlock none).captureManagers)

def restoreManagers (m : Module) (context : FunctionCompileContext) : Module :=
  { m with
    managers.functionMgr :=
      { currentFunction := context.currentFunction
        thisValue := context.thisValue
        promiseValue := context.promiseValue }
    managers.operatorMgr := m.managers.operatorMgr.restoreFunctionCompileContext context
    managers.variableMgr := m.managers.variableMgr.restoreFunctionCompileContext context
    managers.gcShadowStackMgr := m.managers.gcShadowStackMgr.restoreFunctionCompileContext context
    managers.controlFlowMgr := m.managers.controlFlowMgr.restoreFunctionCompileContext context }

/-- `m_allocaBlock` of the function that is current again. -/
def restoreAllocaBlock (m : Module) : Option Function → Module
  | none => m
  | some function => m.setAllocaBlock ⟨function,true,0⟩

/-- The current block is entered again last. -/
def restoreFunctionCompileContext (m : Module) (context : FunctionCompileContext) : Module :=
  ((m.restoreManagers context).restoreAllocaBlock context.currentFunction)
    |>.restoreFieldVariables context.currentFunction
    |>.setCurrentBlock context.currentBlock

end Module

end Jancy.Ct.FunctionCompile
