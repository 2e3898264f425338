import Jancy.Ct.FunctionCompileFrame

/-! A function compiled in the middle of another: its prologue and epilogue, and the context of the
outer function that is restored whatever became of it. -/
namespace Jancy.Ct.FunctionCompile

open Frames (Over)
open NamespaceStackEntry (IsBase)

namespace Module

variable {m m' : Module} {f g : Function} {base : List NamespaceStackEntry} {decl : FunctionDecl}

structure Entered (g : Function) (m m' : Module) : Prop where
  current : m'.currentFunction = some g
  currentBlock : m'.currentBlock = some ⟨g,true,1⟩
  hasCodeGen : m'.hasCodeGen = m.hasCodeGen
  allocaInsertPoint : m'.hasCodeGen = true →
    m'.allocaInsertPoint = some (.beforeTerminator ⟨g,true,0⟩)
  functionCount : m'.functionCount = m.functionCount
  functions : m'.functions = m.functions
  blocks : m.currentBlock = none → ∀ block : BasicBlock, block.function ≠ g →
    m'.blocks block = m.blocks block
  namespaceMgr : m'.namespaceMgr = m.namespaceMgr

theorem setCurrentDebugLoc_hasCodeGen (m : Module) (loc : Option DebugLoc) :
    (m.setCurrentDebugLoc loc).hasCodeGen = m.hasCodeGen := by
  show (m.llvmIrBuilder.map _).isSome = _
  rw [Option.isSome_map]
  rfl

theorem setCurrentBlock_currentBlock (m : Module) (block : Option BasicBlock) :
    (m.setCurrentBlock block).currentBlock = block := by
  unfold currentBlock
  rw [setCurrentBlock_managers]

theorem setCurrentBlock_currentFunction (m : Module) (block : Option BasicBlock) :
    (m.setCurrentBlock block).currentFunction = m.currentFunction := by
  unfold currentFunction
  rw [setCurrentBlock_managers]

theorem setAllocaBlock_allocaInsertPoint (m : Module) (block : BasicBlock)
    (hcode : m.hasCodeGen = true) :
    (m.setAllocaBlock block).allocaInsertPoint = some (.beforeTerminator block) := by
  unfold hasCodeGen at hcode
  obtain ⟨builder,hbuilder⟩ := Option.isSome_iff_exists.mp hcode
  unfold setAllocaBlock allocaInsertPoint
  rw [hbuilder]
  rfl

theorem setAllocaBlock_hasCodeGen (m : Module) (block : BasicBlock) :
    (m.setAllocaBlock block).hasCodeGen = m.hasCodeGen := by
  show (m.llvmIrBuilder.map _).isSome = _
  rw [Option.isSome_map]
  rfl

theorem enterFunction_entered (m : Module) (g : Function) : Entered g m (m.enterFunction g) := by
  set first := (m.withCurrentFunction (some g)).setCurrentDebugLoc none with hfirst
  set second := first.setCurrentBlock (some ⟨g,true,0⟩) with hsecond
  obtain ⟨blocks,hterminate,hother⟩ := terminateBlock_eq second
  set third := second.terminateBlock.setCurrentBlock (some ⟨g,true,1⟩) with hthird
  have heq : m.enterFunction g = third.setAllocaBlock ⟨g,true,0⟩ := rfl
  have hrest := setCurrentBlock_sameRest first (some ⟨g,true,0⟩)
  have hrest' := setCurrentBlock_sameRest second.terminateBlock (some ⟨g,true,1⟩)
  rw [← hsecond] at hrest
  rw [← hthird] at hrest'
  have hterminated : second.terminateBlock = { second with blocks } := hterminate
  have hcode : third.hasCodeGen = m.hasCodeGen := by
    rw [hrest'.hasCodeGen,hterminated]
    show second.hasCodeGen = _
    rw [hrest.hasCodeGen,hfirst,setCurrentDebugLoc_hasCodeGen]
    rfl
  have hblock : second.currentBlock = some ⟨g,true,0⟩ := setCurrentBlock_currentBlock _ _
  rw [heq]
  constructor
  · show third.currentFunction = _
    rw [hthird,setCurrentBlock_currentFunction,hterminated]
    show second.currentFunction = _
    rw [hsecond,setCurrentBlock_currentFunction]
    rfl
  · exact setCurrentBlock_currentBlock _ _
  · exact (setAllocaBlock_hasCodeGen _ _).trans hcode
  · intro hcode'
    rw [setAllocaBlock_hasCodeGen] at hcode'
    exact setAllocaBlock_allocaInsertPoint _ _ hcode'
  · show third.functionCount = _
    rw [hrest'.functionCount,hterminated]
    exact hrest.functionCount
  · show third.functions = _
    rw [hrest'.functions,hterminated]
    exact hrest.functions
  · intro hnone block hne
    have hfirstBlock : first.currentBlock = none := hnone
    show third.blocks block = _
    rw [hthird,setCurrentBlock_blocks,hterminated]
    · show blocks block = _
      rw [hother,hsecond,setCurrentBlock_blocks]
      · rfl
      · rw [hfirstBlock]
        exact fun h => nomatch h
      · rw [hblock]
        exact fun h => hne (congrArg BasicBlock.function (Option.some.inj h)).symm
    · rw [hterminated]
      show second.currentBlock ≠ _
      rw [hblock]
      exact fun h => hne (congrArg BasicBlock.function (Option.some.inj h)).symm
  · show third.namespaceMgr = _
    rw [hrest'.namespaceMgr,hterminated]
    exact hrest.namespaceMgr

theorem enterUnsafeRgn_eq (m : Module) (decl : FunctionDecl) :
    ∃ operatorMgr, m.enterUnsafeRgn decl =
      { m with managers := { m.managers with operatorMgr } } := by
  unfold enterUnsafeRgn
  split
  · exact ⟨_,rfl⟩
  · exact ⟨m.managers.operatorMgr,rfl⟩

theorem leaveUnsafeRgn_eq (m : Module) (decl : FunctionDecl) :
    ∃ operatorMgr, m.leaveUnsafeRgn decl =
      { m with managers := { m.managers with operatorMgr } } := by
  unfold leaveUnsafeRgn
  split
  · exact ⟨_,rfl⟩
  · exact ⟨m.managers.operatorMgr,rfl⟩

/-- After the prologue the body starts in a block of its own, in the scope of the function. -/
structure Begun (g : Function) (decl : FunctionDecl) (m m' : Module) : Prop where
  compiling : Compiling g m'
  kept : m.currentBlock = none → Kept g m m'
  region : Over IsBase (⟨decl.parentNamespace,none,.public⟩ :: m.namespaceMgr.frames)
    m'.namespaceMgr.frames

theorem prologue_begun (hcreated : g < m.functionCount) : Begun g decl m (m.prologue g decl) := by
  have hentered := enterFunction_entered m g
  set entered := m.enterFunction g with hset
  set opened := entered.openFunctionScope g decl with hopened
  obtain ⟨operatorMgr,hregion⟩ := enterUnsafeRgn_eq opened decl
  set written := (opened.enterUnsafeRgn decl).write decl.arguments with hwritten
  have hrest : written = { opened with managers := written.managers } := by
    rw [hwritten,hregion]
    rfl
  have hfunction : written.currentFunction = some g := by
    rw [hwritten,hregion]
    exact hentered.current
  have hblock : written.currentBlock = some ⟨g,true,1⟩ := by
    rw [hwritten,hregion]
    exact hentered.currentBlock
  obtain ⟨blocks,hterminate,hother⟩ := terminateBlock_eq written
  have hterminated : written.terminateBlock = { written with blocks } := hterminate
  have hcount : written.functionCount = m.functionCount := by
    rw [hrest]
    exact hentered.functionCount
  have hallocas : written.hasCodeGen = true →
      written.allocaInsertPoint = some (.beforeTerminator ⟨g,true,0⟩) := by
    rw [hrest]
    exact hentered.allocaInsertPoint
  have hbegun : Stepped g written.terminateBlock (written.jump ⟨g,false,0⟩) := by
    refine setCurrentBlock_stepped ?_ ?_ ?_ ?_ ?_
    · rw [hterminated]
      exact hfunction
    · rw [hterminated]
      show g < written.functionCount
      rw [hcount]
      exact hcreated
    · intro _
      refine .inr ⟨⟨g,true,1⟩,?_,rfl,by simp⟩
      rw [hterminated]
      exact hblock
    · rw [hterminated]
      exact hallocas
    · intro block _ hcurrent
      rw [hterminated] at hcurrent
      have hsome : some (⟨g,true,1⟩ : BasicBlock) = some block := hblock.symm.trans hcurrent
      rw [← Option.some.inj hsome]
  refine ⟨hbegun.compiling,?_,?_⟩
  · intro hnone
    have hkept : Kept g m written.terminateBlock := by
      rw [hterminated]
      refine ⟨hcount.ge,?_,?_⟩
      · intro h _ hne
        show written.functions h = _
        rw [hrest]
        show Function.update entered.functions g _ h = _
        rw [Function.update_of_ne hne,hentered.functions]
      · intro block _ hne
        show blocks block = _
        rw [hother block,hrest]
        · exact hentered.blocks hnone block hne
        · rw [hblock]
          exact fun h => hne (congrArg BasicBlock.function (Option.some.inj h)).symm
    exact hkept.trans hbegun.kept
  · have hframes : (m.prologue g decl).namespaceMgr = opened.namespaceMgr := by
      refine hbegun.namespaceMgr.trans ?_
      rw [hterminated,hrest]
    rw [hframes,← hentered.namespaceMgr]
    refine Over.bottom ?_
    intro scope hscope
    cases hscope
    exact ⟨rfl,rfl⟩

/-- What is left of a compilation, complete or not. -/
structure Compiled (g : Function) (base : List NamespaceStackEntry) (o : Outcome) : Prop where
  frames : o.module.namespaceMgr.frames = base ∨ Over IsBase base o.module.namespaceMgr.frames
  block : ∀ block : BasicBlock, o.module.hasCodeGen = true →
    o.module.currentBlock = some block → block.function = g
  nested : ∀ n ∈ o.nested, n.Transparent

theorem Compiling.block (h : Compiling g m) {block : BasicBlock} (hcode : m.hasCodeGen = true)
    (hblock : m.currentBlock = some block) : block.function = g := by
  obtain ⟨⟨i,hcurrent,_⟩,_⟩ := h.inserting hcode
  rw [hcurrent] at hblock
  rw [← Option.some.inj hblock]

theorem resetFieldVariables_eq (m : Module) (function : Option Function) :
    ∃ llvmValues, m.resetFieldVariables function = { m with llvmValues } := by
  cases function with
  | none => exact ⟨m.llvmValues,rfl⟩
  | some function => exact ⟨_,rfl⟩

theorem restoreFieldVariables_eq (m : Module) (function : Option Function) :
    ∃ llvmValues, m.restoreFieldVariables function = { m with llvmValues } := by
  cases function with
  | none => exact ⟨m.llvmValues,rfl⟩
  | some function => exact ⟨_,rfl⟩

theorem epilogue_compiled {nspace : NamespaceStackEntry} (hbase : base ≠ []) (hnspace : nspace.IsBase)
    (h : Compiling g m) (hover : Over IsBase (nspace :: base) m.namespaceMgr.frames) :
    Compiled g base (m.epilogue g decl) ∧ Kept g m (m.epilogue g decl).module := by
  have hover' : Over IsBase base m.namespaceMgr.frames := hover.trans (.bottom hnspace)
  have hfail : Compiled g base m.fail ∧ Kept g m m.fail.module :=
    ⟨⟨.inr hover',fun _ hcode hblock => h.block hcode hblock,
      fun _ hn => absurd hn List.not_mem_nil⟩,.refl m⟩
  unfold epilogue
  cases m.currentScope with
  | none => exact hfail
  | some scope =>
    dsimp only
    split
    · exact hfail
    · obtain ⟨operatorMgr,hregion⟩ := leaveUnsafeRgn_eq m decl
      obtain ⟨llvmValues,hreset⟩ := resetFieldVariables_eq
        (m.leaveUnsafeRgn decl).closeScope.closeNamespace (some g)
      have heq : ((m.leaveUnsafeRgn decl).finalizeFunction g).namespaceMgr =
          m.namespaceMgr.closeScope.closeNamespace := by
        unfold finalizeFunction finalizeManagers
        rw [hreset,hregion]
        rfl
      have hclosed : Over IsBase base m.namespaceMgr.closeScope.frames := by
        obtain hdone | hopen := NamespaceMgr.closeScope_over (List.cons_ne_nil _ _) hover
        · rw [hdone]
          exact .bottom hnspace
        · exact hopen.trans (.bottom hnspace)
      refine ⟨⟨?_,?_,fun _ hn => absurd hn List.not_mem_nil⟩,?_⟩
      · have hframes := NamespaceMgr.closeNamespace_over hbase hclosed
        rw [← heq] at hframes
        exact hframes
      · intro block _ hblock
        exact nomatch hblock
      · show Kept g m ((m.leaveUnsafeRgn decl).finalizeFunction g)
        unfold finalizeFunction finalizeManagers
        rw [hreset,hregion]
        exact .of_eq rfl rfl rfl

def BodyRan (body : Module → Outcome) : Prop :=
  ∀ (f : Function) (base : List NamespaceStackEntry) (m : Module), base ≠ [] → Compiling f m →
    Over IsBase base m.namespaceMgr.frames → StmtRan f base m (body m)

theorem compileFunction_compiled {body : Module → Outcome} (hbody : BodyRan body)
    (hcreated : g < m.functionCount) (hlaid : m.currentBlock = none ∨ decl.layoutReady = true) :
    Compiled g m.namespaceMgr.frames (m.compileFunction g decl body) ∧
      (m.currentBlock = none → Kept g m (m.compileFunction g decl body).module) := by
  unfold compileFunction
  split
  · rename_i hready
    have hnone : m.currentBlock = none := by
      refine hlaid.resolve_right ?_
      intro htrue
      rw [htrue] at hready
      exact absurd hready (by decide)
    refine ⟨⟨.inl rfl,?_,fun _ hn => absurd hn List.not_mem_nil⟩,fun _ => .refl m⟩
    intro block _ hblock
    exact nomatch hnone.symm.trans hblock
  · have hbegun : Begun g decl m (m.prologue g decl) := prologue_begun hcreated
    set begun := m.prologue g decl
    have hnspace : IsBase ⟨decl.parentNamespace,none,.public⟩ := by
      intro scope hscope
      cases hscope
    have hover : Over IsBase m.namespaceMgr.frames begun.namespaceMgr.frames :=
      hbegun.region.trans (.bottom hnspace)
    dsimp only
    split
    · exact ⟨⟨.inr hover,fun _ hcode hblock => hbegun.compiling.block hcode hblock,
        fun _ hn => absurd hn List.not_mem_nil⟩,hbegun.kept⟩
    · have hran := hbody g _ begun (List.cons_ne_nil _ _) hbegun.compiling hbegun.region
      set o := body begun
      obtain ⟨hend,hkept⟩ : Compiled g m.namespaceMgr.frames (o.module.epilogue g decl) ∧
          Kept g o.module (o.module.epilogue g decl).module :=
        epilogue_compiled NamespaceMgr.frames_ne_nil hnspace hran.compiling hran.region
      unfold Outcome.andThen
      split
      · refine ⟨⟨hend.frames,hend.block,?_⟩,?_⟩
        · intro n hn
          exact (List.mem_append.mp hn).elim (hran.nested n) (hend.nested n)
        · exact fun hnone => ((hbegun.kept hnone).trans hran.kept).trans hkept
      · refine ⟨⟨.inr (hran.region.trans (.bottom hnspace)),?_,hran.nested⟩,?_⟩
        · exact fun _ hcode hblock => hran.compiling.block hcode hblock
        · exact fun hnone => (hbegun.kept hnone).trans hran.kept

theorem captureFunctionCompileContext_managers (m : Module) :
    m.captureFunctionCompileContext.2.managers = {} := by
  show (captureManagers _).managers = _
  unfold captureManagers
  rw [setCurrentBlock_managers]
  rfl

theorem captureFunctionCompileContext_rest (m : Module) :
    SameRest m m.captureFunctionCompileContext.2 := by
  obtain ⟨llvmValues,hreset⟩ := resetFieldVariables_eq m m.currentFunction
  have hrest := setCurrentBlock_sameRest (m.resetFieldVariables m.currentFunction) none
  rw [hreset] at hrest
  show SameRest m (captureManagers _)
  rw [hreset]
  exact ⟨hrest.namespaceMgr,hrest.functionCount,hrest.functions,hrest.hasCodeGen,
    hrest.allocaInsertPoint⟩

theorem captureFunctionCompileContext_blocks (m : Module) {block : BasicBlock}
    (hblock : m.currentBlock ≠ some block) :
    m.captureFunctionCompileContext.2.blocks block = m.blocks block := by
  obtain ⟨llvmValues,hreset⟩ := resetFieldVariables_eq m m.currentFunction
  show (captureManagers _).blocks block = _
  rw [hreset]
  exact setCurrentBlock_blocks { m with llvmValues } none hblock

theorem restoreFunctionCompileContext_eq (m : Module) (context : FunctionCompileContext) :
    ∃ llvmValues, m.restoreFunctionCompileContext context =
      { (m.restoreManagers context).restoreAllocaBlock context.currentFunction with
        llvmValues }.setCurrentBlock context.currentBlock := by
  obtain ⟨llvmValues,heq⟩ := restoreFieldVariables_eq
    ((m.restoreManagers context).restoreAllocaBlock context.currentFunction) context.currentFunction
  refine ⟨llvmValues,?_⟩
  unfold restoreFunctionCompileContext
  rw [heq]

theorem restoreAllocaBlock_managers (m : Module) (function : Option Function) :
    (m.restoreAllocaBlock function).managers = m.managers := by
  cases function <;> rfl

theorem restoreFunctionCompileContext_managers (m : Module) (s : Managers) :
    (m.restoreFunctionCompileContext s.context).managers = s := by
  obtain ⟨llvmValues,heq⟩ := restoreFunctionCompileContext_eq m s.context
  rw [heq,setCurrentBlock_managers]
  cases s.context.currentFunction <;> rfl

structure Restored (m m' : Module) : Prop where
  namespaceMgr : m'.namespaceMgr = m.namespaceMgr
  functionCount : m'.functionCount = m.functionCount
  functions : m'.functions = m.functions
  hasCodeGen : m'.hasCodeGen = m.hasCodeGen
  blocks : ∀ block, m.currentBlock ≠ some block → m'.blocks block = m.blocks block

theorem restoreAllocaBlock_restored (m : Module) (context : FunctionCompileContext)
    (function : Option Function) :
    Restored m ((m.restoreManagers context).restoreAllocaBlock function) := by
  cases function with
  | none => exact ⟨rfl,rfl,rfl,rfl,fun _ _ => rfl⟩
  | some function => exact ⟨rfl,rfl,rfl,setAllocaBlock_hasCodeGen _ _,fun _ _ => rfl⟩

theorem restoreFunctionCompileContext_restored (m : Module) (context : FunctionCompileContext) :
    Restored m (m.restoreFunctionCompileContext context) := by
  obtain ⟨llvmValues,heq⟩ := restoreFunctionCompileContext_eq m context
  have hrestored := restoreAllocaBlock_restored m context context.currentFunction
  set entered : Module :=
    { (m.restoreManagers context).restoreAllocaBlock context.currentFunction with llvmValues }
    with hentered
  have hrest := setCurrentBlock_sameRest entered context.currentBlock
  have hblock : entered.currentBlock = m.currentBlock := by
    show (restoreAllocaBlock _ _).managers.controlFlowMgr.currentBlock = _
    rw [restoreAllocaBlock_managers]
    rfl
  rw [heq]
  refine ⟨hrest.namespaceMgr.trans hrestored.namespaceMgr,
    hrest.functionCount.trans hrestored.functionCount,hrest.functions.trans hrestored.functions,
    hrest.hasCodeGen.trans hrestored.hasCodeGen,?_⟩
  intro block hne
  refine (setCurrentBlock_blocks entered _ ?_).trans (hrestored.blocks block hne)
  rw [hblock]
  exact hne

theorem restoreFunctionCompileContext_inserting {s : Managers} {i : ℕ}
    (hfunction : s.functionMgr.currentFunction = some f)
    (hcurrent : s.controlFlowMgr.currentBlock = some ⟨f,false,i⟩) (hcode : m.hasCodeGen = true)
    (hne : m.currentBlock ≠ some ⟨f,false,i⟩) :
    (m.restoreFunctionCompileContext s.context).insertPoint = some (.endOf ⟨f,false,i⟩) ∧
      (m.restoreFunctionCompileContext s.context).allocaInsertPoint =
        some (.beforeTerminator ⟨f,true,0⟩) := by
  obtain ⟨llvmValues,heq⟩ := restoreFunctionCompileContext_eq m s.context
  have hfunction' : s.context.currentFunction = some f := hfunction
  have hcurrent' : s.context.currentBlock = some ⟨f,false,i⟩ := hcurrent
  rw [heq,hfunction',hcurrent']
  set entered : Module :=
    { (m.restoreManagers s.context).restoreAllocaBlock (some f) with llvmValues }
  have hcode' : entered.hasCodeGen = true := (setAllocaBlock_hasCodeGen _ _).trans hcode
  refine ⟨setCurrentBlock_insertPoint hcode' hne rfl,?_⟩
  rw [(setCurrentBlock_sameRest entered _).allocaInsertPoint]
  exact setAllocaBlock_allocaInsertPoint (m.restoreManagers s.context) _ hcode

theorem Compiled.closeNamespaces {o : Outcome} {mgr : NamespaceMgr}
    (h : Compiled g mgr.frames o) :
    o.module.namespaceMgr.closeNamespaces mgr.namespaceStack.length = mgr := by
  refine NamespaceMgr.frames_injective ?_
  rw [NamespaceMgr.frames_closeNamespaces]
  obtain hdone | hover := h.frames
  · rw [hdone]
    have hstay : ∀ (a : NamespaceStackEntry) (fs : List NamespaceStackEntry),
        Frames.closeTo fs.length (a :: fs) = a :: fs := by
      intro a fs
      cases fs with
      | nil => rfl
      | cons b fs =>
        unfold Frames.closeTo
        exact if_neg (Nat.lt_irrefl _)
    exact hstay _ _
  · exact hover.closeTo_eq

/-- Whatever became of the lambda, the outer function goes on as if nothing had happened. -/
theorem lambdaExpression_ran {body : Module → Outcome} (hbody : BodyRan body) (h : Compiling f m)
    (decl : FunctionDecl) : ExprRan f m (m.lambdaExpression decl body) := by
  unfold lambdaExpression
  split
  · exact (Stepped.refl h).succeed
  · rename_i hcode
    have hcode : m.hasCodeGen = true := by
      cases hc : m.hasCodeGen with
      | true => rfl
      | false =>
        rw [hc] at hcode
        exact absurd rfl hcode
    set before := m.createFunction with hbefore
    have hcreate : Stepped f m before :=
      ⟨h.of_same rfl rfl rfl rfl rfl (Nat.le_succ _),
        ⟨Nat.le_succ _,fun _ _ _ => rfl,fun _ _ _ => rfl⟩,rfl⟩
    unfold compileLambda
    split
    · exact hcreate.fail
    · set start := before.captureFunctionCompileContext.2 with hstart
      have hmanagers : start.managers = {} := captureFunctionCompileContext_managers before
      have hrest := captureFunctionCompileContext_rest before
      rw [← hstart] at hrest
      have hnone : start.currentBlock = none := by
        unfold currentBlock
        rw [hmanagers]
      have hcreated : m.functionCount < start.functionCount := by
        rw [hrest.functionCount]
        exact Nat.lt_succ_self _
      obtain ⟨hcompiled,hkept⟩ : Compiled m.functionCount start.namespaceMgr.frames
            (start.compileFunction m.functionCount decl body) ∧
          (start.currentBlock = none → Kept m.functionCount start
            (start.compileFunction m.functionCount decl body).module) :=
        compileFunction_compiled hbody hcreated (.inl hnone)
      replace hkept := hkept hnone
      set o := start.compileFunction m.functionCount decl body
      rw [hrest.namespaceMgr] at hcompiled
      set closed := o.module.closeNamespaces before.namespaceMgr.namespaceStack.length with hclosed
      have hclosedMgr : closed.namespaceMgr = m.namespaceMgr := hcompiled.closeNamespaces
      set after := closed.restoreFunctionCompileContext before.managers.context with hafter
      have hrestored := restoreFunctionCompileContext_restored closed before.managers.context
      rw [← hafter] at hrestored
      have hafterManagers : after.managers = before.managers :=
        restoreFunctionCompileContext_managers closed before.managers
      obtain ⟨⟨i,hcurrent,hpoint⟩,hallocas⟩ := hcreate.compiling.inserting hcode
      have hne : f ≠ m.functionCount := ne_of_lt h.created
      have hinserts : after.hasCodeGen = true →
          after.insertPoint = some (.endOf ⟨f,false,i⟩) ∧
            after.allocaInsertPoint = some (.beforeTerminator ⟨f,true,0⟩) := by
        intro hafterCode
        have hclosedCode : closed.hasCodeGen = true := hrestored.hasCodeGen.symm.trans hafterCode
        refine restoreFunctionCompileContext_inserting h.current hcurrent hclosedCode ?_
        intro hblock
        exact hne (hcompiled.block _ hclosedCode hblock)
      have hfunctions : ∀ k, k < m.functionCount → after.functions k = m.functions k := by
        intro k hk
        rw [hrestored.functions]
        refine (hkept.functions k (hk.trans hcreated) (ne_of_lt hk)).trans ?_
        rw [hrest.functions]
        rfl
      have hkeptAfter : Kept f m after := by
        refine ⟨?_,fun k hk _ => hfunctions k hk,?_⟩
        · rw [hrestored.functionCount]
          exact le_of_lt (lt_of_lt_of_le hcreated hkept.count)
        · intro block hk hkf
          have hstartBlock : start.blocks block = m.blocks block := by
            refine captureFunctionCompileContext_blocks before ?_
            rw [hcurrent]
            exact fun heq => hkf (congrArg BasicBlock.function (Option.some.inj heq)).symm
          have hclosedBlock : closed.blocks block = m.blocks block :=
            (hkept.blocks block (hk.trans hcreated) (ne_of_lt hk)).trans hstartBlock
          by_cases hclosedCode : closed.hasCodeGen = true
          · refine (hrestored.blocks block ?_).trans hclosedBlock
            intro hblock
            exact ne_of_lt hk (hcompiled.block block hclosedCode hblock)
          · have hfalse : closed.hasCodeGen = false := Bool.eq_false_iff.mpr hclosedCode
            refine Eq.trans ?_ hclosedBlock
            obtain ⟨llvmValues,heq⟩ :=
              restoreFunctionCompileContext_eq closed before.managers.context
            rw [hafter,heq,setCurrentBlock_of_noCode]
            · show (restoreAllocaBlock _ _).blocks block = _
              cases before.managers.context.currentFunction <;> rfl
            · exact (restoreAllocaBlock_restored closed _ _).hasCodeGen.trans hfalse
      have hstepped : Stepped f m after := by
        refine ⟨⟨?_,?_,?_⟩,hkeptAfter,hrestored.namespaceMgr.trans hclosedMgr⟩
        · unfold currentFunction
          rw [hafterManagers]
          exact h.current
        · exact lt_of_lt_of_le h.created hkeptAfter.count
        · intro hafterCode
          obtain ⟨hinsert,halloca⟩ := hinserts hafterCode
          refine ⟨⟨i,?_,hinsert⟩,halloca⟩
          unfold currentBlock
          rw [hafterManagers]
          exact hcurrent
      refine ⟨hstepped,?_⟩
      intro n hn
      obtain hinner | hself := List.mem_append.mp hn
      · exact hcompiled.nested n hinner
      · rw [List.mem_singleton.mp hself]
        exact
          { managers := hafterManagers
            namespaceMgr := hrestored.namespaceMgr.trans hclosedMgr
            insertPoints := fun hafterCode =>
              ⟨(hinserts hafterCode).1.trans hpoint.symm,
                (hinserts hafterCode).2.trans hallocas.symm⟩
            functions := fun k hk => hfunctions k (Nat.lt_of_succ_lt_succ hk)
            startManagers := hmanagers
            startNamespaceMgr := hrest.namespaceMgr }

end Module

end Jancy.Ct.FunctionCompile
