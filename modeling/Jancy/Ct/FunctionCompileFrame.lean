import Jancy.Ct.FunctionCompileBody
import Mathlib.Order.Nat

/-! What the steps of a compilation keep: of the builder, of the stack of namespaces, and of the
functions that are not the one compiled. -/
namespace Jancy.Ct.FunctionCompile

open Frames (Over)

def NamespaceMgr.frames (mgr : NamespaceMgr) : List NamespaceStackEntry :=
  mgr.current :: mgr.namespaceStack

/-- A frame that was opened on its own, and not over another one by a label or a variable. -/
def NamespaceStackEntry.IsBase (entry : NamespaceStackEntry) : Prop :=
  ∀ scope, entry.scope = some scope → scope.isNested = false ∧ scope.isDisposable = false

theorem NamespaceStackEntry.IsBase.closesParent {entry : NamespaceStackEntry} (h : entry.IsBase) :
    entry.closesParent = false := by
  unfold NamespaceStackEntry.closesParent
  cases hscope : entry.scope with
  | none => rfl
  | some scope =>
    obtain ⟨hnested,hdisposable⟩ := h scope hscope
    show ((scope.isNested || scope.isDisposable) && _) = false
    rw [hnested,hdisposable]
    rfl

theorem ScopeFlags.closesParent_of_isAhead {flags : ScopeFlags} (h : flags.isAhead = true) :
    flags.closesParent = false := by
  unfold ScopeFlags.closesParent
  rw [h,Bool.not_true,Bool.and_false]

namespace NamespaceMgr

variable {mgr mgr' : NamespaceMgr} {base : List NamespaceStackEntry}

theorem frames_injective (h : mgr.frames = mgr'.frames) : mgr = mgr' := by
  cases mgr
  cases mgr'
  obtain ⟨hcurrent,hstack⟩ := List.cons.inj h
  cases hcurrent
  cases hstack
  rfl

theorem frames_ne_nil : mgr.frames ≠ [] := List.cons_ne_nil _ _

theorem frames_closeScope :
    mgr.closeScope.frames = Frames.close NamespaceStackEntry.closesParent mgr.frames := by
  have h : ∀ (stack : List NamespaceStackEntry) (current : NamespaceStackEntry),
      (closeScopes current stack).frames =
        Frames.close NamespaceStackEntry.closesParent (current :: stack) := by
    intro stack
    induction stack with
    | nil => exact fun _ => rfl
    | cons entry stack ih =>
      intro current
      unfold closeScopes Frames.close
      cases current.closesParent with
      | true => exact ih entry
      | false => rfl
  exact h _ _

theorem frames_closeNamespaces (depth : ℕ) :
    (mgr.closeNamespaces depth).frames = Frames.closeTo depth mgr.frames := by
  have h : ∀ (stack : List NamespaceStackEntry) (current : NamespaceStackEntry),
      (closeNamespacesFrom depth current stack).frames =
        Frames.closeTo depth (current :: stack) := by
    intro stack
    induction stack with
    | nil => exact fun _ => rfl
    | cons entry stack ih =>
      intro current
      unfold closeNamespacesFrom Frames.closeTo
      by_cases hdepth : stack.length + 1 > depth
      · rw [if_pos hdepth,if_pos hdepth]
        exact ih entry
      · rw [if_neg hdepth,if_neg hdepth]
        rfl
  exact h _ _

theorem closeNamespace_over (hbase : base ≠ []) (h : Over NamespaceStackEntry.IsBase base mgr.frames) :
    mgr.closeNamespace.frames = base ∨
      Over NamespaceStackEntry.IsBase base mgr.closeNamespace.frames := by
  have hclose : mgr.closeNamespace.frames = Frames.close (fun _ => false) mgr.frames := by
    cases mgr with
    | mk current stack =>
      cases stack with
      | nil => rfl
      | cons entry stack => rfl
  rw [hclose]
  exact h.close (fun _ _ => rfl) hbase

theorem closeScope_over (hbase : base ≠ []) (h : Over NamespaceStackEntry.IsBase base mgr.frames) :
    mgr.closeScope.frames = base ∨ Over NamespaceStackEntry.IsBase base mgr.closeScope.frames := by
  rw [frames_closeScope]
  exact h.close (fun _ hp => hp.closesParent) hbase

theorem closeScope_eq_closeNamespace (h : mgr.current.closesParent = false) :
    mgr.closeScope = mgr.closeNamespace := by
  cases mgr with
  | mk current stack =>
    cases stack with
    | nil => rfl
    | cons entry stack =>
      show closeScopes current (entry :: stack) = _
      unfold closeScopes
      rw [h]
      rfl

end NamespaceMgr

namespace Module

variable {m m' : Module} {f : Function} {block : BasicBlock}

theorem setCurrentBlock_managers (m : Module) (block : Option BasicBlock) :
    (m.setCurrentBlock block).managers =
      { m.managers with
        controlFlowMgr := { m.managers.controlFlowMgr with currentBlock := block } } := by
  unfold setCurrentBlock
  split
  · rename_i h
    subst h
    rfl
  · cases m.llvmIrBuilder with
    | none => rfl
    | some builder => cases m.currentBlock <;> cases block <;> rfl

/-- What stays but for the managers, the builder and the blocks. -/
structure SameRest (m m' : Module) : Prop where
  namespaceMgr : m'.namespaceMgr = m.namespaceMgr
  functionCount : m'.functionCount = m.functionCount
  functions : m'.functions = m.functions
  hasCodeGen : m'.hasCodeGen = m.hasCodeGen
  allocaInsertPoint : m'.allocaInsertPoint = m.allocaInsertPoint

theorem setCurrentBlock_sameRest (m : Module) (block : Option BasicBlock) :
    SameRest m (m.setCurrentBlock block) := by
  unfold setCurrentBlock
  split
  · exact ⟨rfl,rfl,rfl,rfl,rfl⟩
  · cases hbuilder : m.llvmIrBuilder with
    | none => exact ⟨rfl,rfl,rfl,rfl,rfl⟩
    | some builder =>
      cases hprev : m.currentBlock with
      | none =>
        cases block with
        | none => exact ⟨rfl,rfl,rfl,rfl,rfl⟩
        | some block =>
          refine ⟨rfl,rfl,rfl,?_,?_⟩
          · show true = m.llvmIrBuilder.isSome
            rw [hbuilder]
            rfl
          · show builder.allocaInsertPoint = m.llvmIrBuilder.bind _
            rw [hbuilder]
            rfl
      | some prev =>
        cases block with
        | none => exact ⟨rfl,rfl,rfl,rfl,rfl⟩
        | some block =>
          refine ⟨rfl,rfl,rfl,?_,?_⟩
          · show true = m.llvmIrBuilder.isSome
            rw [hbuilder]
            rfl
          · show builder.allocaInsertPoint = m.llvmIrBuilder.bind _
            rw [hbuilder]
            rfl

theorem setCurrentBlock_of_noCode (hcode : m.hasCodeGen = false) (block : Option BasicBlock) :
    m.setCurrentBlock block = m.withCurrentBlock block := by
  unfold setCurrentBlock
  split
  · rename_i h
    subst h
    rfl
  · cases hbuilder : m.llvmIrBuilder with
    | none => rfl
    | some builder =>
      unfold hasCodeGen at hcode
      rw [hbuilder] at hcode
      cases hcode

theorem setCurrentBlock_blocks (m : Module) (block : Option BasicBlock) {other : BasicBlock}
    (hother : m.currentBlock ≠ some other) :
    (m.setCurrentBlock block).blocks other = m.blocks other := by
  unfold setCurrentBlock
  split
  · rfl
  · cases m.llvmIrBuilder with
    | none => rfl
    | some builder =>
      cases hprev : m.currentBlock with
      | none => cases block <;> rfl
      | some prev =>
        have hne : other ≠ prev := by
          intro h
          rw [h] at hother
          exact hother hprev
        cases block with
        | none => exact Function.update_of_ne hne _ _
        | some block => exact Function.update_of_ne hne _ _

theorem setCurrentBlock_insertPoint (hcode : m.hasCodeGen = true)
    (hne : m.currentBlock ≠ some block) (hentry : block.isEntry = false) :
    (m.setCurrentBlock (some block)).insertPoint = some (.endOf block) := by
  unfold setCurrentBlock
  rw [if_neg hne]
  cases hbuilder : m.llvmIrBuilder with
  | none =>
    unfold hasCodeGen at hcode
    rw [hbuilder] at hcode
    cases hcode
  | some builder =>
    show some (blockInsertPoint _ block) = _
    unfold blockInsertPoint
    rw [hentry]
    rfl

theorem terminateBlock_eq (m : Module) : ∃ blocks, m.terminateBlock = { m with blocks } ∧
    ∀ other, m.currentBlock ≠ some other → blocks other = m.blocks other := by
  unfold terminateBlock
  split
  · rename_i block _ hblock
    refine ⟨_,rfl,?_⟩
    intro other hother
    refine Function.update_of_ne ?_ _ _
    intro h
    rw [h] at hother
    exact hother hblock
  · exact ⟨m.blocks,rfl,fun _ _ => rfl⟩

/-- Nothing changes of the functions created so far, but for `f`. -/
structure Kept (f : Function) (m m' : Module) : Prop where
  count : m.functionCount ≤ m'.functionCount
  functions : ∀ g, g < m.functionCount → g ≠ f → m'.functions g = m.functions g
  blocks : ∀ block : BasicBlock, block.function < m.functionCount → block.function ≠ f →
    m'.blocks block = m.blocks block

namespace Kept

theorem refl (m : Module) : Kept f m m := ⟨le_rfl,fun _ _ _ => rfl,fun _ _ _ => rfl⟩

theorem of_eq (hcount : m'.functionCount = m.functionCount) (hfunctions : m'.functions = m.functions)
    (hblocks : m'.blocks = m.blocks) : Kept f m m' :=
  ⟨hcount.ge,fun _ _ _ => by rw [hfunctions],fun _ _ _ => by rw [hblocks]⟩

theorem trans {m'' : Module} (h : Kept f m m') (h' : Kept f m' m'') : Kept f m m'' where
  count := h.count.trans h'.count
  functions := fun g hg hne =>
    (h'.functions g (lt_of_lt_of_le hg h.count) hne).trans (h.functions g hg hne)
  blocks := fun block hblock hne =>
    (h'.blocks block (lt_of_lt_of_le hblock h.count) hne).trans (h.blocks block hblock hne)

end Kept

structure Inserting (f : Function) (m : Module) : Prop where
  insertPoint : ∃ i, m.currentBlock = some ⟨f,false,i⟩ ∧
    m.insertPoint = some (.endOf ⟨f,false,i⟩)
  allocaInsertPoint : m.allocaInsertPoint = some (.beforeTerminator ⟨f,true,0⟩)

structure Compiling (f : Function) (m : Module) : Prop where
  current : m.currentFunction = some f
  created : f < m.functionCount
  inserting : m.hasCodeGen = true → Inserting f m

/-- The step of a body that keeps the namespaces. -/
structure Stepped (f : Function) (m m' : Module) : Prop where
  compiling : Compiling f m'
  kept : Kept f m m'
  namespaceMgr : m'.namespaceMgr = m.namespaceMgr

theorem Stepped.refl (h : Compiling f m) : Stepped f m m := ⟨h,.refl m,rfl⟩

theorem Stepped.trans {m'' : Module} (h : Stepped f m m') (h' : Stepped f m' m'') :
    Stepped f m m'' :=
  ⟨h'.compiling,h.kept.trans h'.kept,h'.namespaceMgr.trans h.namespaceMgr⟩

theorem Compiling.of_same (h : Compiling f m) (hfunction : m'.currentFunction = m.currentFunction)
    (hblock : m'.currentBlock = m.currentBlock) (hcode : m'.hasCodeGen = m.hasCodeGen)
    (hinsert : m'.insertPoint = m.insertPoint)
    (halloca : m'.allocaInsertPoint = m.allocaInsertPoint)
    (hcount : m.functionCount ≤ m'.functionCount) : Compiling f m' := by
  refine ⟨hfunction.trans h.current,lt_of_lt_of_le h.created hcount,?_⟩
  intro hcode'
  obtain ⟨⟨i,hcurrent,hpoint⟩,hallocas⟩ := h.inserting (hcode.symm.trans hcode')
  exact ⟨⟨i,hblock.trans hcurrent,hinsert.trans hpoint⟩,halloca.trans hallocas⟩

theorem Stepped.of_same (h : Compiling f m) (hfunction : m'.currentFunction = m.currentFunction)
    (hblock : m'.currentBlock = m.currentBlock) (hcode : m'.hasCodeGen = m.hasCodeGen)
    (hinsert : m'.insertPoint = m.insertPoint)
    (halloca : m'.allocaInsertPoint = m.allocaInsertPoint) (hkept : Kept f m m')
    (hnamespaces : m'.namespaceMgr = m.namespaceMgr) : Stepped f m m' :=
  ⟨h.of_same hfunction hblock hcode hinsert halloca hkept.count,hkept,hnamespaces⟩

theorem write_stepped (h : Compiling f m) (g : Managers → Managers) : Stepped f m (m.write g) :=
  .of_same h rfl rfl rfl rfl rfl (.of_eq rfl rfl rfl) rfl

theorem setCurrentDebugLoc_stepped (h : Compiling f m) (loc : Option DebugLoc) :
    Stepped f m (m.setCurrentDebugLoc loc) := by
  have hbuilder : ∀ builder : Option LlvmIrBuilder,
      (builder.map ({ · with currentDebugLoc := loc })).isSome = builder.isSome ∧
        (builder.map ({ · with currentDebugLoc := loc })).bind (·.insertPoint) =
          builder.bind (·.insertPoint) ∧
        (builder.map ({ · with currentDebugLoc := loc })).bind (·.allocaInsertPoint) =
          builder.bind (·.allocaInsertPoint) := by
    intro builder
    cases builder <;> exact ⟨rfl,rfl,rfl⟩
  obtain ⟨hcode,hinsert,halloca⟩ := hbuilder m.llvmIrBuilder
  exact .of_same h rfl rfl hcode hinsert halloca (.of_eq rfl rfl rfl) rfl

theorem setCurrentBlock_stepped {i : ℕ} (hcurrent : m.currentFunction = some f)
    (hcreated : f < m.functionCount)
    (hblock : m.hasCodeGen = true →
      m.currentBlock = some ⟨f,false,i⟩ ∧ m.insertPoint = some (.endOf ⟨f,false,i⟩) ∨
        ∃ block : BasicBlock, m.currentBlock = some block ∧ block.function = f ∧
          block ≠ ⟨f,false,i⟩)
    (halloca : m.hasCodeGen = true →
      m.allocaInsertPoint = some (.beforeTerminator ⟨f,true,0⟩))
    (hforeign : ∀ block : BasicBlock, m.hasCodeGen = true → m.currentBlock = some block →
      block.function = f) :
    Stepped f m (m.setCurrentBlock (some ⟨f,false,i⟩)) := by
  have hrest := setCurrentBlock_sameRest m (some ⟨f,false,i⟩)
  have hmanagers := setCurrentBlock_managers m (some ⟨f,false,i⟩)
  refine ⟨⟨?_,?_,?_⟩,⟨hrest.functionCount.ge,?_,?_⟩,hrest.namespaceMgr⟩
  · unfold currentFunction
    rw [hmanagers]
    exact hcurrent
  · rw [hrest.functionCount]
    exact hcreated
  · intro hcode
    rw [hrest.hasCodeGen] at hcode
    refine ⟨⟨i,?_,?_⟩,hrest.allocaInsertPoint.trans (halloca hcode)⟩
    · unfold currentBlock
      rw [hmanagers]
    · obtain ⟨hsame,hpoint⟩ | ⟨block,hother,_,hne⟩ := hblock hcode
      · unfold setCurrentBlock
        rw [if_pos hsame]
        exact hpoint
      · refine setCurrentBlock_insertPoint hcode ?_ rfl
        rw [hother]
        exact fun heq => hne (Option.some.inj heq)
  · intro g _ _
    rw [hrest.functions]
  · intro block hlt hne
    by_cases hcode : m.hasCodeGen = true
    · refine setCurrentBlock_blocks m _ ?_
      intro hother
      exact hne (hforeign block hcode hother)
    · rw [setCurrentBlock_of_noCode (Bool.eq_false_iff.mpr hcode)]
      rfl

end Module

end Jancy.Ct.FunctionCompile

/-! Runs of the body of a function: every function compiled in the middle of it leaves what the
managers keep for the outer function, the namespaces and the insert points as they were. -/
namespace Jancy.Ct.FunctionCompile

open Frames (Over)
open NamespaceStackEntry (IsBase)

/-- The compilation of a function in the middle of another leaves no trace in the other one, nor in
any function created before it. The insert points are those of the builder, as long as there is
one. -/
structure Nesting.Transparent (n : Nesting) : Prop where
  managers : n.after.managers = n.before.managers
  namespaceMgr : n.after.namespaceMgr = n.before.namespaceMgr
  insertPoints : n.after.hasCodeGen = true → n.after.insertPoint = n.before.insertPoint ∧
    n.after.allocaInsertPoint = n.before.allocaInsertPoint
  functions : ∀ g, g + 1 < n.before.functionCount → n.after.functions g = n.before.functions g
  startManagers : n.start.managers = {}
  startNamespaceMgr : n.start.namespaceMgr = n.before.namespaceMgr

namespace Module

variable {m m' : Module} {f g : Function} {base : List NamespaceStackEntry}

theorem setBodyBlock_stepped (h : Compiling f m) (i : ℕ) : Stepped f m (m.setBodyBlock i) := by
  unfold setBodyBlock
  rw [h.current]
  refine setCurrentBlock_stepped h.current h.created ?_ (fun hcode => (h.inserting hcode).2) ?_
  · intro hcode
    obtain ⟨⟨j,hcurrent,hpoint⟩,_⟩ := h.inserting hcode
    by_cases hij : j = i
    · subst hij
      exact .inl ⟨hcurrent,hpoint⟩
    · refine .inr ⟨_,hcurrent,rfl,?_⟩
      intro heq
      exact hij (congrArg BasicBlock.index heq)
  · intro block hcode hblock
    obtain ⟨⟨j,hcurrent,_⟩,_⟩ := h.inserting hcode
    rw [hcurrent] at hblock
    rw [← Option.some.inj hblock]

theorem terminateBlock_stepped (h : Compiling f m) : Stepped f m m.terminateBlock := by
  obtain ⟨blocks,heq,hblocks⟩ := terminateBlock_eq m
  by_cases hcode : m.hasCodeGen = true
  · rw [heq]
    refine .of_same h rfl rfl rfl rfl rfl ⟨le_rfl,fun _ _ _ => rfl,?_⟩ rfl
    intro block _ hne
    refine hblocks block ?_
    obtain ⟨⟨j,hcurrent,_⟩,_⟩ := h.inserting hcode
    rw [hcurrent]
    intro hblock
    exact hne (congrArg BasicBlock.function (Option.some.inj hblock)).symm
  · have hsame : m.terminateBlock = m := by
      unfold terminateBlock
      cases hbuilder : m.llvmIrBuilder with
      | none => rfl
      | some builder =>
        unfold hasCodeGen at hcode
        rw [hbuilder] at hcode
        exact absurd rfl hcode
    rw [hsame]
    exact .refl h

theorem jumpBody_stepped (h : Compiling f m) (i : ℕ) : Stepped f m (m.jumpBody i) := by
  have hterminated := terminateBlock_stepped h
  have heq : m.jumpBody i = m.terminateBlock.setBodyBlock i := by
    unfold jumpBody setBodyBlock jump
    rw [h.current,hterminated.compiling.current]
  rw [heq]
  exact hterminated.trans (setBodyBlock_stepped hterminated.compiling i)

theorem visitPrologue_stepped (h : Compiling f m) (w : Managers → Managers) :
    Stepped f m (m.visitPrologue w) := by
  have heq : m.visitPrologue w =
      ((m.setCurrentBlock (some ⟨f,true,1⟩)).write w).setCurrentBlock m.currentBlock := by
    unfold visitPrologue
    rw [h.current]
  rw [heq]
  set entered := m.setCurrentBlock (some ⟨f,true,1⟩) with hentered
  have hrest := setCurrentBlock_sameRest m (some ⟨f,true,1⟩)
  have hmanagers := setCurrentBlock_managers m (some ⟨f,true,1⟩)
  rw [← hentered] at hrest hmanagers
  have hfunction : (entered.write w).currentFunction = some f := by
    show entered.managers.functionMgr.currentFunction = _
    rw [hmanagers]
    exact h.current
  have hblock : (entered.write w).currentBlock = some ⟨f,true,1⟩ := by
    show entered.managers.controlFlowMgr.currentBlock = _
    rw [hmanagers]
  have hcreated : f < (entered.write w).functionCount := by
    show f < entered.functionCount
    rw [hrest.functionCount]
    exact h.created
  cases hcode : m.hasCodeGen with
  | true =>
    obtain ⟨⟨i,hcurrent,_⟩,halloca⟩ := h.inserting hcode
    rw [hcurrent]
    have hback : Stepped f (entered.write w)
        ((entered.write w).setCurrentBlock (some ⟨f,false,i⟩)) := by
      refine setCurrentBlock_stepped hfunction hcreated ?_ ?_ ?_
      · exact fun _ => .inr ⟨_,hblock,rfl,by simp⟩
      · exact fun _ => hrest.allocaInsertPoint.trans halloca
      · intro block _ hother
        rw [hblock] at hother
        rw [← Option.some.inj hother]
    have hvisit : Kept f m (entered.write w) := by
      refine ⟨hrest.functionCount.ge,fun _ _ _ => congrFun hrest.functions _,?_⟩
      intro block _ hne
      refine setCurrentBlock_blocks m _ ?_
      rw [hcurrent]
      intro hother
      exact hne (congrArg BasicBlock.function (Option.some.inj hother)).symm
    exact ⟨hback.compiling,hvisit.trans hback.kept,
      hback.namespaceMgr.trans hrest.namespaceMgr⟩
  | false =>
    have hcode' : (entered.write w).hasCodeGen = false := hrest.hasCodeGen.trans hcode
    rw [setCurrentBlock_of_noCode hcode']
    have hblocks : entered.blocks = m.blocks := by
      rw [hentered,setCurrentBlock_of_noCode hcode]
      rfl
    refine ⟨⟨hfunction,hcreated,?_⟩,.of_eq hrest.functionCount hrest.functions hblocks,
      hrest.namespaceMgr⟩
    intro htrue
    have hfalse : ((entered.write w).withCurrentBlock m.currentBlock).hasCodeGen = false := hcode'
    rw [hfalse] at htrue
    cases htrue

theorem updateFunction_kept (m : Module) (f : Function) (u : FunctionData → FunctionData) :
    Kept f m (m.updateFunction f u) :=
  ⟨le_rfl,fun _ _ hne => Function.update_of_ne hne _ _,fun _ _ _ => rfl⟩

theorem updateFunction_stepped (h : Compiling f m) (u : FunctionData → FunctionData) :
    Stepped f m (m.updateFunction f u) :=
  .of_same h rfl rfl rfl rfl rfl (updateFunction_kept m f u) rfl

theorem prepareLlvmValue_stepped (h : Compiling f m) (isTls : Bool) (fieldVariable : Variable)
    (llvmAlloca : LlvmValue) : Stepped f m (m.prepareLlvmValue isTls fieldVariable llvmAlloca) := by
  unfold prepareLlvmValue
  rw [h.current]
  cases m.llvmValues fieldVariable with
  | some value => exact .refl h
  | none =>
    refine .of_same h rfl rfl rfl rfl rfl ⟨le_rfl,?_,fun _ _ _ => rfl⟩ rfl
    exact fun _ _ hne => Function.update_of_ne hne _ _

theorem createByRefCaptureVariable_stepped (h : Compiling f m) (outerVariable : Variable) :
    Stepped f m (m.createByRefCaptureVariable outerVariable) := by
  unfold createByRefCaptureVariable
  rw [h.current]
  exact updateFunction_stepped h _

/-- What the run of an expression keeps. -/
structure ExprRan (f : Function) (m : Module) (o : Outcome) : Prop where
  stepped : Stepped f m o.module
  nested : ∀ n ∈ o.nested, n.Transparent

/-- What the run of a statement keeps: the scopes that it leaves open are above those of `base`. -/
structure StmtRan (f : Function) (base : List NamespaceStackEntry) (m : Module) (o : Outcome) :
    Prop where
  compiling : Compiling f o.module
  kept : Kept f m o.module
  region : Over IsBase base o.module.namespaceMgr.frames
  nested : ∀ n ∈ o.nested, n.Transparent

theorem Stepped.succeed (h : Stepped f m m') : ExprRan f m m'.succeed :=
  ⟨h,fun _ hn => absurd hn List.not_mem_nil⟩

theorem Stepped.fail (h : Stepped f m m') : ExprRan f m m'.fail :=
  ⟨h,fun _ hn => absurd hn List.not_mem_nil⟩

theorem ExprRan.stmt {o : Outcome} (h : ExprRan f m o)
    (hover : Over IsBase base m.namespaceMgr.frames) : StmtRan f base m o := by
  refine ⟨h.stepped.compiling,h.stepped.kept,?_,h.nested⟩
  rw [h.stepped.namespaceMgr]
  exact hover

theorem ExprRan.andThen {o : Outcome} {next : Module → Outcome} (h : ExprRan f m o)
    (hnext : ExprRan f o.module (next o.module)) : ExprRan f m (o.andThen next) := by
  unfold Outcome.andThen
  split
  · refine ⟨h.stepped.trans hnext.stepped,?_⟩
    intro n hn
    exact (List.mem_append.mp hn).elim (h.nested n) (hnext.nested n)
  · exact h

theorem StmtRan.andThen {o : Outcome} {next : Module → Outcome} {above : List NamespaceStackEntry}
    (h : StmtRan f above m o) (hover : Over IsBase base o.module.namespaceMgr.frames)
    (hnext : StmtRan f base o.module (next o.module)) : StmtRan f base m (o.andThen next) := by
  unfold Outcome.andThen
  split
  · refine ⟨hnext.compiling,h.kept.trans hnext.kept,hnext.region,?_⟩
    intro n hn
    exact (List.mem_append.mp hn).elim (h.nested n) (hnext.nested n)
  · exact ⟨h.compiling,h.kept,hover,h.nested⟩

theorem parseContext_ran (h : Compiling f m) (nspace : Namespace) (isExpression : Bool)
    {body : Module → Outcome} (hbody : ∀ m, Compiling f m → ExprRan f m (body m)) :
    ExprRan f m ((body (m.enterParseContext nspace isExpression)).afterwards
      (m.leaveParseContext nspace)) := by
  set entered := m.enterParseContext nspace isExpression with hentered
  have hopen : entered = { m.setCurrentReactor none with namespaceMgr := entered.namespaceMgr } := by
    rw [hentered]
    unfold enterParseContext openNamespaceIf
    split <;> rfl
  have hcompiling : Compiling f entered := by
    rw [hopen]
    exact h.of_same rfl rfl rfl rfl rfl le_rfl
  have hkept : Kept f m entered := by
    rw [hopen]
    exact .of_eq rfl rfl rfl
  obtain ⟨⟨hinside,hran,hnamespaces⟩,hnested⟩ := hbody entered hcompiling
  set o := body entered
  refine ⟨⟨?_,?_,?_⟩,hnested⟩
  · show Compiling f (m.leaveParseContext nspace o.module)
    unfold leaveParseContext
    split
    · exact hinside.of_same rfl rfl rfl rfl rfl le_rfl
    · exact hinside.of_same rfl rfl rfl rfl rfl le_rfl
  · show Kept f m (m.leaveParseContext nspace o.module)
    refine (hkept.trans hran).trans ?_
    unfold leaveParseContext
    split
    · exact .of_eq rfl rfl rfl
    · exact .of_eq rfl rfl rfl
  · show (m.leaveParseContext nspace o.module).namespaceMgr = m.namespaceMgr
    unfold leaveParseContext
    by_cases hsame : m.namespaceMgr.current.nspace = nspace
    · rw [if_pos hsame]
      refine hnamespaces.trans ?_
      rw [hentered]
      unfold enterParseContext openNamespaceIf
      show Module.namespaceMgr (if m.namespaceMgr.current.nspace = nspace then _ else _) = _
      rw [if_pos hsame]
      rfl
    · rw [if_neg hsame]
      show o.module.namespaceMgr.closeNamespace = _
      rw [hnamespaces,hentered]
      unfold enterParseContext openNamespaceIf
      show NamespaceMgr.closeNamespace
        (Module.namespaceMgr (if m.namespaceMgr.current.nspace = nspace then _ else _)) = _
      rw [if_neg hsame]
      rfl

end Module

end Jancy.Ct.FunctionCompile
