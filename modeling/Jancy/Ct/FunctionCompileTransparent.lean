import Jancy.Ct.FunctionCompileNested

/-! The bodies of functions: whatever they do and wherever they fail, the functions compiled in the
middle of them leave the outer ones alone. -/
namespace Jancy.Ct.FunctionCompile

open Frames (Over)
open NamespaceStackEntry (IsBase)

namespace Module

variable {m m' : Module} {f : Function} {base : List NamespaceStackEntry}

theorem Compiling.withNamespaces (h : Compiling f m) (namespaceMgr : NamespaceMgr)
    (scopeCount : ℕ) : Compiling f { m with namespaceMgr, scopeCount } :=
  h.of_same rfl rfl rfl rfl rfl le_rfl

theorem StmtRan.of_namespaces (h : Compiling f m) {ok : Bool} {namespaceMgr : NamespaceMgr}
    {scopeCount : ℕ} (hover : Over IsBase base namespaceMgr.frames) :
    StmtRan f base m ⟨ok,{ m with namespaceMgr, scopeCount },[]⟩ :=
  ⟨h.withNamespaces namespaceMgr scopeCount,.of_eq rfl rfl rfl,hover,
    fun _ hn => absurd hn List.not_mem_nil⟩

theorem updateCurrentScope_over (u : Scope → Scope)
    (hu : ∀ scope, m.currentScope = some scope →
      scope.isNested = false ∧ scope.isDisposable = false →
        (u scope).isNested = false ∧ (u scope).isDisposable = false)
    (hover : Over IsBase base m.namespaceMgr.frames) :
    Over IsBase base (m.updateCurrentScope u).namespaceMgr.frames := by
  refine hover.exchange (b := { m.namespaceMgr.current with scope := m.currentScope.map u }) ?_
  intro hp scope' hscope'
  obtain ⟨scope,hscope,hmap⟩ := Option.map_eq_some_iff.mp hscope'
  subst hmap
  exact hu scope hscope (hp scope hscope)

theorem propagateFunctionFlag_over (parent : Scope)
    (hover : Over IsBase base m.namespaceMgr.frames) :
    Over IsBase base (m.propagateFunctionFlag parent).namespaceMgr.frames :=
  updateCurrentScope_over _ (fun _ _ h => h) hover

theorem openDisposableScope_ran (h : Compiling f m)
    (hover : Over IsBase base m.namespaceMgr.frames) : StmtRan f base m m.openDisposableScope := by
  unfold openDisposableScope
  cases m.currentScope with
  | none => exact (Stepped.refl h).fail.stmt hover
  | some scope =>
    dsimp only
    split
    · exact (Stepped.refl h).succeed.stmt hover
    · exact .of_namespaces h (propagateFunctionFlag_over (m := m.openScope _) scope (.push _ hover))

theorem openNestedScope_ran (h : Compiling f m) (hover : Over IsBase base m.namespaceMgr.frames)
    (catchAhead finallyAhead : Bool) :
    StmtRan f base m (m.openNestedScope catchAhead finallyAhead) := by
  unfold openNestedScope
  cases m.currentScope with
  | none => exact .of_namespaces h (.push _ hover)
  | some parent =>
    dsimp only
    split
    · exact .of_namespaces h (.push _ hover)
    · exact .of_namespaces h (propagateFunctionFlag_over (m := m.openScope _) parent (.push _ hover))

variable {scope : Scope}

theorem closesParent_of_isAhead (hscope : m.currentScope = some scope)
    (hahead : scope.isAhead = true) : m.namespaceMgr.current.closesParent = false := by
  have hscope' : m.namespaceMgr.current.scope = some scope := hscope
  unfold NamespaceStackEntry.closesParent
  rw [hscope']
  exact ScopeFlags.closesParent_of_isAhead hahead

theorem closeDisposableScope_over (hover : Over IsBase base m.namespaceMgr.frames)
    (hbase : base ≠ []) : Over IsBase base m.closeDisposableScope.namespaceMgr.frames := by
  unfold closeDisposableScope
  cases hscope : m.currentScope with
  | none => exact hover
  | some scope =>
    dsimp only
    split
    · rename_i hdisposable
      have hahead : scope.isAhead = true := by
        unfold ScopeFlags.isAhead
        rw [scope.disposable_finallyAhead hdisposable,Bool.or_true]
      have hclose : m.namespaceMgr.closeScope = m.namespaceMgr.closeNamespace :=
        NamespaceMgr.closeScope_eq_closeNamespace (closesParent_of_isAhead hscope hahead)
      show Over IsBase base m.namespaceMgr.closeScope.frames
      rw [hclose]
      obtain hdone | hopen := NamespaceMgr.closeNamespace_over hbase hover
      · -- the frame of the scope is not the lowest of the region
        have htail := hover.tail (fun hp : IsBase m.namespaceMgr.current => by
          have hfalse := (hp scope hscope).2
          rw [hdisposable] at hfalse
          cases hfalse)
        have hframes : m.namespaceMgr.closeNamespace.frames = m.namespaceMgr.namespaceStack := by
          cases hstack : m.namespaceMgr.namespaceStack with
          | nil =>
            rw [hstack] at htail
            cases htail
          | cons entry stack =>
            unfold NamespaceMgr.closeNamespace
            rw [hstack]
            rfl
        rw [hframes]
        exact htail
      · exact hopen
    · exact hover

/-- A label closes a scope with something ahead, and opens another one in its place. -/
theorem relabel_over (hscope : m.currentScope = some scope) (hahead : scope.isAhead = true)
    (hbase : base ≠ []) (hover : Over IsBase base m.namespaceMgr.frames) (flags : ScopeFlags)
    (u : Scope → Scope) (hu : ∀ opened : Scope, opened.isNested = flags.isNested →
      opened.isDisposable = flags.isDisposable → scope.isNested = false →
        (u opened).isNested = false ∧ (u opened).isDisposable = false) :
    Over IsBase base
      ((m.closeScope.openScope flags).updateCurrentScope u).namespaceMgr.frames := by
  have hclose : m.namespaceMgr.closeScope = m.namespaceMgr.closeNamespace :=
    NamespaceMgr.closeScope_eq_closeNamespace (closesParent_of_isAhead hscope hahead)
  have hscope' : m.namespaceMgr.current.scope = some scope := hscope
  set opened := m.closeScope.openScope flags with hopened
  have hstack : m.namespaceMgr.closeNamespace.frames = m.namespaceMgr.namespaceStack := by
    cases hstack : m.namespaceMgr.namespaceStack with
    | nil =>
      have hover' := hover
      unfold NamespaceMgr.frames at hover'
      rw [hstack] at hover'
      cases hover' with
      | bottom => exact absurd rfl hbase
      | push _ h => cases h
    | cons entry stack =>
      unfold NamespaceMgr.closeNamespace
      rw [hstack]
      rfl
  have hupdated : (opened.updateCurrentScope u).namespaceMgr.frames =
      { opened.namespaceMgr.current with scope := opened.currentScope.map u } ::
        m.namespaceMgr.namespaceStack := by
    rw [← hstack,← hclose]
    rfl
  rw [hupdated]
  refine Over.exchange (a := m.namespaceMgr.current) hover ?_
  intro hp s hs
  have hs' : some (u { flags with
      index := m.closeScope.scopeCount
      isFunction := flags.isFunction || m.closeScope.isFunctionScope }) = some s := hs
  rw [← Option.some.inj hs']
  exact hu _ rfl rfl (hp scope hscope').1

theorem openCatchScope_over (hscope : m.currentScope = some scope) (hahead : scope.isAhead = true)
    (hbase : base ≠ []) (hover : Over IsBase base m.namespaceMgr.frames) :
    Over IsBase base (m.openCatchScope scope).namespaceMgr.frames := by
  refine relabel_over hscope hahead hbase hover _ _ ?_
  intro opened hnested hdisposable hfalse
  refine ⟨?_,hdisposable⟩
  show (opened.isNested || scope.isNested) = false
  rw [hnested,hfalse]
  rfl

theorem openFinallyScope_over {current scope : Scope} (hscope : m.currentScope = some current)
    (hahead : current.isAhead = true) (hnested : current.isNested = scope.isNested)
    (hbase : base ≠ []) (hover : Over IsBase base m.namespaceMgr.frames) :
    Over IsBase base (m.openFinallyScope scope).namespaceMgr.frames := by
  refine relabel_over hscope hahead hbase hover _ _ ?_
  intro opened hopened hdisposable hfalse
  refine ⟨?_,hdisposable⟩
  show (opened.isNested || scope.isNested) = false
  rw [hopened,← hnested,hfalse]
  rfl

theorem isAhead_of_catchAhead (h : scope.catchAhead = true) :
    scope.isAhead = true := by
  unfold ScopeFlags.isAhead
  rw [h,Bool.true_or]

theorem isAhead_of_finallyAhead (h : scope.finallyAhead = true) :
    scope.isAhead = true := by
  unfold ScopeFlags.isAhead
  rw [h,Bool.or_true]

theorem closeDisposableScope_eq (m : Module) :
    ∃ namespaceMgr, m.closeDisposableScope = { m with namespaceMgr } := by
  unfold closeDisposableScope
  split
  · exact ⟨m.namespaceMgr,rfl⟩
  · split
    · exact ⟨_,rfl⟩
    · exact ⟨m.namespaceMgr,rfl⟩

theorem catchScope_ran (h : Compiling f m) (hover : Over IsBase base m.namespaceMgr.frames)
    (hbase : base ≠ []) : StmtRan f base m m.catchScope := by
  unfold catchScope
  cases hscope : m.currentScope with
  | none => exact (Stepped.refl h).fail.stmt hover
  | some scope =>
    dsimp only
    split
    · rename_i hahead
      exact .of_namespaces h
        (openCatchScope_over hscope (isAhead_of_catchAhead hahead) hbase hover)
    · exact (Stepped.refl h).fail.stmt hover

theorem finallyScope_ran (h : Compiling f m) (hover : Over IsBase base m.namespaceMgr.frames)
    (hbase : base ≠ []) : StmtRan f base m m.finallyScope := by
  unfold finallyScope
  cases hscope : m.currentScope with
  | none => exact (Stepped.refl h).fail.stmt hover
  | some scope =>
    dsimp only
    split
    · exact (Stepped.refl h).fail.stmt hover
    · rename_i hlabel
      have hahead : scope.finallyAhead = true := by
        cases hfinally : scope.finallyAhead with
        | true => rfl
        | false =>
          rw [hfinally,Bool.not_false,Bool.or_true] at hlabel
          exact absurd rfl hlabel
      split
      · have hcatch := openCatchScope_over hscope (isAhead_of_finallyAhead hahead) hbase hover
        refine .of_namespaces h (openFinallyScope_over (m := m.openCatchScope scope) rfl ?_ ?_ hbase
          hcatch)
        · refine isAhead_of_finallyAhead ?_
          exact hahead
        · rfl
      · exact .of_namespaces h
          (openFinallyScope_over hscope (isAhead_of_finallyAhead hahead) rfl hbase hover)

theorem StmtRan.afterDisposable {o : Outcome}
    (hran : StmtRan f base m.closeDisposableScope o) : StmtRan f base m o := by
  obtain ⟨namespaceMgr,heq⟩ := closeDisposableScope_eq m
  have hkept : Kept f m m.closeDisposableScope := by
    rw [heq]
    exact .of_eq rfl rfl rfl
  exact ⟨hran.compiling,hkept.trans hran.kept,hran.region,hran.nested⟩

theorem Compiling.closeDisposableScope (h : Compiling f m) :
    Compiling f m.closeDisposableScope := by
  obtain ⟨namespaceMgr,heq⟩ := closeDisposableScope_eq m
  rw [heq]
  exact h.withNamespaces namespaceMgr m.scopeCount

theorem catchLabel_ran (h : Compiling f m) (hover : Over IsBase base m.namespaceMgr.frames)
    (hbase : base ≠ []) (returns : Bool) : StmtRan f base m (m.catchLabel returns) := by
  unfold catchLabel
  cases m.currentScope with
  | none => exact (Stepped.refl h).fail.stmt hover
  | some scope =>
    dsimp only
    split
    · exact (Stepped.refl h).fail.stmt hover
    · exact (catchScope_ran h.closeDisposableScope (closeDisposableScope_over hover hbase)
        hbase).afterDisposable

theorem finallyLabel_ran (h : Compiling f m) (hover : Over IsBase base m.namespaceMgr.frames)
    (hbase : base ≠ []) : StmtRan f base m m.finallyLabel :=
  (finallyScope_ran h.closeDisposableScope (closeDisposableScope_over hover hbase)
    hbase).afterDisposable

theorem closed_over {namespaceMgr : NamespaceMgr} {above : List NamespaceStackEntry}
    (habove : Over IsBase base above)
    (hclosed : namespaceMgr.frames = above ∨ Over IsBase above namespaceMgr.frames) :
    Over IsBase base namespaceMgr.frames := by
  obtain hdone | hopen := hclosed
  · rw [hdone]
    exact habove
  · exact hopen.trans habove

theorem compound_ran (h : Compiling f m) (hover : Over IsBase base m.namespaceMgr.frames)
    (isTry catchAhead finallyAhead : Bool) {body : Module → Outcome} (hbody : BodyRan body) :
    StmtRan f base m ((body (m.openScope { isTry, catchAhead, finallyAhead })).andThen
      fun m => m.closeScope.succeed) := by
  set opened := m.openScope { isTry, catchAhead, finallyAhead } with hopened
  have hbottom : Over IsBase m.namespaceMgr.frames opened.namespaceMgr.frames := by
    refine Over.bottom ?_
    intro scope hscope
    cases hscope
    exact ⟨rfl,rfl⟩
  have hran := hbody f _ opened NamespaceMgr.frames_ne_nil
    (h.withNamespaces opened.namespaceMgr opened.scopeCount) hbottom
  have hopenKept : Kept f m opened := .of_eq rfl rfl rfl
  have hclose := closed_over hover
    (NamespaceMgr.closeScope_over NamespaceMgr.frames_ne_nil hran.region)
  have hall : StmtRan f base opened ((body opened).andThen fun m => m.closeScope.succeed) :=
    hran.andThen (hran.region.trans hover) (.of_namespaces hran.compiling hclose)
  exact ⟨hall.compiling,hopenKept.trans hall.kept,hall.region,hall.nested⟩

theorem namespaceBlock_ran (h : Compiling f m) (hover : Over IsBase base m.namespaceMgr.frames)
    (nspace : Namespace) {body : Module → Outcome} (hbody : BodyRan body) :
    StmtRan f base m ((body (m.openNamespace nspace)).andThen fun m => m.closeNamespace.succeed) := by
  set opened := m.openNamespace nspace with hopened
  have hbottom : Over IsBase m.namespaceMgr.frames opened.namespaceMgr.frames := by
    refine Over.bottom ?_
    intro scope hscope
    cases hscope
  have hran := hbody f _ opened NamespaceMgr.frames_ne_nil
    (h.withNamespaces opened.namespaceMgr opened.scopeCount) hbottom
  have hopenKept : Kept f m opened := .of_eq rfl rfl rfl
  have hclose := closed_over hover
    (NamespaceMgr.closeNamespace_over NamespaceMgr.frames_ne_nil hran.region)
  have hall : StmtRan f base opened ((body opened).andThen fun m => m.closeNamespace.succeed) :=
    hran.andThen (hran.region.trans hover) (.of_namespaces hran.compiling hclose)
  exact ⟨hall.compiling,hopenKept.trans hall.kept,hall.region,hall.nested⟩

theorem processCompileError_stepped (h : Compiling f m) : Stepped f m m.processCompileError := by
  unfold processCompileError
  split
  · refine ⟨⟨h.current,h.created,?_⟩,.of_eq rfl rfl rfl,rfl⟩
    intro hcode
    cases hcode
  · exact .of_same h rfl rfl rfl rfl rfl (.of_eq rfl rfl rfl) rfl

theorem attempt_ran {o : Outcome} (recovers : Bool) (h : StmtRan f base m o) :
    StmtRan f base m (if o.ok then o else ⟨recovers,o.module.processCompileError,o.nested⟩) := by
  split
  · exact h
  · have hstepped := processCompileError_stepped h.compiling
    refine ⟨hstepped.compiling,h.kept.trans hstepped.kept,?_,h.nested⟩
    rw [hstepped.namespaceMgr]
    exact h.region

end Module

open Module

mutual

theorem Expr.exec_ran : ∀ (e : Expr) (f : Function) (m : Module), Compiling f m →
    ExprRan f m (e.exec m)
  | .skip, _, _, h => (Stepped.refl h).succeed
  | .fail, _, _, h => (Stepped.refl h).fail
  | .seq first second, f, m, h => by
    have hfirst := first.exec_ran f m h
    exact hfirst.andThen (second.exec_ran f _ hfirst.stepped.compiling)
  | .write g, _, _, h => (write_stepped h g).succeed
  | .setCurrentBlock i, _, _, h => (setBodyBlock_stepped h i).succeed
  | .jump i, _, _, h => (jumpBody_stepped h i).succeed
  | .visitPrologue g, _, _, h => (visitPrologue_stepped h g).succeed
  | .setSourcePos loc, _, _, h => (setCurrentDebugLoc_stepped h (some loc)).succeed
  | .prepareLlvmValue isTls fieldVariable llvmAlloca, _, _, h =>
    (prepareLlvmValue_stepped h isTls fieldVariable llvmAlloca).succeed
  | .createByRefCaptureVariable outerVariable, _, _, h =>
    (createByRefCaptureVariable_stepped h outerVariable).succeed
  | .parseContext nspace isExpression body, f, _, h =>
    parseContext_ran h nspace isExpression (body.exec_ran f)
  | .lambda decl body, _, _, h => lambdaExpression_ran body.exec_ran h decl

theorem Stmt.exec_ran : ∀ (s : Stmt) (f : Function) (base : List NamespaceStackEntry) (m : Module),
    base ≠ [] → Compiling f m → Over IsBase base m.namespaceMgr.frames →
      StmtRan f base m (s.exec m)
  | .expr e, f, _, m, _, h, hover => (e.exec_ran f m h).stmt hover
  | .seq first second, f, base, m, hbase, h, hover => by
    have hfirst := first.exec_ran f base m hbase h hover
    exact hfirst.andThen hfirst.region (second.exec_ran f base _ hbase hfirst.compiling hfirst.region)
  | .compound isTry catchAhead finallyAhead body, _, _, _, _, h, hover =>
    compound_ran h hover isTry catchAhead finallyAhead body.exec_ran
  | .namespaceBlock nspace body, _, _, _, _, h, hover =>
    namespaceBlock_ran h hover nspace body.exec_ran
  | .disposable, _, _, _, _, h, hover => openDisposableScope_ran h hover
  | .nestedScope catchAhead finallyAhead, _, _, _, _, h, hover =>
    openNestedScope_ran h hover catchAhead finallyAhead
  | .catchLabel returns, _, _, _, hbase, h, hover => catchLabel_ran h hover hbase returns
  | .finallyLabel, _, _, _, hbase, h, hover => finallyLabel_ran h hover hbase
  | .attempt recovers body, f, base, m, hbase, h, hover =>
    attempt_ran recovers (body.exec_ran f base m hbase h hover)

end

/-- Every function compiled while another one is, at whatever depth and with whatever outcome,
starts with the fields of the managers as their constructors set them, and leaves these fields, the
namespaces and the insert points as it found them. -/
theorem nested_transparent (m : Module) (decl : FunctionDecl) (body : Stmt) :
    ∀ n ∈ (m.compileTopLevel decl body).nested, n.Transparent := by
  unfold compileTopLevel
  cases hready : decl.layoutReady with
  | false =>
      intro n hn
      unfold compileFunction at hn
      rw [hready] at hn
      exact absurd hn List.not_mem_nil
  | true =>
      exact (compileFunction_compiled body.exec_ran (Nat.lt_succ_self _) (.inr hready)).1.nested

/-- A lambda in a lambda, in the middle of an unsafe region of a `try`; the inner one fails. -/
theorem nested_transparent_try :
    ∃ n ∈ (({} : Module).compileTopLevel ⟨.declared 1,true,id,true,true,true,true⟩
        (.compound true false false (.seq (.expr (.write fun s =>
            { s with
              operatorMgr.unsafeEnterCount := 5
              controlFlowMgr.emissionLockCount := 1 }))
          (.expr (.lambda ⟨.declared 2,false,id,true,true,true,true⟩
            (.expr (.lambda ⟨.declared 3,false,id,true,true,true,true⟩ (.expr .fail)))))))).nested,
      n.start.managers.controlFlowMgr.emissionLockCount = 0 ∧
        n.after.managers.controlFlowMgr.emissionLockCount = 1 ∧ n.Transparent :=
  ⟨List.getLast _ (by decide),List.getLast_mem _,by decide,by decide,
    nested_transparent _ _ _ _ (List.getLast_mem _)⟩

/-- The first error in the body of a lambda takes the builder away, and with it the insert point;
and the namespaces of a lambda are opened above those of the outer function. -/
theorem nested_not_transparent :
    (¬ ∀ (m : Module) (decl : FunctionDecl) (body : Stmt),
      ∀ n ∈ (m.compileTopLevel decl body).nested, n.after.insertPoint = n.before.insertPoint) ∧
    ¬ ∀ (m : Module) (decl : FunctionDecl) (body : Stmt),
      ∀ n ∈ (m.compileTopLevel decl body).nested, n.start.namespaceMgr = m.namespaceMgr := by
  constructor
  · intro h
    have hrun := h {} ⟨.declared 1,false,id,true,true,true,true⟩
      (.expr (.lambda ⟨.declared 2,false,id,true,true,true,true⟩ (.attempt true (.expr .fail)))) _
      (List.head_mem (by decide))
    revert hrun
    decide
  · intro h
    have hrun := h {} ⟨.declared 1,false,id,true,true,true,true⟩
      (.expr (.lambda ⟨.declared 2,false,id,true,true,true,true⟩ (.expr .skip))) _
      (List.head_mem (by decide))
    revert hrun
    decide

end Jancy.Ct.FunctionCompile
