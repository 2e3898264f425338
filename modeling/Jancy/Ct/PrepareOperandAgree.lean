import Jancy.Ct.PrepareOperand

/-! Both loops of the preparation end, and the exact values on which they end with one type. -/
namespace Jancy.Ct.PrepareOperand

variable {V D : Type} {module : Module V D} {opFlags : OpFlags} {value value' : Value V D}

section References

/-- The reference is replaced by its target in both tables. -/
def OpFlags.loadsRef (opFlags : OpFlags) (targetType : Ty) : Bool :=
  !opFlags.keepDataRef &&
    match targetType with
    | .derivable .. => !opFlags.keepDerivableRef
    | .variant => !opFlags.keepVariantRef
    | .string => !opFlags.keepStringRef
    | .array .. => opFlags.loadArrayRef
    | _ => true

/-- The type of a reference that is not loaded. -/
def OpFlags.keptRefType (opFlags : OpFlags) (targetType : Ty) (flags : ℕ) : Ty :=
  match targetType with
  | .array elementType _ =>
      if opFlags.arrayRefToPtr ∧ opFlags.keepDataRef = false then .dataPtr elementType flags
      else .dataRef targetType flags
  | _ => .dataRef targetType flags

theorem keptRefType_cases (opFlags : OpFlags) (targetType : Ty) (flags : ℕ) :
    opFlags.keptRefType targetType flags = .dataRef targetType flags ∨
      ∃ elementType,opFlags.keptRefType targetType flags = .dataPtr elementType flags := by
  unfold OpFlags.keptRefType
  cases targetType <;> grind

variable {targetType : Ty} {flags : ℕ}

theorem typeDataRef_cases (htype : value.type = .dataRef targetType flags)
    (hstep : prepareOperandTypeDataRef module opFlags value targetType flags = some value') :
    opFlags.loadsRef targetType = true ∧ value' = .ofType targetType ∨
      opFlags.loadsRef targetType = false ∧ value'.type = opFlags.keptRefType targetType flags := by
  unfold prepareOperandTypeDataRef at hstep
  unfold OpFlags.loadsRef OpFlags.keptRefType
  cases targetType <;> grind [Value.ofType]

theorem loadDataRef_eq_some (hload : loadDataRef module value targetType = some value') :
    ∃ content,value' = .ofContent targetType content := by
  obtain ⟨content,-,rfl⟩ := Option.map_eq_some_iff.1 hload
  exact ⟨content,rfl⟩

theorem dataRef_cases (htype : value.type = .dataRef targetType flags)
    (hstep : prepareOperandDataRef module opFlags value targetType flags = some value') :
    opFlags.loadsRef targetType = true ∧ (∃ content,value' = .ofContent targetType content) ∨
      opFlags.loadsRef targetType = false ∧ value'.type = opFlags.keptRefType targetType flags := by
  unfold prepareOperandDataRef at hstep
  unfold OpFlags.loadsRef OpFlags.keptRefType
  have hload := @loadDataRef_eq_some V D module value value' targetType
  cases targetType <;> grind [Value.ofContent]

theorem typeDataRef_isSome (other : Value V D)
    (hstep : prepareOperandDataRef module opFlags value targetType flags = some value') :
    (prepareOperandTypeDataRef module opFlags other targetType flags).isSome := by
  unfold prepareOperandDataRef at hstep
  unfold prepareOperandTypeDataRef
  split at hstep
  · cases hstep
  · rename_i hready
    rw [if_neg hready]
    cases targetType <;> grind

end References

section Properties

def ValueKind.isAutoGet : ValueKind → Bool
  | .property (some _) => true
  | _ => false

variable {getterArgs : List ℕ} {returnType : Ty} {isBindable : Bool}

theorem typePropertyRef_cases
    (hstep : prepareOperandTypePropertyRef module opFlags value getterArgs returnType = some value') :
    opFlags.keepPropertyRef = true ∧ value' = value ∨
      opFlags.keepPropertyRef = false ∧ ∃ args,closureAwareArgs module value getterArgs = some args ∧
        value' = if args = [] then .ofType returnType else value := by
  unfold prepareOperandTypePropertyRef at hstep
  split at hstep
  · rename_i hkeep
    exact .inl ⟨hkeep,(Option.some.inj hstep).symm⟩
  · rename_i hkeep
    obtain ⟨args,hargs,rfl⟩ := Option.map_eq_some_iff.1 hstep
    exact .inr ⟨eq_false_of_ne_true hkeep,args,hargs,rfl⟩

theorem propertyRef_cases
    (hstep : prepareOperandPropertyRef module opFlags value getterArgs returnType isBindable =
      some value') :
    opFlags.keepPropertyRef = true ∧ value' = value ∨
      opFlags.keepPropertyRef = false ∧ ∃ args,closureAwareArgs module value getterArgs = some args ∧
        (args ≠ [] ∧ value' = value ∨
          args = [] ∧ getProperty module value returnType = some value') := by
  unfold prepareOperandPropertyRef at hstep
  split at hstep
  · rename_i hkeep
    exact .inl ⟨hkeep,(Option.some.inj hstep).symm⟩
  · rename_i hkeep
    obtain ⟨args,hargs,hstep⟩ := Option.bind_eq_some_iff.1 hstep
    exact .inr ⟨eq_false_of_ne_true hkeep,args,hargs,by grind⟩

theorem getProperty_cases (hstep : getProperty module value returnType = some value') :
    value.kind.isAutoGet = true ∧
        (∃ flags content,value' = .ofContent (.dataRef returnType flags) content) ∨
      value.kind.isAutoGet = false ∧ ∃ content,value' = .ofContent returnType content := by
  unfold getProperty at hstep
  cases hkind : value.kind with
  | property autoGet =>
    cases autoGet with
    | some flags =>
      simp only [hkind] at hstep
      obtain ⟨content,-,rfl⟩ := Option.map_eq_some_iff.1 hstep
      exact .inl ⟨rfl,flags,content,rfl⟩
    | none =>
      simp only [hkind] at hstep
      obtain ⟨content,-,rfl⟩ := Option.map_eq_some_iff.1 hstep
      exact .inr ⟨rfl,content,rfl⟩
  | _ =>
    simp only [hkind] at hstep
    obtain ⟨content,-,rfl⟩ := Option.map_eq_some_iff.1 hstep
    exact .inr ⟨rfl,content,rfl⟩

end Properties

section Termination

/-- What is left to unwrap. -/
def Ty.weight : Ty → ℕ
  | .array elementType _ => elementType.weight + 1
  | .enum _ rootType => rootType.weight + 1
  | .dataRef targetType _ => targetType.weight + 2
  | .classRef .. => 1
  | .functionRef .. => 1
  | .propertyRef _ returnType _ _ => returnType.weight + 3
  | .importType _ actualType => actualType.weight + 1
  | .typedefShadow type => type.weight + 1
  | _ => 0

def Value.weight (value : Value V D) : ℕ := value.type.weight

theorem weight_keptRefType (targetType : Ty) (flags : ℕ) :
    opFlags.keptRefType targetType flags = .dataRef targetType flags ∨
      (opFlags.keptRefType targetType flags).weight < (Ty.dataRef targetType flags).weight := by
  obtain hsame | ⟨elementType,hptr⟩ := keptRefType_cases opFlags targetType flags
  · exact .inl hsame
  · rw [hptr]
    exact .inr (Nat.succ_pos _)

theorem weight_of_typeFunc (hstep : prepareOperandTypeFunc module opFlags value = some value') :
    value'.type = value.type ∨ value'.weight < value.weight := by
  unfold prepareOperandTypeFunc at hstep
  unfold Value.weight
  cases htype : value.type with
  | dataRef targetType flags =>
    rw [htype] at hstep
    obtain ⟨-,rfl⟩ | ⟨-,hkept⟩ := typeDataRef_cases htype hstep
    · exact .inr (Nat.lt_add_of_pos_right Nat.two_pos)
    · rw [hkept]
      exact weight_keptRefType targetType flags
  | propertyRef getterArgs returnType isBindable flags =>
    rw [htype] at hstep
    obtain ⟨-,rfl⟩ | ⟨-,args,-,rfl⟩ := typePropertyRef_cases hstep
    · exact .inl htype
    · grind [Ty.weight,Value.ofType]
  | _ =>
    rw [htype] at hstep
    simp only [prepareOperandEnum,prepareOperandDataPtr,prepareOperandClassPtr,
      prepareOperandClassRef,prepareOperandImport,prepareOperandTypedef,
      prepareOperandNop] at hstep
    grind [Ty.weight,Value.overrideType]

theorem weight_of_func (hstep : prepareOperandFunc module opFlags value = some value') :
    value'.type = value.type ∨ value'.weight < value.weight := by
  unfold prepareOperandFunc at hstep
  unfold Value.weight
  cases htype : value.type with
  | dataRef targetType flags =>
    rw [htype] at hstep
    obtain ⟨-,_,rfl⟩ | ⟨-,hkept⟩ := dataRef_cases htype hstep
    · exact .inr (Nat.lt_add_of_pos_right Nat.two_pos)
    · rw [hkept]
      exact weight_keptRefType targetType flags
  | propertyRef getterArgs returnType isBindable flags =>
    rw [htype] at hstep
    obtain ⟨-,rfl⟩ | ⟨-,args,-,⟨-,rfl⟩ | ⟨-,hget⟩⟩ := propertyRef_cases hstep
    · exact .inl htype
    · exact .inl htype
    · obtain ⟨-,_,_,rfl⟩ | ⟨-,_,rfl⟩ := getProperty_cases hget
      · exact .inr (Nat.lt_succ_self _)
      · exact .inr (Nat.lt_add_of_pos_right (Nat.succ_pos 2))
  | _ =>
    rw [htype] at hstep
    simp only [prepareOperandEnum,prepareOperandDataPtr,prepareOperandClassPtr,
      prepareOperandClassRef,prepareOperandFunctionRef,prepareOperandImport,
      prepareOperandNop] at hstep
    grind [Ty.weight,Value.overrideType]

theorem turn_eq_some {func : Value V D → Option (Value V D)}
    (hturn : turn module func value = some value') :
    module.ensureLayout value.type = true ∧ func value = some value' := by
  unfold turn at hturn
  split at hturn
  next hlayout => exact ⟨hlayout,hturn⟩
  next => cases hturn

theorem typeTurn_decreases :
    Stable.Decreases Value.type (turn module (prepareOperandTypeFunc module opFlags))
      Value.weight := by
  intro value value' hturn hne
  exact (weight_of_typeFunc (turn_eq_some hturn).2).resolve_left hne

theorem turn_decreases :
    Stable.Decreases Value.type (turn module (prepareOperandFunc module opFlags)) Value.weight := by
  intro value value' hturn hne
  exact (weight_of_func (turn_eq_some hturn).2).resolve_left hne

end Termination

section Results

variable (module opFlags)

def typeResult : Value V D → Option (Value V D) :=
  Stable.result Value.type (turn module (prepareOperandTypeFunc module opFlags)) Value.weight

def valueResult : Value V D → Option (Value V D) :=
  Stable.result Value.type (turn module (prepareOperandFunc module opFlags)) Value.weight

/-- The loop over types ends with the type of a result of the loop over values. -/
def SameType (value result : Value V D) : Prop :=
  ∃ typeResult',typeResult module opFlags value = some typeResult' ∧ typeResult'.type = result.type

variable {module opFlags}

theorem weight_typeResult (hresult : typeResult module opFlags value = some value') :
    value'.weight ≤ value.weight := by
  refine Stable.size_result_le typeTurn_decreases (fun value value' hturn => ?_) hresult
  obtain hsame | hlt := weight_of_typeFunc (turn_eq_some hturn).2
  · exact Nat.le_of_eq (congrArg Ty.weight hsame)
  · exact Nat.le_of_lt hlt

theorem typeResult_of_func (hlayout : module.ensureLayout value.type = true)
    (hfunc : prepareOperandTypeFunc module opFlags value = some value') :
    typeResult module opFlags value =
      if value'.type = value.type then some value' else typeResult module opFlags value' := by
  refine Stable.result_of_step typeTurn_decreases ?_
  unfold turn
  rw [if_pos hlayout,hfunc]

variable {result : Value V D}

theorem func_of_valueResult (hresult : valueResult module opFlags value = some result) :
    module.ensureLayout value.type = true ∧
      ∃ value',prepareOperandFunc module opFlags value = some value' ∧
        if value'.type = value.type then value' = result
        else valueResult module opFlags value' = some result := by
  obtain ⟨value',hturn,hnext⟩ := Stable.step_of_result turn_decreases hresult
  obtain ⟨hlayout,hfunc⟩ := turn_eq_some hturn
  exact ⟨hlayout,value',hfunc,hnext⟩

theorem typeResult_type
    (hfunc : ∀ value',prepareOperandTypeFunc module opFlags value = some value' →
      value'.type = value.type) (hresult : typeResult module opFlags value = some result) :
    result.type = value.type := by
  obtain ⟨value',hturn,hnext⟩ := Stable.step_of_result typeTurn_decreases hresult
  have hsame := hfunc value' (turn_eq_some hturn).2
  rw [if_pos hsame] at hnext
  exact hnext ▸ hsame

theorem valueResult_type (hfunc : ∀ value',prepareOperandFunc module opFlags value = some value' →
      value'.type = value.type) (hresult : valueResult module opFlags value = some result) :
    result.type = value.type := by
  obtain ⟨-,value',hvalue',hnext⟩ := func_of_valueResult hresult
  have hsame := hfunc value' hvalue'
  rw [if_pos hsame] at hnext
  exact hnext ▸ hsame

theorem sameType_of_step {value₁ value₁' value₂ value₂' result : Value V D} {agrees : Prop}
    (hlayout : module.ensureLayout value₂.type = true) (htype : value₁.type = value₂.type)
    (hfunc : prepareOperandTypeFunc module opFlags value₁ = some value₁')
    (htype' : value₁'.type = value₂'.type)
    (hnext : if value₂'.type = value₂.type then value₂' = result
      else valueResult module opFlags value₂' = some result)
    (hend : value₂'.type = value₂.type → agrees)
    (hstep : value₂'.type ≠ value₂.type → valueResult module opFlags value₂' = some result →
      (SameType module opFlags value₁' result ↔ agrees)) :
    SameType module opFlags value₁ result ↔ agrees := by
  have hresult := typeResult_of_func (htype ▸ hlayout) hfunc
  unfold SameType
  rw [hresult,htype',htype]
  by_cases hsame : value₂'.type = value₂.type
  · rw [if_pos hsame] at hnext ⊢
    exact iff_of_true ⟨_,rfl,htype'.trans (hnext ▸ rfl)⟩ (hend hsame)
  · rw [if_neg hsame] at hnext ⊢
    exact hstep hsame hnext

end Results

section Agreement

def CoversArgs (closure : Option (Closure Ty V)) (getterArgs : List ℕ) : Prop :=
  match closure with
  | none => getterArgs = []
  | some closure => closure.getArgTypeArray (fun _ _ => .ok ()) getterArgs = .ok []

/-- Both loops end with one type: a reference to a function is kept, there is no shadow of a
typedef, and the reference to an autoget field is loaded. -/
def TypeAgrees (opFlags : OpFlags) : ValueKind → Option (Closure Ty V) → Ty → Prop
  | kind,closure,.enum _ rootType =>
      opFlags.keepEnum = false → TypeAgrees opFlags kind closure rootType
  | _,_,.dataRef targetType _ =>
      opFlags.loadsRef targetType = true → TypeAgrees opFlags .other none targetType
  | _,_,.functionRef .. => opFlags.keepFunctionRef = true
  | kind,closure,.propertyRef getterArgs returnType _ _ =>
      opFlags.keepPropertyRef = false → CoversArgs closure getterArgs →
        (kind.isAutoGet = true → opFlags.loadsRef returnType = true) ∧
          TypeAgrees opFlags .other none returnType
  | kind,closure,.importType _ actualType => TypeAgrees opFlags kind closure actualType
  | _,_,.typedefShadow _ => False
  | _,_,_ => True

theorem getArgTypeArrayLoop_ok {A E : Type} {checkCastKind : E → A → Except String Unit}
    {closureArgs : List (Option E)} {i : ℕ} {argArray rest : List A}
    (hok : Closure.getArgTypeArrayLoop checkCastKind i closureArgs argArray = .ok rest) :
    Closure.getArgTypeArrayLoop (fun _ _ => .ok ()) i closureArgs argArray = .ok rest := by
  induction closureArgs generalizing i argArray with
  | nil => exact hok
  | cons closureArg closureArgs ih =>
    cases closureArg with
    | none => exact ih hok
    | some closureArg =>
      unfold Closure.getArgTypeArrayLoop at hok ⊢
      cases harg : argArray[i]? with
      | none =>
        rw [harg] at hok
        cases hok
      | some arg =>
        rw [harg] at hok
        cases hcast : checkCastKind closureArg arg with
        | error error =>
          simp only [hcast] at hok
          cases hok
        | ok =>
          simp only [hcast] at hok
          exact ih hok

theorem getArgTypeArray_ok {closure : Closure Ty V} {argArray rest : List ℕ}
    (hok : closure.getArgTypeArray module.checkCastKind argArray = .ok rest) :
    closure.getArgTypeArray (fun _ _ => .ok ()) argArray = .ok rest := by
  unfold Closure.getArgTypeArray at hok ⊢
  simp only at hok ⊢
  split
  next hlong =>
    rw [if_pos hlong] at hok
    cases hok
  next hshort =>
    rw [if_neg hshort] at hok
    exact getArgTypeArrayLoop_ok hok

theorem closureAwareArgs_eq_nil_iff {getterArgs args : List ℕ}
    (hargs : closureAwareArgs module value getterArgs = some args) :
    args = [] ↔ CoversArgs value.closure getterArgs := by
  unfold closureAwareArgs at hargs
  unfold CoversArgs
  cases hclosure : value.closure with
  | none =>
    rw [hclosure] at hargs
    rw [Option.some.inj hargs]
  | some closure =>
    simp only [hclosure] at hargs ⊢
    split at hargs
    next => cases hargs
    next hok =>
      split at hargs
      next =>
        rw [getArgTypeArray_ok hok,Option.some.inj hargs]
        exact (Except.ok.injEq ..).symm ▸ Iff.rfl
      next => cases hargs

variable {value₁ value₂ result : Value V D}

theorem sameType_of_unchanged (htype : value₁.type = value₂.type)
    (hfunc : ∀ value₂',prepareOperandFunc module opFlags value₂ = some value₂' →
      value₂'.type = value₂.type ∧
        ∃ value₁',prepareOperandTypeFunc module opFlags value₁ = some value₁' ∧
          value₁'.type = value₁.type) (hresult : valueResult module opFlags value₂ = some result) :
    SameType module opFlags value₁ result := by
  obtain ⟨hlayout,value₂',hfunc₂,hnext⟩ := func_of_valueResult hresult
  obtain ⟨hsame₂,value₁',hfunc₁,hsame₁⟩ := hfunc value₂' hfunc₂
  have htype' : value₁'.type = value₂'.type := hsame₁.trans (htype.trans hsame₂.symm)
  exact (sameType_of_step hlayout htype hfunc₁ htype' hnext (fun _ => trivial)
    fun hne => absurd hsame₂ hne).2 trivial

variable {flags : ℕ}

theorem sameType_dataPtr {targetType : Ty} (htype₁ : value₁.type = .dataPtr targetType flags)
    (htype₂ : value₂.type = .dataPtr targetType flags)
    (hresult : valueResult module opFlags value₂ = some result) :
    SameType module opFlags value₁ result := by
  refine sameType_of_unchanged (htype₁.trans htype₂.symm) (fun value₂' hfunc => ?_) hresult
  simp only [prepareOperandFunc,prepareOperandTypeFunc,htype₁,htype₂,prepareOperandDataPtr]
    at hfunc ⊢
  split at hfunc
  next => cases hfunc
  next hready =>
    rw [if_neg hready]
    exact ⟨Option.some.inj hfunc ▸ htype₂,value₁,rfl,htype₁⟩

theorem sameType_classPtr {targetType flags : ℕ} (htype₁ : value₁.type = .classPtr targetType flags)
    (htype₂ : value₂.type = .classPtr targetType flags)
    (hresult : valueResult module opFlags value₂ = some result) :
    SameType module opFlags value₁ result := by
  refine sameType_of_unchanged (htype₁.trans htype₂.symm) (fun value₂' hfunc => ?_) hresult
  simp only [prepareOperandFunc,prepareOperandTypeFunc,htype₁,htype₂,prepareOperandClassPtr]
    at hfunc ⊢
  split at hfunc
  next => cases hfunc
  next hready =>
    rw [if_neg hready]
    exact ⟨Option.some.inj hfunc ▸ htype₂,value₁,rfl,htype₁⟩

theorem sameType_classRef {targetType flags : ℕ} (htype₁ : value₁.type = .classRef targetType flags)
    (htype₂ : value₂.type = .classRef targetType flags)
    (hresult : valueResult module opFlags value₂ = some result) :
    SameType module opFlags value₁ result := by
  obtain ⟨hlayout,value₂',hfunc₂,hnext⟩ := func_of_valueResult hresult
  obtain ⟨value₁',hfunc₁,htype'⟩ :
      ∃ value₁',prepareOperandTypeFunc module opFlags value₁ = some value₁' ∧
        value₁'.type = value₂'.type := by
    simp only [prepareOperandFunc,prepareOperandTypeFunc,htype₁,htype₂,prepareOperandClassRef]
      at hfunc₂ ⊢
    grind [Value.overrideType]
  have hcases : value₂'.type = .classRef targetType flags ∨
      value₂'.type = .classPtr targetType flags := by
    simp only [prepareOperandFunc,htype₂,prepareOperandClassRef] at hfunc₂
    grind [Value.overrideType]
  refine (sameType_of_step hlayout (htype₁.trans htype₂.symm) hfunc₁ htype' hnext
    (fun _ => trivial) (fun hne hvalue => iff_of_true ?_ trivial)).2 trivial
  obtain hsame | hptr := hcases
  · exact absurd (hsame.trans htype₂.symm) hne
  · exact sameType_classPtr (htype'.trans hptr) hptr hvalue

def AgreesAt (module : Module V D) (opFlags : OpFlags) (type : Ty) : Prop :=
  ∀ {value₁ value₂ result : Value V D},value₁.type = type → value₂.type = type →
    value₁.closure = value₂.closure → valueResult module opFlags value₂ = some result →
      (SameType module opFlags value₁ result ↔
        TypeAgrees opFlags value₂.kind value₂.closure type)

theorem sameType_dataRef {targetType : Ty} (ih : AgreesAt module opFlags targetType)
    (htype₁ : value₁.type = .dataRef targetType flags)
    (htype₂ : value₂.type = .dataRef targetType flags)
    (hresult : valueResult module opFlags value₂ = some result) :
    SameType module opFlags value₁ result ↔
      TypeAgrees opFlags value₂.kind value₂.closure (.dataRef targetType flags) := by
  obtain ⟨hlayout,value₂',hfunc₂,hnext⟩ := func_of_valueResult hresult
  have hstep₂ : prepareOperandDataRef module opFlags value₂ targetType flags = some value₂' := by
    rw [← hfunc₂]
    simp only [prepareOperandFunc,htype₂]
  obtain ⟨value₁',hstep₁⟩ := Option.isSome_iff_exists.1 (typeDataRef_isSome value₁ hstep₂)
  have hfunc₁ : prepareOperandTypeFunc module opFlags value₁ = some value₁' := by
    simp only [prepareOperandTypeFunc,htype₁,hstep₁]
  have htype := htype₁.trans htype₂.symm
  unfold TypeAgrees
  obtain ⟨hloads,content,hvalue₂'⟩ | ⟨hloads,hkept₂⟩ := dataRef_cases htype₂ hstep₂
  · obtain ⟨-,hvalue₁'⟩ | ⟨hkept,-⟩ := typeDataRef_cases htype₁ hstep₁
    · have htype₁' : value₁'.type = targetType := hvalue₁' ▸ rfl
      have htype₂' : value₂'.type = targetType := hvalue₂' ▸ rfl
      have hclosure : value₁'.closure = value₂'.closure := hvalue₁' ▸ hvalue₂' ▸ rfl
      have hagrees : TypeAgrees opFlags value₂'.kind value₂'.closure targetType ↔
          TypeAgrees opFlags .other (none : Option (Closure Ty V)) targetType := hvalue₂' ▸ Iff.rfl
      refine sameType_of_step hlayout htype hfunc₁ (htype₁'.trans htype₂'.symm) hnext
        (fun hsame => ?_) (fun hne hvalue => ?_)
      · exact absurd (congrArg Ty.weight (htype₂'.symm.trans (hsame.trans htype₂)))
          (Nat.ne_of_lt (Nat.lt_add_of_pos_right Nat.two_pos))
      · rw [ih htype₁' htype₂' hclosure hvalue,hagrees]
        exact ⟨fun hagrees _ => hagrees,fun hagrees => hagrees hloads⟩
    · exact absurd (hloads.symm.trans hkept) Bool.noConfusion
  · obtain ⟨hloads',-⟩ | ⟨-,hkept₁⟩ := typeDataRef_cases htype₁ hstep₁
    · exact absurd (hloads.symm.trans hloads') Bool.noConfusion
    · refine sameType_of_step hlayout htype hfunc₁ (hkept₁.trans hkept₂.symm) hnext
        (fun _ hloads' => absurd (hloads.symm.trans hloads') Bool.noConfusion)
        (fun hne hvalue => iff_of_true ?_ fun hloads' =>
          absurd (hloads.symm.trans hloads') Bool.noConfusion)
      obtain hsame | ⟨elementType,hptr⟩ := keptRefType_cases opFlags targetType flags
      · exact absurd (hkept₂.trans (hsame.trans htype₂.symm)) hne
      · exact sameType_dataPtr (hkept₁.trans hptr) (hkept₂.trans hptr) hvalue

theorem sameType_functionRef {targetType flags : ℕ}
    (htype₁ : value₁.type = .functionRef targetType flags)
    (htype₂ : value₂.type = .functionRef targetType flags)
    (hresult : valueResult module opFlags value₂ = some result) :
    SameType module opFlags value₁ result ↔ opFlags.keepFunctionRef = true := by
  obtain ⟨hlayout,value₂',hfunc₂,hnext⟩ := func_of_valueResult hresult
  have hfunc₁ : prepareOperandTypeFunc module opFlags value₁ = some value₁ := by
    simp only [prepareOperandTypeFunc,htype₁,prepareOperandNop]
  have hstep₁ := typeResult_of_func (htype₁.trans htype₂.symm ▸ hlayout) hfunc₁
  rw [if_pos rfl] at hstep₁
  simp only [prepareOperandFunc,htype₂,prepareOperandFunctionRef,Option.some.injEq] at hfunc₂
  by_cases hkeep : opFlags.keepFunctionRef = true
  · rw [if_pos hkeep] at hfunc₂
    rw [← hfunc₂,if_pos rfl] at hnext
    exact iff_of_true ⟨_,hstep₁,hnext ▸ htype₁.trans htype₂.symm⟩ hkeep
  · rw [if_neg hkeep] at hfunc₂
    have hptr : value₂'.type = .functionPtr targetType flags := hfunc₂ ▸ rfl
    rw [if_neg (by rw [hptr,htype₂]; exact Ty.noConfusion)] at hnext
    have hend : result.type = value₂'.type := by
      refine valueResult_type (fun value hfunc => ?_) hnext
      simp only [prepareOperandFunc,hptr,prepareOperandNop,Option.some.injEq] at hfunc
      exact hfunc ▸ rfl
    refine iff_of_false (fun hsame => ?_) hkeep
    obtain ⟨result',hresult',hsame⟩ := hsame
    rw [Option.some.inj (hresult'.symm.trans hstep₁),htype₁,hend,hptr] at hsame
    cases hsame

theorem not_sameType_typedefShadow {type : Ty} (htype₁ : value₁.type = .typedefShadow type)
    (htype₂ : value₂.type = .typedefShadow type)
    (hresult : valueResult module opFlags value₂ = some result) :
    ¬SameType module opFlags value₁ result := by
  rintro ⟨result',hresult',hsame⟩
  have hend : result.type = value₂.type := by
    refine valueResult_type (fun value hfunc => ?_) hresult
    simp only [prepareOperandFunc,htype₂,prepareOperandNop,Option.some.injEq] at hfunc
    exact hfunc ▸ rfl
  have hfunc₁ : prepareOperandTypeFunc module opFlags value₁ = some (value₁.overrideType type) := by
    simp only [prepareOperandTypeFunc,htype₁,prepareOperandTypedef]
  have hlayout := (func_of_valueResult hresult).1
  rw [typeResult_of_func (htype₁.trans htype₂.symm ▸ hlayout) hfunc₁,if_neg] at hresult'
  · have hle : result'.type.weight ≤ type.weight := weight_typeResult hresult'
    rw [hsame,hend,htype₂] at hle
    exact absurd hle (Nat.not_succ_le_self _)
  · rw [htype₁]
    exact fun heq => absurd (congrArg Ty.weight heq) (Nat.ne_of_lt (Nat.lt_succ_self _))

variable {returnType : Ty}

theorem not_sameType_autoGet {value₁ result : Value V D}
    (hloads : opFlags.loadsRef returnType = false) (htype₁ : value₁.type = returnType)
    (hend : result.type = opFlags.keptRefType returnType flags) :
    ¬SameType module opFlags value₁ result := by
  rintro ⟨result',hresult',hsame⟩
  have hle : result'.type.weight ≤ returnType.weight := htype₁ ▸ weight_typeResult hresult'
  obtain href | ⟨elementType,hptr⟩ := keptRefType_cases opFlags returnType flags
  · rw [hsame,hend,href] at hle
    exact absurd hle (Nat.not_le_of_lt (Nat.lt_add_of_pos_right Nat.two_pos))
  · cases returnType with
    | array elementType elementCount =>
      have harray : result'.type = value₁.type := by
        refine typeResult_type (fun value hfunc => ?_) hresult'
        simp only [prepareOperandTypeFunc,htype₁,prepareOperandNop,Option.some.injEq] at hfunc
        exact hfunc ▸ rfl
      rw [harray,htype₁,hend,hptr] at hsame
      cases hsame
    | _ => cases hptr

theorem valueResult_keptRef {result : Value V D} (hloads : opFlags.loadsRef returnType = false)
    (htype : value.type = .dataRef returnType flags)
    (hresult : valueResult module opFlags value = some result) :
    result.type = opFlags.keptRefType returnType flags := by
  obtain ⟨hlayout,value',hfunc,hnext⟩ := func_of_valueResult hresult
  simp only [prepareOperandFunc,htype] at hfunc
  obtain ⟨hloads',-⟩ | ⟨-,hkept⟩ := dataRef_cases htype hfunc
  · exact absurd (hloads.symm.trans hloads') Bool.noConfusion
  · split at hnext
    next => exact hnext ▸ hkept
    next hne =>
      obtain hsame | ⟨elementType,hptr⟩ := keptRefType_cases opFlags returnType flags
      · exact absurd (hkept.trans (hsame.trans htype.symm)) hne
      · rw [← hkept]
        refine valueResult_type (fun value'' hfunc => ?_) hnext
        simp only [prepareOperandFunc,hkept.trans hptr,prepareOperandDataPtr] at hfunc
        grind

theorem sameType_of_typeFunc {result : Value V D}
    (hlayout : module.ensureLayout value.type = true)
    (hfunc : prepareOperandTypeFunc module opFlags value = some value')
    (hne : value'.type ≠ value.type) :
    SameType module opFlags value result ↔ SameType module opFlags value' result := by
  unfold SameType
  rw [typeResult_of_func hlayout hfunc,if_neg hne]

theorem valueResult_loadedRef {result : Value V D} (hloads : opFlags.loadsRef returnType = true)
    (htype : value.type = .dataRef returnType flags)
    (hresult : valueResult module opFlags value = some result) :
    ∃ content,valueResult module opFlags (.ofContent returnType content) = some result := by
  obtain ⟨hlayout,value',hfunc,hnext⟩ := func_of_valueResult hresult
  simp only [prepareOperandFunc,htype] at hfunc
  obtain ⟨-,content,rfl⟩ | ⟨hloads',-⟩ := dataRef_cases htype hfunc
  · have hne : returnType ≠ value.type := by
      rw [htype]
      exact fun heq => absurd (congrArg Ty.weight heq)
        (Nat.ne_of_lt (Nat.lt_add_of_pos_right Nat.two_pos))
    exact ⟨content,(if_neg hne).mp hnext⟩
  · exact absurd (hloads.symm.trans hloads') Bool.noConfusion

theorem closureAwareArgs_congr {value₁ value₂ : Value V D} {getterArgs : List ℕ}
    (htype : value₁.type = value₂.type) (hclosure : value₁.closure = value₂.closure) :
    closureAwareArgs module value₁ getterArgs = closureAwareArgs module value₂ getterArgs := by
  unfold closureAwareArgs
  rw [htype,hclosure]

theorem sameType_getProperty {value₁ value₂ value₂' result : Value V D}
    (ih : AgreesAt module opFlags returnType) (htype₁ : value₁.type = returnType)
    (hclosure₁ : value₁.closure = none) (hget : getProperty module value₂ returnType = some value₂')
    (hresult : valueResult module opFlags value₂' = some result) :
    SameType module opFlags value₁ result ↔
      (value₂.kind.isAutoGet = true → opFlags.loadsRef returnType = true) ∧
        TypeAgrees opFlags .other (none : Option (Closure Ty V)) returnType := by
  obtain ⟨hauto,flags,content,rfl⟩ | ⟨hauto,content,rfl⟩ := getProperty_cases hget
  · cases hloads : opFlags.loadsRef returnType with
    | false =>
      have hend := valueResult_keptRef hloads rfl hresult
      exact iff_of_false (not_sameType_autoGet hloads htype₁ hend)
        fun hagrees => Bool.noConfusion (hagrees.1 hauto)
    | true =>
      obtain ⟨content,hloaded⟩ := valueResult_loadedRef hloads rfl hresult
      exact (ih htype₁ rfl hclosure₁ hloaded).trans
        ⟨fun hagrees => ⟨fun _ => rfl,hagrees⟩,And.right⟩
  · refine (ih htype₁ rfl hclosure₁ hresult).trans ⟨fun hagrees => ⟨fun hauto' => ?_,hagrees⟩,And.right⟩
    exact absurd (hauto.symm.trans hauto') Bool.noConfusion

theorem sameType_propertyRef {getterArgs : List ℕ} {isBindable : Bool}
    (ih : AgreesAt module opFlags returnType)
    (htype₁ : value₁.type = .propertyRef getterArgs returnType isBindable flags)
    (htype₂ : value₂.type = .propertyRef getterArgs returnType isBindable flags)
    (hclosure : value₁.closure = value₂.closure)
    (hresult : valueResult module opFlags value₂ = some result) :
    SameType module opFlags value₁ result ↔
      TypeAgrees opFlags value₂.kind value₂.closure
        (.propertyRef getterArgs returnType isBindable flags) := by
  obtain ⟨hlayout,value₂',hfunc₂,hnext⟩ := func_of_valueResult hresult
  have htype := htype₁.trans htype₂.symm
  simp only [prepareOperandFunc,htype₂] at hfunc₂
  unfold TypeAgrees
  obtain ⟨hkeep,hsame⟩ | ⟨hkeep,args,hargs,hcases⟩ := propertyRef_cases hfunc₂
  · have hfunc₁ : prepareOperandTypeFunc module opFlags value₁ = some value₁ := by
      simp only [prepareOperandTypeFunc,htype₁,prepareOperandTypePropertyRef]
      rw [if_pos hkeep]
    exact sameType_of_step hlayout htype hfunc₁ (hsame ▸ htype) hnext
      (fun _ hkeep' => absurd (hkeep.symm.trans hkeep') Bool.noConfusion)
      (fun hne => absurd (congrArg Value.type hsame) hne)
  have hfunc₁ : prepareOperandTypeFunc module opFlags value₁ =
      some (if args = [] then .ofType returnType else value₁) := by
    simp only [prepareOperandTypeFunc,htype₁,prepareOperandTypePropertyRef]
    rw [if_neg (hkeep ▸ Bool.noConfusion),closureAwareArgs_congr htype hclosure,hargs]
    rfl
  obtain ⟨hindexed,hsame⟩ | ⟨hcovers,hget⟩ := hcases
  · rw [if_neg hindexed] at hfunc₁
    exact sameType_of_step hlayout htype hfunc₁ (hsame ▸ htype) hnext
      (fun _ _ hcovers => absurd ((closureAwareArgs_eq_nil_iff hargs).2 hcovers) hindexed)
      (fun hne => absurd (congrArg Value.type hsame) hne)
  · rw [if_pos hcovers] at hfunc₁
    have hne₁ : returnType ≠ value₁.type := by
      rw [htype₁]
      exact fun heq => absurd (congrArg Ty.weight heq)
        (Nat.ne_of_lt (Nat.lt_add_of_pos_right (Nat.succ_pos 2)))
    have hne₂ : value₂'.type ≠ value₂.type := by
      rw [htype₂]
      obtain ⟨-,_,_,rfl⟩ | ⟨-,_,rfl⟩ := getProperty_cases hget
      · exact Ty.noConfusion
      · exact htype₁ ▸ hne₁
    rw [if_neg hne₂] at hnext
    rw [sameType_of_typeFunc (htype ▸ hlayout) hfunc₁ hne₁,
      sameType_getProperty ih rfl rfl hget hnext]
    have hcovers := (closureAwareArgs_eq_nil_iff hargs).1 hcovers
    exact ⟨fun hagrees _ _ => hagrees,fun hagrees => hagrees hkeep hcovers⟩

theorem sameType_override {type type' : Ty} (ih : AgreesAt module opFlags type')
    (hlt : type'.weight < type.weight) (htype₁ : value₁.type = type) (htype₂ : value₂.type = type)
    (hclosure : value₁.closure = value₂.closure)
    (hfunc₁ : prepareOperandTypeFunc module opFlags value₁ = some (value₁.overrideType type'))
    (hfunc₂ : prepareOperandFunc module opFlags value₂ = some (value₂.overrideType type'))
    (hresult : valueResult module opFlags value₂ = some result) :
    SameType module opFlags value₁ result ↔
      TypeAgrees opFlags value₂.kind value₂.closure type' := by
  obtain ⟨hlayout,value₂',hfunc₂',hnext⟩ := func_of_valueResult hresult
  obtain rfl := Option.some.inj (hfunc₂.symm.trans hfunc₂')
  have hne : type' ≠ type := fun heq => Nat.lt_irrefl _ (heq ▸ hlt)
  rw [if_neg (htype₂ ▸ hne)] at hnext
  rw [sameType_of_typeFunc (htype₁.trans htype₂.symm ▸ hlayout) hfunc₁ (htype₁ ▸ hne)]
  have hagrees : SameType module opFlags (value₁.overrideType type') result ↔
      TypeAgrees opFlags (value₂.overrideType type').kind (value₂.overrideType type').closure type' :=
    ih rfl rfl hclosure hnext
  exact hagrees

theorem sameType_enum {id : ℕ} {rootType : Ty} (ih : AgreesAt module opFlags rootType)
    (htype₁ : value₁.type = .enum id rootType) (htype₂ : value₂.type = .enum id rootType)
    (hclosure : value₁.closure = value₂.closure)
    (hresult : valueResult module opFlags value₂ = some result) :
    SameType module opFlags value₁ result ↔
      TypeAgrees opFlags value₂.kind value₂.closure (.enum id rootType) := by
  unfold TypeAgrees
  cases hkeep : opFlags.keepEnum with
  | true =>
    refine iff_of_true (sameType_of_unchanged (htype₁.trans htype₂.symm) (fun value₂' hfunc => ?_)
      hresult) Bool.noConfusion
    simp only [prepareOperandFunc,prepareOperandTypeFunc,htype₁,htype₂,prepareOperandEnum,hkeep,
      if_true,Option.some.injEq] at hfunc ⊢
    exact ⟨hfunc ▸ htype₂,value₁,rfl,htype₁⟩
  | false =>
    refine (sameType_override ih (Nat.lt_succ_self _) htype₁ htype₂ hclosure ?_ ?_ hresult).trans
      ⟨fun hagrees _ => hagrees,fun hagrees => hagrees rfl⟩
    · simp only [prepareOperandTypeFunc,htype₁,prepareOperandEnum,hkeep]
      rfl
    · simp only [prepareOperandFunc,htype₂,prepareOperandEnum,hkeep]
      rfl

theorem agreesAt (type : Ty) : AgreesAt module opFlags type := by
  induction type with
  | «enum» id rootType ih =>
    intro value₁ value₂ result htype₁ htype₂ hclosure hresult
    exact sameType_enum ih htype₁ htype₂ hclosure hresult
  | dataRef targetType flags ih =>
    intro value₁ value₂ result htype₁ htype₂ hclosure hresult
    exact sameType_dataRef ih htype₁ htype₂ hresult
  | propertyRef getterArgs returnType isBindable flags ih =>
    intro value₁ value₂ result htype₁ htype₂ hclosure hresult
    exact sameType_propertyRef ih htype₁ htype₂ hclosure hresult
  | importType kind actualType ih =>
    intro value₁ value₂ result htype₁ htype₂ hclosure hresult
    unfold TypeAgrees
    refine sameType_override ih (Nat.lt_succ_self _) htype₁ htype₂ hclosure ?_ ?_ hresult
    · simp only [prepareOperandTypeFunc,htype₁,prepareOperandImport]
    · simp only [prepareOperandFunc,htype₂,prepareOperandImport]
  | typedefShadow type ih =>
    intro value₁ value₂ result htype₁ htype₂ hclosure hresult
    exact iff_of_false (not_sameType_typedefShadow htype₁ htype₂ hresult) id
  | functionRef targetType flags =>
    intro value₁ value₂ result htype₁ htype₂ hclosure hresult
    exact sameType_functionRef htype₁ htype₂ hresult
  | dataPtr targetType flags =>
    intro value₁ value₂ result htype₁ htype₂ hclosure hresult
    exact iff_of_true (sameType_dataPtr htype₁ htype₂ hresult) trivial
  | classPtr targetType flags =>
    intro value₁ value₂ result htype₁ htype₂ hclosure hresult
    exact iff_of_true (sameType_classPtr htype₁ htype₂ hresult) trivial
  | classRef targetType flags =>
    intro value₁ value₂ result htype₁ htype₂ hclosure hresult
    exact iff_of_true (sameType_classRef htype₁ htype₂ hresult) trivial
  | _ =>
    intro value₁ value₂ result htype₁ htype₂ hclosure hresult
    refine iff_of_true (sameType_of_unchanged (htype₁.trans htype₂.symm) (fun value₂' hfunc => ?_)
      hresult) trivial
    simp only [prepareOperandFunc,prepareOperandTypeFunc,htype₁,htype₂,prepareOperandNop,
      Option.some.injEq] at hfunc ⊢
    exact ⟨hfunc ▸ htype₂,value₁,rfl,htype₁⟩

end Agreement

end Jancy.Ct.PrepareOperand
