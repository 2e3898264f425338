import Jancy.Ct.PrepareOperandAgree

/-! The type computed for an operand is the type of the prepared operand. -/
namespace Jancy.Ct.PrepareOperand

variable {V D : Type} (module : Module V D) (opFlags : OpFlags)

/-- Both loops come to an end, and a prepared operand has the type computed for it. -/
structure Meets (operand : Operand V D) : Prop where
  type_ends : ∃ turns,(prepareOperandType module opFlags turns operand).isSome = true
  value_ends : ∃ turns,(prepareOperand module opFlags turns operand).isSome = true
  same_type : ∀ turns result,prepareOperand module opFlags turns operand = some (some result) →
    ∃ turns' typeResult,prepareOperandType module opFlags turns' operand = some (some typeResult) ∧
      typeResult.type = result.type

def Agrees : Operand V D → Prop
  | .void => True
  | .functionOverload _ => True
  | .field fieldType _ => fieldType = .void
  | .value value => TypeAgrees opFlags value.kind value.closure value.type

variable {module opFlags}

theorem prepareOperandType_ends (operand : Operand V D) :
    ∃ turns,(prepareOperandType module opFlags turns operand).isSome = true := by
  cases operand with
  | value value =>
    exact ⟨_,Stable.run_isSome typeTurn_decreases (Nat.lt_succ_self value.weight)⟩
  | _ => exact ⟨0,rfl⟩

theorem prepareOperand_ends (operand : Operand V D) :
    ∃ turns,(prepareOperand module opFlags turns operand).isSome = true := by
  unfold prepareOperand
  by_cases hcode : module.hasCodeGen = false
  · simp only [if_pos hcode]
    exact prepareOperandType_ends operand
  · simp only [if_neg hcode]
    cases operand with
    | void => exact ⟨0,rfl⟩
    | functionOverload value => exact ⟨0,rfl⟩
    | field fieldType content => exact ⟨_,Stable.run_isSome turn_decreases (Nat.lt_succ_self _)⟩
    | value value => exact ⟨_,Stable.run_isSome turn_decreases (Nat.lt_succ_self _)⟩

theorem prepareOperandType_value_iff {value result : Value V D} :
    (∃ turns,prepareOperandType module opFlags turns (.value value) = some (some result)) ↔
      typeResult module opFlags value = some result :=
  Stable.run_eq_some_iff typeTurn_decreases

theorem prepareOperand_value_iff (hcode : module.hasCodeGen = true) {value result : Value V D} :
    (∃ turns,prepareOperand module opFlags turns (.value value) = some (some result)) ↔
      valueResult module opFlags value = some result := by
  unfold prepareOperand
  rw [hcode]
  exact Stable.run_eq_some_iff turn_decreases

theorem prepareOperand_field {fieldType : Ty} {content : Option D} {result : Value V D} {turns : ℕ}
    (hcode : module.hasCodeGen = true)
    (hresult : prepareOperand module opFlags turns (.field fieldType content) = some (some result)) :
    result.type = .void := by
  unfold prepareOperand at hresult
  rw [hcode] at hresult
  have hend : valueResult module opFlags ⟨.other,.void,none,content⟩ = some result :=
    (Stable.run_eq_some_iff turn_decreases).1 ⟨turns,hresult⟩
  exact valueResult_type (fun value' hfunc => Option.some.inj hfunc ▸ rfl) hend

theorem meets_of_agrees {operand : Operand V D} (hagrees : Agrees opFlags operand) :
    Meets module opFlags operand := by
  refine ⟨prepareOperandType_ends operand,prepareOperand_ends operand,fun turns result hresult => ?_⟩
  cases hcode : module.hasCodeGen with
  | false =>
    unfold prepareOperand at hresult
    rw [if_pos hcode] at hresult
    exact ⟨turns,result,hresult,rfl⟩
  | true =>
    cases operand with
    | void =>
      unfold prepareOperand at hresult
      rw [hcode] at hresult
      exact ⟨turns,result,hresult,rfl⟩
    | functionOverload value =>
      unfold prepareOperand at hresult
      rw [hcode] at hresult
      exact ⟨turns,result,hresult,rfl⟩
    | field fieldType content =>
      refine ⟨turns,.ofType fieldType,rfl,?_⟩
      rw [prepareOperand_field hcode hresult]
      exact hagrees
    | value value =>
      have hvalue := (prepareOperand_value_iff hcode).1 ⟨turns,hresult⟩
      obtain ⟨typeResult,htype,hsame⟩ := (agreesAt value.type rfl rfl rfl hvalue).2 hagrees
      obtain ⟨turns',hrun⟩ := prepareOperandType_value_iff.2 htype
      exact ⟨turns',typeResult,hrun,hsame⟩

/-- A module in which no step fails. -/
def generating [Inhabited D] : Module V D where
  hasCodeGen := true
  isReactiveExpression := false
  ensureLayout _ := true
  checkCastKind _ _ := .ok ()
  accessorsReady _ _ := true
  loadDataRef _ := some default
  prepareArrayRef _ := default
  addReactorBinding _ := true
  callGetter _ := some default
  getPropertyField _ := some default

section Generating

variable [Inhabited D] {value value' : Value V D}

theorem valueResult_generating (hfunc : prepareOperandFunc generating opFlags value = some value') :
    valueResult generating opFlags value =
      if value'.type = value.type then some value' else valueResult generating opFlags value' :=
  Stable.result_of_step turn_decreases hfunc

theorem closureAwareArgs_generating {getterArgs : List ℕ}
    (hcovers : CoversArgs value.closure getterArgs) :
    closureAwareArgs (generating (V := V) (D := D)) value getterArgs = some [] := by
  unfold CoversArgs at hcovers
  unfold closureAwareArgs
  cases hclosure : value.closure with
  | none =>
    rw [hclosure] at hcovers
    exact congrArg some hcovers
  | some closure =>
    have hok : closure.getArgTypeArray (generating (V := V) (D := D)).checkCastKind getterArgs =
        .ok [] := by
      rw [hclosure] at hcovers
      exact hcovers
    simp only [hok]
    rfl

theorem valueResult_isSome_of_unchanged
    (hfunc : prepareOperandFunc generating opFlags value = some value) :
    (valueResult generating opFlags value).isSome = true := by
  rw [valueResult_generating hfunc,if_pos rfl]
  rfl

theorem valueResult_isSome_of_step
    (hfunc : prepareOperandFunc generating opFlags value = some value')
    (hnext : (valueResult generating opFlags value').isSome = true) :
    (valueResult generating opFlags value).isSome = true := by
  rw [valueResult_generating hfunc]
  split
  · rfl
  · exact hnext

variable {flags : ℕ}

theorem valueResult_isSome_of_ptr {targetType : Ty} (htype : value.type = .dataPtr targetType flags) :
    (valueResult generating opFlags value).isSome = true := by
  refine valueResult_isSome_of_unchanged ?_
  simp only [prepareOperandFunc,htype,prepareOperandDataPtr,generating,and_false,
    Bool.true_eq_false,if_false]

theorem valueResult_isSome_of_kept {targetType : Ty}
    (htype : value.type = .dataRef targetType flags) (hloads : opFlags.loadsRef targetType = false) :
    (valueResult generating opFlags value).isSome = true := by
  obtain ⟨value',hfunc⟩ :
      ∃ value',prepareOperandDataRef generating opFlags value targetType flags = some value' := by
    rw [← Option.isSome_iff_exists]
    unfold prepareOperandDataRef loadDataRef generating
    cases targetType <;> grind
  have hfunc' : prepareOperandFunc generating opFlags value = some value' := by
    simp only [prepareOperandFunc,htype,hfunc]
  obtain ⟨hloads',-⟩ | ⟨-,hkept⟩ := dataRef_cases htype hfunc
  · exact absurd (hloads.symm.trans hloads') Bool.noConfusion
  · obtain hsame | ⟨elementType,hptr⟩ := keptRefType_cases opFlags targetType flags
    · rw [valueResult_generating hfunc',if_pos (hkept.trans (hsame.trans htype.symm))]
      rfl
    · exact valueResult_isSome_of_step hfunc' (valueResult_isSome_of_ptr (hkept.trans hptr))

theorem dataRef_of_loadsRef {targetType : Ty} (htype : value.type = .dataRef targetType flags)
    (hloads : opFlags.loadsRef targetType = true) :
    prepareOperandFunc generating opFlags value = some (.ofContent targetType default) := by
  simp only [prepareOperandFunc,htype]
  unfold prepareOperandDataRef loadDataRef generating
  unfold OpFlags.loadsRef at hloads
  cases targetType <;> simp_all

theorem propertyRef_generating {getterArgs : List ℕ} {returnType : Ty} {isBindable : Bool}
    (htype : value.type = .propertyRef getterArgs returnType isBindable flags)
    (hkeep : opFlags.keepPropertyRef ≠ true) (hcovers : CoversArgs value.closure getterArgs) :
    ∃ value',prepareOperandFunc generating opFlags value = some value' ∧
      getProperty generating value returnType = some value' := by
  obtain ⟨value',hget⟩ : ∃ value',getProperty generating value returnType = some value' := by
    unfold getProperty generating
    split <;> exact ⟨_,rfl⟩
  refine ⟨value',?_,hget⟩
  simp only [prepareOperandFunc,htype,prepareOperandPropertyRef,closureAwareArgs_generating hcovers]
  rw [if_neg hkeep,← hget]
  simp only [Option.bind_some,ne_eq,not_true_eq_false,if_false,generating,Bool.false_eq_true,
    false_and,and_false]

/-- Only a closure that does not fit the getter stops the loop over values. -/
theorem valueResult_isSome (type : Ty) :
    ∀ value : Value V D,value.type = type →
      (valueResult generating opFlags value).isSome = true ∨
        TypeAgrees opFlags value.kind value.closure type := by
  induction type with
  | «enum» id rootType ih =>
    intro value htype
    cases hkeep : opFlags.keepEnum with
    | true => exact .inr fun hkeep' => absurd (hkeep.symm.trans hkeep') Bool.noConfusion
    | false =>
      have hfunc : prepareOperandFunc generating opFlags value =
          some (value.overrideType rootType) := by
        simp only [prepareOperandFunc,htype,prepareOperandEnum,hkeep]
        rfl
      exact (ih (value.overrideType rootType) rfl).imp (valueResult_isSome_of_step hfunc)
        fun hagrees _ => hagrees
  | dataRef targetType flags ih =>
    intro value htype
    cases hloads : opFlags.loadsRef targetType with
    | false => exact .inl (valueResult_isSome_of_kept htype hloads)
    | true =>
      exact (ih (.ofContent targetType default) rfl).imp
        (valueResult_isSome_of_step (dataRef_of_loadsRef htype hloads)) fun hagrees _ => hagrees
  | propertyRef getterArgs returnType isBindable flags ih =>
    intro value htype
    by_cases hkeep : opFlags.keepPropertyRef = true
    · exact .inr fun hkeep' => absurd (hkeep.symm.trans hkeep') Bool.noConfusion
    by_cases hcovers : CoversArgs value.closure getterArgs
    · obtain ⟨value',hfunc,hget⟩ := propertyRef_generating htype hkeep hcovers
      obtain ⟨hauto,flags,content,rfl⟩ | ⟨hauto,content,rfl⟩ := getProperty_cases hget
      · cases hloads : opFlags.loadsRef returnType with
        | false =>
          exact .inl (valueResult_isSome_of_step hfunc (valueResult_isSome_of_kept rfl hloads))
        | true =>
          have hloaded := dataRef_of_loadsRef
            (rfl : (Value.ofContent (.dataRef returnType flags) content : Value V D).type = _)
            hloads
          exact (ih (.ofContent returnType default) rfl).imp
            (fun hsome => valueResult_isSome_of_step hfunc
              (valueResult_isSome_of_step hloaded hsome))
            fun hagrees _ _ => ⟨fun _ => hloads,hagrees⟩
      · exact (ih (.ofContent returnType content) rfl).imp (valueResult_isSome_of_step hfunc)
          fun hagrees _ _ => ⟨fun hauto' => absurd (hauto.symm.trans hauto') Bool.noConfusion,
            hagrees⟩
    · exact .inr fun _ hcovers' => absurd hcovers' hcovers
  | importType kind actualType ih =>
    intro value htype
    have hfunc : prepareOperandFunc generating opFlags value =
        some (value.overrideType actualType) := by
      simp only [prepareOperandFunc,htype,prepareOperandImport]
    exact (ih (value.overrideType actualType) rfl).imp (valueResult_isSome_of_step hfunc) id
  | typedefShadow type ih =>
    intro value htype
    refine .inl (valueResult_isSome_of_unchanged ?_)
    simp only [prepareOperandFunc,htype,prepareOperandNop]
  | functionRef targetType flags =>
    intro value htype
    cases hkeep : opFlags.keepFunctionRef with
    | true => exact .inr hkeep
    | false =>
      have hfunc : prepareOperandFunc generating opFlags value =
          some (value.overrideType (.functionPtr targetType flags)) := by
        simp only [prepareOperandFunc,htype,prepareOperandFunctionRef,hkeep]
        rfl
      exact .inl (valueResult_isSome_of_step hfunc (valueResult_isSome_of_unchanged rfl))
  | _ =>
    intro value htype
    exact .inr trivial

theorem agrees_of_meets {operand : Operand V D} (hmeets : Meets generating opFlags operand) :
    Agrees opFlags operand := by
  cases operand with
  | void => trivial
  | functionOverload value => trivial
  | field fieldType content =>
    have hrun : prepareOperand (generating (V := V)) opFlags 1 (.field fieldType content) =
        some (some ⟨.other,.void,none,content⟩) := rfl
    obtain ⟨turns,typeResult,hresult,hsame⟩ := hmeets.same_type 1 _ hrun
    have htype : Value.ofType fieldType = typeResult := Option.some.inj (Option.some.inj hresult)
    rw [← htype] at hsame
    exact hsame
  | value value =>
    refine (valueResult_isSome value.type value rfl).elim (fun hsome => ?_) id
    obtain ⟨result,hresult⟩ := Option.isSome_iff_exists.1 hsome
    obtain ⟨turns,hrun⟩ := (prepareOperand_value_iff rfl).2 hresult
    obtain ⟨turns',typeResult,htype,hsame⟩ := hmeets.same_type turns result hrun
    have htypeResult := prepareOperandType_value_iff.1 ⟨turns',htype⟩
    exact (agreesAt value.type rfl rfl rfl hresult).1 ⟨typeResult,htypeResult,hsame⟩

/-- In every module both loops end, and a prepared operand has the type computed for it, exactly for
the operands on which the two tables agree. -/
theorem prepared_types_iff (opFlags : OpFlags) (operand : Operand V D) :
    (∀ module,Meets module opFlags operand) ↔ Agrees opFlags operand :=
  ⟨fun hmeets => agrees_of_meets (hmeets generating),fun hagrees _ => meets_of_agrees hagrees⟩

end Generating

/-- A reference to a function stays one in the table of types, and becomes a pointer in the table of
values. -/
theorem functionRef_not_prepared :
    ¬∀ (module : Module Unit Unit) (opFlags : OpFlags) (operand : Operand Unit Unit),
      Meets module opFlags operand := by
  intro hmeets
  have hagrees := agrees_of_meets
    (hmeets generating ⟨false,false,false,false,false,false,false,false,false,false,false⟩
      (.value ⟨.other,.functionRef 0 0,none,none⟩))
  exact Bool.noConfusion hagrees

end Jancy.Ct.PrepareOperand
