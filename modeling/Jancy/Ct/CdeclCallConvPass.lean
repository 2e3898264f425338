import Jancy.Ct.CdeclCallConvAgree
import Mathlib.Data.List.Induction

/-! The callee reads the arguments that the caller passed, and the caller the result. -/
namespace Jancy.Ct.CdeclCallConv

namespace LlvmValue

/-- The class in which the value is passed. -/
def flag : LlvmValue → ArgFlag
  | plain _ => .none
  | coerced _ _ => .coerced
  | slot _ _ => .byVal

/-- The by-value attribute that the argument should have. -/
def byValAttribute : LlvmValue → Option LlvmAttribute
  | slot type _ => some (.byVal type)
  | _ => none

end LlvmValue

namespace CallSite

/-- The variables of the arguments that have names. -/
def namedFrom : ℕ → List FunctionArg → List ArgValue → List (ℕ × ArgValue)
  | i,arg :: args,value :: values =>
    if arg.isNamed then (i,value) :: namedFrom (i + 1) args values else namedFrom (i + 1) args values
  | _,_,_ => []

/-- The this argument of a member gets no variable. -/
def argVariables (site : CallSite) : List (ℕ × ArgValue) :=
  if site.functionType.isMember then
    namedFrom 1 (site.functionType.argArray.drop 1) (site.values.drop 1)
  else namedFrom 0 site.functionType.argArray site.values

structure Agrees (site : CallSite) : Prop where
  classes : ∃ extraClasses, (site.inst.args.drop (baseLlvmArgIdx site.functionType)).map (·.flag) =
    (prepareFunctionType site.functionType).argFlagArray ++ extraClasses ∧
      extraClasses.length = site.extra.length
  structRet : site.functionType.returnsInMemory = true →
    attributeAt (createLlvmFunction site.functionType) 1 =
        some (.structRet site.functionType.returnType) ∧
      attributeAt site.inst.attributes 1 = some (.structRet site.functionType.returnType)
  byVal_callee : ∀ k, attributeAt (createLlvmFunction site.functionType)
      (baseLlvmArgIdx site.functionType + 1 + k) =
    byValAttribute (prepareFunctionType site.functionType).argFlagArray[k]?
      site.functionType.argTypes[k]?
  byVal_caller : ∀ k, attributeAt site.inst.attributes
      (baseLlvmArgIdx site.functionType + 1 + k) =
    (site.inst.args[baseLlvmArgIdx site.functionType + k]?).bind (·.byValAttribute)
  passed : ∃ llvmArgs, enter site.functionType site.inst = some llvmArgs ∧
    getArgValueArray site.functionType llvmArgs site.values.length = some site.values ∧
    (site.functionType.isMember = true →
      getThisArgValue site.functionType llvmArgs = site.values.head?) ∧
    createArgVariables site.functionType llvmArgs = some site.argVariables ∧
    ∀ value, value.type = site.functionType.returnType →
      ∃ returned, ret site.functionType llvmArgs value = some returned ∧
        result site.functionType returned = some value

theorem hiddenArg_length (functionType : FunctionType) :
    (hiddenArg functionType).length = baseLlvmArgIdx functionType := by
  rw [hiddenArg,baseLlvmArgIdx]
  split <;> rfl

theorem map_flag_passed {flags : List ArgFlag} {values : List ArgValue}
    (hlength : flags.length = values.length) :
    (List.zipWith CdeclCallConv.passed flags values).map (·.flag) = flags := by
  induction flags generalizing values with
  | nil => rfl
  | cons flag flags ih =>
    cases values with
    | nil => simp at hlength
    | cons value values =>
      rw [List.zipWith_cons_cons,List.map_cons,ih (by simpa using hlength)]
      cases flag <;> rfl

theorem allFlags_length (site : CallSite) : site.allFlags.length = site.all.length := by
  rw [allFlags,classify_length,List.length_map]

theorem classes (site : CallSite) : ∃ extraClasses,
    (site.inst.args.drop (baseLlvmArgIdx site.functionType)).map (·.flag) =
      (prepareFunctionType site.functionType).argFlagArray ++ extraClasses ∧
        extraClasses.length = site.extra.length := by
  obtain ⟨extraFlags,hflags⟩ := site.allFlags_eq
  refine ⟨extraFlags,?_,?_⟩
  · rw [inst_eq,List.drop_left' (hiddenArg_length _),map_flag_passed site.allFlags_length,
      prepared_flags,hflags]
  · have hlength := site.allFlags_length
    rw [hflags,List.length_append,site.flags_length,all,List.length_append] at hlength
    omega

theorem structRet (site : CallSite) (hmemory : site.functionType.returnsInMemory = true) :
    attributeAt (createLlvmFunction site.functionType) 1 =
        some (.structRet site.functionType.returnType) ∧
      attributeAt site.inst.attributes 1 = some (.structRet site.functionType.returnType) := by
  have hbase : baseLlvmArgIdx site.functionType = 1 := by simp [baseLlvmArgIdx,hmemory]
  have hhidden : attributeAt (hiddenAttribute site.functionType) 1 =
      some (.structRet site.functionType.returnType) := by
    simp [hiddenAttribute,hmemory,attributeAt]
  constructor
  · rw [createLlvmFunction_eq,attributeAt_append,hhidden,Option.some_or]
  · rw [inst_eq,attributeAt_append,attributeAt_byValLoop_lt (by omega),Option.none_or,hhidden]

theorem byVal_caller (site : CallSite) (k : ℕ) : attributeAt site.inst.attributes
      (baseLlvmArgIdx site.functionType + 1 + k) =
    (site.inst.args[baseLlvmArgIdx site.functionType + k]?).bind (·.byValAttribute) := by
  have hlength := site.allFlags_length
  rw [attributeAt_inst,inst_eq,← hiddenArg_length,List.getElem?_append_right (Nat.le_add_right _ _),
    Nat.add_sub_cancel_left,List.getElem?_zipWith,List.getElem?_map]
  rcases Nat.lt_or_ge k site.all.length with hlt | hge
  · rw [List.getElem?_eq_getElem hlt,List.getElem?_eq_getElem (hlength ▸ hlt)]
    cases site.allFlags[k] <;> rfl
  · rw [List.getElem?_eq_none hge,List.getElem?_eq_none (hlength ▸ hge)]
    rfl

theorem passed_getElem? (site : CallSite) {k : ℕ} (hk : k < site.values.length) :
    ∃ flag, (flags site.functionType)[k]? = some flag ∧
      (flag = .coerced → site.values[k].type.size ≤ 16) ∧
      (hiddenArg site.functionType ++
        List.zipWith CdeclCallConv.passed (flags site.functionType) site.values)[
          baseLlvmArgIdx site.functionType + k]? = some (CdeclCallConv.passed flag site.values[k]) := by
  have hflag : k < (flags site.functionType).length := by rwa [site.flags_length]
  have htype : k < site.functionType.argTypes.length := by rwa [site.argTypes_length]
  refine ⟨(flags site.functionType)[k],List.getElem?_eq_getElem hflag,?_,?_⟩
  · have hfits := (List.forall₂_iff_get.mp (classify_fits (argRegCount site.functionType)
      site.functionType.argTypes)).2 k hflag htype
    have heq : site.functionType.argTypes[k] = site.values[k].type := by
      simp [← site.values_types]
    rwa [List.get_eq_getElem,List.get_eq_getElem,heq] at hfits
  · rw [← hiddenArg_length,List.getElem?_append_right (Nat.le_add_right _ _),
      Nat.add_sub_cancel_left,List.getElem?_zipWith,List.getElem?_eq_getElem hk,
      List.getElem?_eq_getElem hflag]

theorem getArgValue_eq (site : CallSite) {k : ℕ} (hk : k < site.values.length) :
    getArgValue site.functionType
      (hiddenArg site.functionType ++
        List.zipWith CdeclCallConv.passed (flags site.functionType) site.values)[
          baseLlvmArgIdx site.functionType + k]? k = some site.values[k] := by
  obtain ⟨flag,hflag,hfits,hpassed⟩ := site.passed_getElem? hk
  have htypes := site.values_types
  have hk' : k < site.functionType.argArray.length := by
    have hlength := site.argTypes_length
    rw [FunctionType.argTypes,List.length_map] at hlength
    omega
  have harg : site.functionType.argArray[k].type = site.values[k].type := by
    have heq := congrArg (·[k]?) htypes
    simpa [FunctionType.argTypes,hk,hk'] using heq.symm
  rw [hpassed,getArgValue,prepared_flags,hflag,List.getElem?_eq_getElem hk']
  cases flag with
  | none => simp [CdeclCallConv.passed,harg,load_bytes]
  | byVal => simp [CdeclCallConv.passed,harg,load_bytes]
  | coerced =>
    simp [CdeclCallConv.passed,harg,load_forceCast _ (size_le_coerce (hfits rfl))]

/-- The arguments as the callee gets them. -/
def llvmArgs (site : CallSite) : List LlvmValue :=
  hiddenArg site.functionType ++
    List.zipWith CdeclCallConv.passed (flags site.functionType) site.values

theorem mapM_range {α : Type} {f : ℕ → Option α} {l : List α}
    (h : ∀ (k : ℕ) (hk : k < l.length), f k = some l[k]) : (List.range l.length).mapM f = some l := by
  induction l using List.reverseRecOn with
  | nil => rfl
  | append_singleton l item ih =>
    have hrest := ih fun k hk => by
      rw [h k (by rw [List.length_append]; omega),List.getElem_append_left hk]
    have hlast : f l.length = some item := by simpa using h l.length (by simp)
    rw [List.length_append,List.length_singleton,List.range_succ,List.mapM_append,hrest]
    simp [hlast]

theorem getArgValueArray_eq (site : CallSite) :
    getArgValueArray site.functionType site.llvmArgs site.values.length = some site.values :=
  mapM_range fun _ hk => site.getArgValue_eq hk

theorem argArray_length (site : CallSite) :
    site.functionType.argArray.length = site.values.length := by
  have hlength := site.argTypes_length
  rwa [FunctionType.argTypes,List.length_map] at hlength

theorem getThisArgValue_eq (site : CallSite) (hmember : site.functionType.isMember = true) :
    getThisArgValue site.functionType site.llvmArgs = site.values.head? := by
  have hpos : 0 < site.values.length := by
    rw [← site.argArray_length]
    exact List.length_pos_of_ne_nil (site.functionType.hasThisArg hmember)
  have hthis := site.getArgValue_eq hpos
  rw [Nat.add_zero] at hthis
  rw [getThisArgValue,llvmArgs,hthis,List.head?_eq_getElem?,List.getElem?_eq_getElem hpos]

theorem createArgVariablesLoop_eq (site : CallSite) {i : ℕ} {args : List FunctionArg}
    {values : List ArgValue} (hargs : site.functionType.argArray.drop i = args)
    (hvalues : site.values.drop i = values) :
    createArgVariablesLoop site.functionType site.llvmArgs i
      (baseLlvmArgIdx site.functionType + i) args = some (namedFrom i args values) := by
  induction args generalizing i values with
  | nil => cases values <;> rfl
  | cons arg args ih =>
    have hlt : i < site.values.length := by
      rw [← site.argArray_length]
      by_contra hge
      rw [List.drop_eq_nil_of_le (Nat.le_of_not_lt hge)] at hargs
      cases hargs
    have hvalue : values = site.values[i] :: site.values.drop (i + 1) := by
      rw [← hvalues,List.drop_eq_getElem_cons hlt]
    have hrest := @ih (i + 1) (site.values.drop (i + 1))
      (by rw [← List.drop_drop,hargs,List.drop_one,List.tail_cons]) rfl
    have hread := site.getArgValue_eq hlt
    rw [← llvmArgs] at hread
    rw [createArgVariablesLoop,hvalue,namedFrom,Nat.add_assoc,hrest,hread]
    cases arg.isNamed <;> rfl

theorem createArgVariables_eq (site : CallSite) :
    createArgVariables site.functionType site.llvmArgs = some site.argVariables := by
  rw [createArgVariables,argVariables]
  split
  · exact site.createArgVariablesLoop_eq rfl rfl
  · exact site.createArgVariablesLoop_eq rfl rfl

theorem ret_result (site : CallSite) {value : ArgValue}
    (htype : value.type = site.functionType.returnType) :
    ∃ returned, ret site.functionType site.llvmArgs value = some returned ∧
      result site.functionType returned = some value := by
  simp only [ret,result,← htype]
  by_cases hstruct : value.type.isStructRet = true
  · by_cases hbig : 16 < value.type.size
    · have hslot : site.llvmArgs.head? = some (.slot site.functionType.returnType none) := by
        have hmemory : site.functionType.returnsInMemory = true := by
          simp [FunctionType.returnsInMemory,← htype,hstruct,hbig]
        simp [llvmArgs,hiddenArg,hmemory]
      exact ⟨.stored value,by simp [hstruct,hbig,hslot],by simp [hstruct,hbig,load_bytes]⟩
    · have hfits := size_le_coerce (Nat.le_of_not_lt hbig)
      refine ⟨.coerced (getArgCoerceType value.type)
        (forceCast value.bytes (getArgCoerceType value.type).size),?_,?_⟩
      · simp [hstruct,hbig]
      · simp [hstruct,hbig,load_forceCast value hfits]
  · exact ⟨.plain value,by simp [hstruct],by simp [hstruct,load_bytes]⟩

/-- Caller and callee agree at every call of every function type. -/
theorem agrees (site : CallSite) : site.Agrees where
  classes := site.classes
  structRet := site.structRet
  byVal_callee k := by rw [attributeAt_function,prepared_flags]
  byVal_caller := site.byVal_caller
  passed := ⟨site.llvmArgs,site.enter_eq,site.getArgValueArray_eq,site.getThisArgValue_eq,
    site.createArgVariables_eq,fun _ htype => site.ret_result htype⟩

end CallSite

end Jancy.Ct.CdeclCallConv
