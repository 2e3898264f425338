import Jancy.Ct.CdeclCallConv
import Mathlib.Data.List.Forall2

/-! Caller and callee agree about every argument and about the result. -/
namespace Jancy.Ct.CdeclCallConv

/-- A call as the operator manager makes it: the arguments were cast to the types of the parameters,
and only a variadic function gets more of them. -/
structure CallSite where
  functionType : FunctionType
  values : List ArgValue
  extra : List ArgValue
  values_types : values.map (·.type) = functionType.argTypes
  extra_varArg : extra ≠ [] → functionType.isVarArg = true

theorem load_self (value : ArgValue) {bytes : Bytes}
    (h : bytes.take value.type.size = value.bytes) : ArgValue.load bytes value.type = value := by
  apply ArgValue.ext
  · rfl
  · have hle : value.type.size ≤ bytes.length := by
      have hlength := congrArg List.length h
      rw [List.length_take,value.length_eq] at hlength
      omega
    simp only [ArgValue.load]
    rw [forceCast,if_pos hle,h]

theorem load_bytes (value : ArgValue) : ArgValue.load value.bytes value.type = value := by
  apply load_self
  rw [← value.length_eq,List.take_length]

theorem load_forceCast (value : ArgValue) {size : ℕ} (hfits : value.type.size ≤ size) :
    ArgValue.load (forceCast value.bytes size) value.type = value := by
  apply load_self
  rw [← value.length_eq] at hfits ⊢
  rw [forceCast]
  split
  case isTrue hle =>
    obtain rfl : size = value.bytes.length := Nat.le_antisymm hle hfits
    rw [List.take_length,List.take_length]
  case isFalse => rw [List.take_left']; rfl

theorem size_le_coerce {type : CType} (h : type.size ≤ 16) :
    type.size ≤ (getArgCoerceType type).size := by
  rw [getArgCoerceType]
  split
  case isTrue hle => exact hle
  case isFalse => exact h

/-- The class of an argument, and the registers that are left behind it. -/
def classOf (argRegCount : ℕ) (type : CType) : ArgFlag × ℕ :=
  let regCount := if 8 < type.size then 2 else 1
  if !type.isStructRet then (.none,argRegCount - 1)
  else if 16 < type.size ∨ argRegCount < regCount then (.byVal,argRegCount)
  else (.coerced,argRegCount - regCount)

def classify : ℕ → List CType → List ArgFlag
  | _,[] => []
  | argRegCount,type :: types =>
    (classOf argRegCount type).1 :: classify (classOf argRegCount type).2 types

/-- How a parameter of a class is declared. -/
def declared : ArgFlag → CType → LlvmType
  | .none,type => .plain type
  | .byVal,type => .ptr type
  | .coerced,type => .coerced (getArgCoerceType type)

/-- How an argument of a class is passed. -/
def passed : ArgFlag → ArgValue → LlvmValue
  | .none,value => .plain value
  | .byVal,value => .slot value.type (some value)
  | .coerced,value =>
    .coerced (getArgCoerceType value.type)
      (forceCast value.bytes (getArgCoerceType value.type).size)

theorem classify_length (argRegCount : ℕ) (types : List CType) :
    (classify argRegCount types).length = types.length := by
  induction types generalizing argRegCount with
  | nil => rfl
  | cons type types ih => rw [classify,List.length_cons,ih,List.length_cons]

theorem classify_append (argRegCount : ℕ) (types types' : List CType) :
    ∃ argRegCount', classify argRegCount (types ++ types') =
      classify argRegCount types ++ classify argRegCount' types' := by
  induction types generalizing argRegCount with
  | nil => exact ⟨argRegCount,rfl⟩
  | cons type types ih =>
    obtain ⟨rest,hrest⟩ := ih (classOf argRegCount type).2
    exact ⟨rest,by rw [List.cons_append,classify,hrest,classify,List.cons_append]⟩

theorem classOf_fits {argRegCount : ℕ} {type : CType}
    (h : (classOf argRegCount type).1 = .coerced) : type.size ≤ 16 := by
  rw [classOf] at h
  by_cases hplain : type.isStructRet = true
  · by_cases hbig : 16 < type.size
    · simp [hplain,hbig] at h
    · exact Nat.le_of_not_lt hbig
  · simp [hplain] at h

theorem classify_fits (argRegCount : ℕ) (types : List CType) :
    List.Forall₂ (fun flag (type : CType) => flag = ArgFlag.coerced → type.size ≤ 16)
      (classify argRegCount types) types := by
  induction types generalizing argRegCount with
  | nil => exact .nil
  | cons type types ih => exact .cons classOf_fits (ih _)

theorem prepareLoop_eq (argRegCount : ℕ) (types : List CType) :
    (prepareLoop argRegCount types).map (·.2) = classify argRegCount types ∧
      (prepareLoop argRegCount types).map (·.1) =
        List.zipWith declared (classify argRegCount types) types := by
  induction types generalizing argRegCount with
  | nil => exact ⟨rfl,rfl⟩
  | cons type types ih =>
    simp only [prepareLoop,classify,classOf]
    split_ifs <;> simp [ih,declared]

theorem callLoop_args (argRegCount byValIdx : ℕ) (values : List ArgValue) :
    (callLoop argRegCount byValIdx values).1 =
      List.zipWith passed (classify argRegCount (values.map (·.type))) values := by
  induction values generalizing argRegCount byValIdx with
  | nil => rfl
  | cons value values ih =>
    simp only [callLoop,classify,classOf,List.map_cons]
    split_ifs <;> simp [ih,passed]

theorem callLoop_attributes (argRegCount byValIdx : ℕ) (values : List ArgValue) :
    (callLoop argRegCount byValIdx values).2 =
      byValLoop byValIdx (values.map (·.type)) (classify argRegCount (values.map (·.type))) := by
  induction values generalizing argRegCount byValIdx with
  | nil => rfl
  | cons value values ih =>
    simp only [callLoop,classify,classOf,List.map_cons]
    split_ifs <;> simp [ih,byValLoop]

/-- The registers for the arguments of the function. -/
def argRegCount (functionType : FunctionType) : ℕ :=
  if functionType.returnsInMemory then 5 else 6

def hiddenType (functionType : FunctionType) : List LlvmType :=
  if functionType.returnsInMemory then [.ptr functionType.returnType] else []

def hiddenArg (functionType : FunctionType) : List LlvmValue :=
  if functionType.returnsInMemory then [.slot functionType.returnType none] else []

def hiddenAttribute (functionType : FunctionType) : Attributes :=
  if functionType.returnsInMemory then [(1,.structRet functionType.returnType)] else []

def flags (functionType : FunctionType) : List ArgFlag :=
  classify (argRegCount functionType) functionType.argTypes

theorem prepared_flags (functionType : FunctionType) :
    (prepareFunctionType functionType).argFlagArray = flags functionType := by
  rw [prepareFunctionType,flags,argRegCount]
  split <;> exact (prepareLoop_eq _ _).1

theorem prepared_types (functionType : FunctionType) :
    (prepareFunctionType functionType).llvmArgTypeArray =
      hiddenType functionType ++ List.zipWith declared (flags functionType) functionType.argTypes := by
  rw [prepareFunctionType,flags,argRegCount,hiddenType]
  split
  · exact congrArg (LlvmType.ptr functionType.returnType :: ·) (prepareLoop_eq _ _).2
  · exact (prepareLoop_eq _ _).2

theorem byValLoop_nil {j : ℕ} {types : List CType} {flags : List ArgFlag}
    (h : ArgFlag.byVal ∉ flags) : byValLoop j types flags = [] := by
  induction types generalizing j flags with
  | nil => rfl
  | cons type types ih =>
    cases flags with
    | nil => rfl
    | cons flag flags =>
      have hrest := @ih (j + 1) flags fun hmem => h (List.mem_cons_of_mem flag hmem)
      cases flag with
      | byVal => exact absurd List.mem_cons_self h
      | none => exact hrest
      | coerced => exact hrest

theorem createLlvmFunction_eq (functionType : FunctionType) :
    createLlvmFunction functionType = hiddenAttribute functionType ++
      byValLoop (baseLlvmArgIdx functionType + 1) functionType.argTypes (flags functionType) := by
  simp only [createLlvmFunction,hiddenAttribute,baseLlvmArgIdx,prepared_flags,
    PreparedType.byValArgs,List.contains_iff_mem]
  congr 1
  by_cases hbyVal : ArgFlag.byVal ∈ flags functionType
  · rw [if_pos hbyVal]
    split <;> rfl
  · rw [if_neg hbyVal,byValLoop_nil hbyVal]

theorem zipWith_passed_none {flags : List ArgFlag} {values : List ArgValue}
    (hlength : flags.length = values.length) (h : ∀ flag ∈ flags, flag = .none) :
    List.zipWith passed flags values = values.map .plain := by
  induction values generalizing flags with
  | nil => simp
  | cons value values ih =>
    cases flags with
    | nil => simp at hlength
    | cons flag flags =>
      obtain rfl := h flag List.mem_cons_self
      rw [List.zipWith_cons_cons,List.map_cons,passed,ih (by simpa using hlength)
        fun other hother => h other (List.mem_cons_of_mem _ hother)]

namespace CallSite

def all (site : CallSite) : List ArgValue := site.values ++ site.extra

def inst (site : CallSite) : CallInst := call site.functionType site.all

def allFlags (site : CallSite) : List ArgFlag :=
  classify (argRegCount site.functionType) (site.all.map (·.type))

theorem allFlags_eq (site : CallSite) :
    ∃ extraFlags, site.allFlags = flags site.functionType ++ extraFlags := by
  obtain ⟨rest,hrest⟩ := classify_append (argRegCount site.functionType)
    site.functionType.argTypes (site.extra.map (·.type))
  refine ⟨classify rest (site.extra.map (·.type)),?_⟩
  rw [allFlags,all,List.map_append,site.values_types,hrest,flags]

theorem inst_eq (site : CallSite) : site.inst =
    ⟨hiddenArg site.functionType ++ List.zipWith passed site.allFlags site.all,
      byValLoop (baseLlvmArgIdx site.functionType + 1) (site.all.map (·.type)) site.allFlags ++
        hiddenAttribute site.functionType⟩ := by
  simp only [inst,call]
  split
  case isTrue hquick =>
    -- no struct in the result, in the parameters or behind them: everything is passed as it is
    simp only [Bool.and_eq_true,Bool.not_eq_true',Bool.or_eq_false_iff,PreparedType.byValArgs,
      PreparedType.coercedArgs,prepared_flags,List.contains_eq_mem,decide_eq_false_iff_not]
      at hquick
    obtain ⟨hret,⟨hvarArg,hbyVal⟩,hcoerced⟩ := hquick
    have hmemory : site.functionType.returnsInMemory = false := by
      simp [FunctionType.returnsInMemory,hret]
    have hextra : site.extra = [] := by
      by_contra hne
      rw [site.extra_varArg hne] at hvarArg
      cases hvarArg
    have hall : site.all.map (·.type) = site.functionType.argTypes := by
      rw [all,hextra,List.append_nil,site.values_types]
    have hflags : site.allFlags = flags site.functionType := by rw [allFlags,hall,flags]
    have hnone : ∀ flag ∈ flags site.functionType, flag = .none := by
      intro flag hflag
      cases flag with
      | none => rfl
      | byVal => exact absurd hflag hbyVal
      | coerced => exact absurd hflag hcoerced
    have hlength : (flags site.functionType).length = site.all.length := by
      rw [flags,classify_length,← hall,List.length_map]
    rw [hflags,zipWith_passed_none hlength hnone,byValLoop_nil hbyVal]
    simp [hiddenArg,hiddenAttribute,hmemory]
  case isFalse =>
    cases hmemory : site.functionType.returnsInMemory with
    | true =>
      simp [callLoop_args,callLoop_attributes,hiddenArg,hiddenAttribute,allFlags,argRegCount,
        baseLlvmArgIdx,hmemory]
    | false =>
      simp [callLoop_args,callLoop_attributes,hiddenArg,hiddenAttribute,allFlags,argRegCount,
        baseLlvmArgIdx,hmemory]

end CallSite

theorem attributeAt_append (attributes attributes' : Attributes) (i : ℕ) :
    attributeAt (attributes ++ attributes') i =
      (attributeAt attributes i).or (attributeAt attributes' i) := by
  rw [attributeAt,List.find?_append,attributeAt,attributeAt]
  cases attributes.find? (·.1 = i) <;> simp

theorem attributeAt_byValLoop_lt {i j : ℕ} (hlt : i < j) (types : List CType)
    (flags : List ArgFlag) : attributeAt (byValLoop j types flags) i = none := by
  induction types generalizing j flags with
  | nil => rfl
  | cons type types ih =>
    cases flags with
    | nil => rfl
    | cons flag flags =>
      have hrest := ih (Nat.lt_succ_of_lt hlt) flags
      cases flag with
      | none => exact hrest
      | coerced => exact hrest
      | byVal =>
        rw [attributeAt,byValLoop,List.find?_cons_of_neg]
        · exact hrest
        · simpa using Nat.ne_of_gt hlt

/-- The attribute of a by-value argument stands at its own number. -/
def byValAttribute : Option ArgFlag → Option CType → Option LlvmAttribute
  | some .byVal,some type => some (.byVal type)
  | _,_ => none

theorem attributeAt_byValLoop (j k : ℕ) (types : List CType) (flags : List ArgFlag) :
    attributeAt (byValLoop j types flags) (j + k) = byValAttribute flags[k]? types[k]? := by
  induction types generalizing j k flags with
  | nil => cases hflag : flags[k]? with
    | none => rfl
    | some flag => cases flag <;> rfl
  | cons type types ih =>
    cases flags with
    | nil => rfl
    | cons flag flags =>
      cases k with
      | zero =>
        have hrest := attributeAt_byValLoop_lt (Nat.lt_succ_self j) types flags
        cases flag with
        | none => exact hrest
        | coerced => exact hrest
        | byVal => simp [attributeAt,byValLoop,byValAttribute]
      | succ k =>
        have hrest := ih (j + 1) k flags
        rw [Nat.add_right_comm] at hrest
        cases flag with
        | none => exact hrest
        | coerced => exact hrest
        | byVal =>
          rw [attributeAt,byValLoop,List.find?_cons_of_neg]
          · exact hrest
          · simp

theorem attributeAt_hidden (functionType : FunctionType) (k : ℕ) :
    attributeAt (hiddenAttribute functionType) (baseLlvmArgIdx functionType + 1 + k) = none := by
  rw [hiddenAttribute,baseLlvmArgIdx]
  split
  · have hne : 1 ≠ 1 + 1 + k := by omega
    simp [attributeAt,hne]
  · rfl

theorem attributeAt_function (functionType : FunctionType) (k : ℕ) :
    attributeAt (createLlvmFunction functionType) (baseLlvmArgIdx functionType + 1 + k) =
      byValAttribute (flags functionType)[k]? functionType.argTypes[k]? := by
  rw [createLlvmFunction_eq,attributeAt_append,attributeAt_hidden,attributeAt_byValLoop,
    Option.none_or]

namespace CallSite

theorem attributeAt_inst (site : CallSite) (k : ℕ) :
    attributeAt site.inst.attributes (baseLlvmArgIdx site.functionType + 1 + k) =
      byValAttribute site.allFlags[k]? (site.all.map (·.type))[k]? := by
  rw [inst_eq,attributeAt_append,attributeAt_hidden,attributeAt_byValLoop,Option.or_none]

theorem argTypes_length (site : CallSite) :
    site.functionType.argTypes.length = site.values.length := by
  rw [← site.values_types,List.length_map]

theorem flags_length (site : CallSite) : (flags site.functionType).length = site.values.length := by
  rw [flags,classify_length,argTypes_length]

theorem attributes_eq (site : CallSite) {i : ℕ}
    (hi : i < (prepareFunctionType site.functionType).llvmArgTypeArray.length) :
    attributeAt site.inst.attributes (i + 1) =
      attributeAt (createLlvmFunction site.functionType) (i + 1) := by
  have hparam : ∀ k < site.values.length,
      attributeAt site.inst.attributes (baseLlvmArgIdx site.functionType + 1 + k) =
        attributeAt (createLlvmFunction site.functionType)
          (baseLlvmArgIdx site.functionType + 1 + k) := by
    intro k hk
    obtain ⟨extraFlags,hflags⟩ := site.allFlags_eq
    have hlength := site.flags_length
    rw [attributeAt_inst,attributeAt_function,hflags,all,List.map_append,site.values_types,
      List.getElem?_append_left (by omega),
      List.getElem?_append_left (by rw [site.argTypes_length]; omega)]
  rw [prepared_types,List.length_append,List.length_zipWith,site.flags_length,site.argTypes_length,
    Nat.min_self] at hi
  cases hmemory : site.functionType.returnsInMemory with
  | false =>
    have hbase : baseLlvmArgIdx site.functionType = 0 := by simp [baseLlvmArgIdx,hmemory]
    have hk := hparam i (by simpa [hiddenType,hmemory] using hi)
    rw [hbase] at hk
    rwa [Nat.add_comm i 1]
  | true =>
    have hbase : baseLlvmArgIdx site.functionType = 1 := by simp [baseLlvmArgIdx,hmemory]
    cases i with
    | zero =>
      rw [inst_eq,createLlvmFunction_eq,attributeAt_append,attributeAt_append,
        attributeAt_byValLoop_lt (by omega),attributeAt_byValLoop_lt (by omega),Option.none_or,
        Option.or_none]
    | succ k =>
      have hlt : k < site.values.length := by
        simp only [hiddenType,hmemory,if_true,List.length_singleton] at hi
        omega
      have hk := hparam k hlt
      rw [hbase] at hk
      rwa [show k + 1 + 1 = 1 + 1 + k by omega]

theorem enter_eq (site : CallSite) : enter site.functionType site.inst =
    some (hiddenArg site.functionType ++
      List.zipWith passed (flags site.functionType) site.values) := by
  obtain ⟨extraFlags,hflags⟩ := site.allFlags_eq
  have hlength := site.flags_length
  have hargs : site.inst.args = (hiddenArg site.functionType ++
      List.zipWith passed (flags site.functionType) site.values) ++
        List.zipWith passed extraFlags site.extra := by
    rw [inst_eq,hflags,all,List.zipWith_append hlength,List.append_assoc]
  have hhidden : (hiddenArg site.functionType).map (·.llvmType) = hiddenType site.functionType := by
    rw [hiddenArg,hiddenType]
    split <;> rfl
  have hdeclared : (List.zipWith passed (flags site.functionType) site.values).map (·.llvmType) =
      List.zipWith declared (flags site.functionType) site.functionType.argTypes := by
    rw [← site.values_types,List.map_zipWith,List.zipWith_map_right]
    congr 1
    funext flag value
    cases flag <;> rfl
  have hcount : (prepareFunctionType site.functionType).llvmArgTypeArray.length =
      (hiddenArg site.functionType ++
        List.zipWith passed (flags site.functionType) site.values).length := by
    rw [prepared_types,← hhidden,← hdeclared,← List.map_append,List.length_map]
  rw [enter,hargs,hcount,List.take_left',if_pos]
  · refine ⟨?_,?_,?_⟩
    · rw [List.map_append,hhidden,hdeclared,prepared_types]
    · by_cases hextra : site.extra = []
      · left
        rw [hextra,List.zipWith_nil_right,List.append_nil]
      · exact .inr (site.extra_varArg hextra)
    · intro i hi
      exact site.attributes_eq (hcount ▸ hi)
  · rfl

end CallSite

end Jancy.Ct.CdeclCallConv
