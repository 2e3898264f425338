import Jancy.Ct.OverloadChoice
import Jancy.Ct.PropertyBody

/-! Property pointer casts: when the thunks that they create can be created, and for every property
when its vtable agrees with its type. -/
namespace Jancy.Ct.Properties

variable {κ α : Type} [DecidableEq κ] [DecidableEq α] {Γ : TypeMgr κ α}

/-- All accessors have the same index arguments, and the setters differ in their arguments. -/
def PropertyType.Verified (T : PropertyType κ α) : Prop :=
  ∃ args, indexArgs .getter T.getterType = some args ∧
    (∀ f ∈ T.setterType, indexArgs .setter f = some args) ∧
    (T.setterType.map (·.argSignature)).Nodup

variable {f : FunctionType κ α}

omit [DecidableEq κ] [DecidableEq α] in
theorem getShortType_plain (hf : f.isMemberMethodType = false) :
    f.getShortType = f := by
  simp [FunctionType.getShortType, hf]

/-- A property type as it is declared: its accessors take no `this`. -/
structure DeclaredPropertyType (κ α : Type) [DecidableEq κ] [DecidableEq α] where
  type : PropertyType κ α
  verified : type.Verified
  plainGetter : type.getterType.isMemberMethodType = false
  plainSetter : ∀ f ∈ type.setterType, f.isMemberMethodType = false

omit [DecidableEq κ] [DecidableEq α] in
theorem isMemberMethodType_plain (h : ∀ arg ∈ f.args, arg.isThis = false) :
    f.isMemberMethodType = false := by
  unfold FunctionType.isMemberMethodType
  cases hargs : f.args with
  | nil => rfl
  | cons arg args => exact h arg (by rw [hargs]; exact List.mem_cons_self)

/-- The setter of a read-write property type. -/
def indexedSetter (Γ : TypeMgr κ α) (returnType : Ty κ α) (args : List (FunctionArg κ α)) :
    FunctionType κ α where
  callConv := Γ.defaultCallConv
  returnType := .data Γ.voidType
  args := args ++ [{ type := returnType }]

omit [DecidableEq κ] [DecidableEq α] in
theorem indexedSetter_plain {returnType : Ty κ α} {args : List (FunctionArg κ α)}
    (plain : ∀ arg ∈ args, arg.isThis = false) :
    (indexedSetter Γ returnType args).isMemberMethodType = false := by
  apply isMemberMethodType_plain
  intro arg harg
  obtain harg | harg := List.mem_append.mp harg
  · exact plain arg harg
  · rw [List.mem_singleton.mp harg]

/-- `createIndexedPropertyType`, and `getSimplePropertyType` where there are no index arguments. -/
def DeclaredPropertyType.indexed (Γ : TypeMgr κ α) (returnType : Ty κ α)
    (args : List (FunctionArg κ α)) (plain : ∀ arg ∈ args, arg.isThis = false)
    (isConst isBindable : Bool) : DeclaredPropertyType κ α where
  type := {
    getterType := { callConv := Γ.defaultCallConv, returnType := returnType, args := args }
    setterType := if isConst then [] else [indexedSetter Γ returnType args]
    isBindable := isBindable }
  verified := by
    refine ⟨args.map (·.type),?_,?_,?_⟩
    · unfold indexArgs
      rw [getShortType_plain (isMemberMethodType_plain plain)]
    · intro f hf
      split at hf
      · cases hf
      obtain rfl := List.mem_singleton.mp hf
      unfold indexArgs
      rw [getShortType_plain (indexedSetter_plain plain)]
      simp [indexedSetter]
    · split <;> simp
  plainGetter := isMemberMethodType_plain plain
  plainSetter := by
    intro f hf
    split at hf
    · cases hf
    obtain rfl := List.mem_singleton.mp hf
    exact indexedSetter_plain plain

omit [DecidableEq α] in
theorem indexArgs_member {functionKind : AccessorKind} {parentType : κ} {flags : Types.PtrTypeFlags}
    (hf : f.isMemberMethodType = false) :
    indexArgs functionKind (Γ.getMemberMethodType parentType f flags) = indexArgs functionKind f := by
  unfold indexArgs
  rw [TypeMgr.getMemberMethodType_short, getShortType_plain hf]

/-- Of the setters of the target one takes the value of a thunk setter better than all others. -/
def SetterChosen (Γ : TypeMgr κ α) (overloads : List (FunctionType κ α))
    (thunkType : FunctionType κ α) : Prop :=
  ∃ kinds i, setterValueCastKinds Γ overloads thunkType = some kinds ∧ IsBest kinds i

variable {overloads : List (FunctionType κ α)} {thunkType : FunctionType κ α}

omit [DecidableEq κ] [DecidableEq α] in
theorem chooseSetterOverload_isSome_iff :
    (∃ i, chooseSetterOverload Γ overloads thunkType = some i) ↔
      SetterChosen Γ overloads thunkType := by
  simp only [chooseSetterOverload, Option.bind_eq_some_iff, chooseBest_eq_some_iff, SetterChosen]
  exact ⟨fun ⟨i,kinds,hkinds,hi⟩ => ⟨kinds,i,hkinds,hi⟩,fun ⟨kinds,i,hkinds,hi⟩ => ⟨i,kinds,hkinds,hi⟩⟩

omit [DecidableEq κ] [DecidableEq α] in
theorem castKinds_length {kindOf : FunctionType κ α → Option CastKind} {kinds : List CastKind}
    (h : overloads.mapM kindOf = some kinds) :
    kinds.length = overloads.length := by
  induction overloads generalizing kinds with
  | nil =>
    obtain rfl : [] = kinds := by simpa using h
    rfl
  | cons f overloads ih =>
    simp only [List.mapM_cons, Option.bind_eq_bind, Option.pure_def, Option.bind_eq_some_iff,
      Option.some.injEq] at h
    obtain ⟨kind,-,kinds',hkinds,rfl⟩ := h
    simp [ih hkinds]

omit [DecidableEq κ] [DecidableEq α] in
theorem chooseSetterOverload_lt {i : ℕ} (h : chooseSetterOverload Γ overloads thunkType = some i) :
    i < overloads.length := by
  obtain ⟨kinds,hkinds,hi⟩ := Option.bind_eq_some_iff.mp h
  obtain ⟨kind,hkind,-⟩ := chooseBest_eq_some_iff.mp hi
  have hlt : i < kinds.length := (List.getElem?_eq_some_iff.mp hkind).1
  simp only [setterValueCastKinds, Option.bind_eq_bind, Option.bind_eq_some_iff] at hkinds
  obtain ⟨first,-,value,-,hkinds⟩ := hkinds
  rw [← castKinds_length hkinds]
  exact hlt

/-- The arguments of the function that stands for a thunk. -/
def thunkArgs (Γ : TypeMgr κ α) (hasUnusedClosure : Bool) (thunkType : FunctionType κ α) :
    List (Ty κ α) × Bool :=
  (if hasUnusedClosure then Γ.getStdObjectMemberMethodType thunkType else thunkType).argSignature

variable {hasUnusedClosure : Bool}

omit [DecidableEq α] in
theorem thunkArgs_injective {f g : FunctionType κ α}
    (h : thunkArgs Γ hasUnusedClosure f = thunkArgs Γ hasUnusedClosure g) :
    f.argSignature = g.argSignature := by
  cases hasUnusedClosure with
  | false => exact h
  | true =>
    simpa [thunkArgs, FunctionType.argSignature, TypeMgr.getStdObjectMemberMethodType,
      TypeMgr.getMemberMethodType] using h

theorem getDirectThunkFunction_args {target : Accessor κ α} :
    (getDirectThunkFunction Γ target thunkType hasUnusedClosure).type.argSignature =
      thunkArgs Γ hasUnusedClosure thunkType := by
  cases hasUnusedClosure with
  | true =>
    rw [getDirectThunkFunction_unused]
    rfl
  | false =>
    have hequal : (getDirectThunkFunction Γ target thunkType false).type.signature =
        thunkType.signature :=
      FunctionType.isEqual_iff.mp getDirectThunkFunction_isEqual
    have hargs := congrArg FunctionType.Signature.argTypes hequal
    have hvar := congrArg FunctionType.Signature.isVarArg hequal
    exact Prod.ext hargs hvar

theorem createThunkSetters_isSome_iff {target : Property κ α} {thunkTypes : List (FunctionType κ α)}
    {setter : List (Accessor κ α)} (hnodup : (setter.map (·.type.argSignature) ++
      thunkTypes.map (thunkArgs Γ hasUnusedClosure)).Nodup) :
    (createThunkSetters Γ target hasUnusedClosure thunkTypes setter).isSome ↔
      ∀ f ∈ thunkTypes, SetterChosen Γ (target.setter.map (·.type)) f := by
  induction thunkTypes generalizing setter with
  | nil => simp [createThunkSetters]
  | cons thunkType thunkTypes ih =>
    rw [List.forall_mem_cons, ← chooseSetterOverload_isSome_iff]
    cases hchoose : chooseSetterOverload Γ (target.setter.map (·.type)) thunkType with
    | none => simp [createThunkSetters, hchoose]
    | some i =>
      have hlt : i < target.setter.length := by
        simpa using chooseSetterOverload_lt hchoose
      have hget : target.setter[i]? = some target.setter[i] := List.getElem?_eq_getElem hlt
      have hfresh : (setter.any fun f => f.type.argSignature ==
          (getDirectThunkFunction Γ target.setter[i] thunkType hasUnusedClosure).type.argSignature) =
          false := by
        rw [List.any_eq_false]
        intro f hf
        rw [getDirectThunkFunction_args, beq_iff_eq]
        intro heq
        obtain ⟨-,-,hdisjoint⟩ := List.nodup_append.mp hnodup
        exact hdisjoint _ (List.mem_map_of_mem hf) _ List.mem_cons_self heq
      have hstep : createThunkSetters Γ target hasUnusedClosure (thunkType :: thunkTypes) setter =
          createThunkSetters Γ target hasUnusedClosure thunkTypes
            (setter ++ [getDirectThunkFunction Γ target.setter[i] thunkType hasUnusedClosure]) := by
        simp only [createThunkSetters, hchoose, hget, Option.bind_eq_bind, Option.bind_some, hfresh]
        rfl
      rw [hstep, ih]
      · simp
      · rw [List.map_append, List.map_singleton, getDirectThunkFunction_args]
        simpa using hnodup

variable {T : PropertyType κ α}

theorem createThunkProperty_isSome_iff {target : Property κ α} (hgetter : target.getter.isSome)
    (hdistinct : (T.setterType.map (·.argSignature)).Nodup) :
    (createThunkProperty Γ target T hasUnusedClosure).isSome ↔
      ∀ f ∈ T.setterType, SetterChosen Γ (target.setter.map (·.type)) f := by
  obtain ⟨getter,hgetter⟩ := Option.isSome_iff_exists.mp hgetter
  have hnodup : (T.setterType.map (thunkArgs Γ hasUnusedClosure)).Nodup := by
    rw [List.Nodup, List.pairwise_map] at hdistinct ⊢
    exact hdistinct.imp fun hne heq => hne (thunkArgs_injective heq)
  have hsetters : (createThunkSetters Γ target hasUnusedClosure T.setterType []).isSome ↔
      ∀ f ∈ T.setterType, SetterChosen Γ (target.setter.map (·.type)) f :=
    createThunkSetters_isSome_iff (by simpa using hnodup)
  rw [← hsetters]
  unfold createThunkProperty
  simp only [hgetter, Option.bind_eq_bind, Option.bind_some]
  split
  · next hnone =>
    obtain ⟨hne,hempty⟩ := hnone
    cases htypes : T.setterType with
    | nil => exact absurd htypes hne
    | cons f types => simp [createThunkSetters, chooseSetterOverload, setterValueCastKinds, hempty]
  · cases createThunkSetters Γ target hasUnusedClosure T.setterType [] <;> simp

omit [DecidableEq α] in
theorem PropertyType.Verified.member (h : T.Verified) (parentType : κ)
    (hgetter : T.getterType.isMemberMethodType = false)
    (hsetter : ∀ f ∈ T.setterType, f.isMemberMethodType = false) :
    (T.getMemberPropertyType Γ parentType).Verified := by
  obtain ⟨args,hget,hset,hnodup⟩ := h
  refine ⟨args,?_,?_,?_⟩
  · exact (indexArgs_member hgetter).trans hget
  · intro f hf
    obtain ⟨g,hg,rfl⟩ := List.mem_map.mp hf
    exact (indexArgs_member (hsetter g hg)).trans (hset g hg)
  · rw [List.Nodup, List.pairwise_map] at hnodup
    show ((T.setterType.map _).map _).Nodup
    rw [List.map_map, List.Nodup, List.pairwise_map]
    refine hnodup.imp fun hne heq => hne ?_
    simpa [FunctionType.argSignature, TypeMgr.getMemberMethodType] using heq

variable {p : Property κ α}

omit [DecidableEq α] in
theorem convertMethod_static {f : Accessor κ α} (hparent : p.parentType = none)
    (hstorage : f.storageKind = .undefined ∨ f.storageKind = .static)
    (hflags : f.thisArgTypeFlags = {}) :
    p.convertMethod Γ f = some { f with storageKind := .static } := by
  unfold Property.convertMethod
  rw [hparent]
  obtain h | h := hstorage <;> simp [h, hflags]

variable {args : List (Ty κ α)}

theorem addMethod_setter {f f' : Accessor κ α} (hconvert : p.convertMethod Γ f = some f')
    (hkind : f'.functionKind = .setter) (hconst : p.isConst = false)
    (hverifier : p.verifier = some args) (hindex : indexArgs .setter f'.type = some args)
    (hfresh : (p.setter.any fun g => g.type.argSignature == f'.type.argSignature) = false) :
    p.addMethod Γ f = some { p with setter := p.setter ++ [f'] } := by
  have hcheck : p.checkIndexSignature .setter f'.type = some p := by
    simp [Property.checkIndexSignature, hindex, hverifier]
  simp only [Property.addMethod, hconvert, hkind, hconst, hcheck, hfresh, Option.bind_eq_bind,
    Option.bind_some, Bool.false_eq_true, if_false]

theorem addMethod_getter {f f' : Accessor κ α} (hconvert : p.convertMethod Γ f = some f')
    (hkind : f'.functionKind = .getter) (hgetter : p.getter = none) (hverifier : p.verifier = none)
    (hindex : indexArgs .getter f'.type = some args) :
    p.addMethod Γ f = some { p with getter := some f', verifier := some args } := by
  have hcheck : p.checkIndexSignature .getter f'.type = some { p with verifier := some args } := by
    simp [Property.checkIndexSignature, hindex, hverifier]
  simp [Property.addMethod, hconvert, hkind, hcheck, hgetter]

theorem addMethod_binder {f f' : Accessor κ α} (hconvert : p.convertMethod Γ f = some f')
    (hkind : f'.functionKind = .binder) (hbinder : p.binder = none) :
    p.addMethod Γ f = some { p with binder := some f' } := by
  simp [Property.addMethod, hconvert, hkind, hbinder]

theorem createSetters_isSome {flags : Property.CreateFlags} {types : List (FunctionType κ α)}
    (hparent : p.parentType = none) (hstorage : p.storageKind = .static)
    (hconst : p.isConst = false) (hverifier : p.verifier = some args)
    (htypes : ∀ f ∈ types, indexArgs .setter f = some args)
    (hnodup : (p.setter.map (·.type.argSignature) ++ types.map (·.argSignature)).Nodup) :
    (p.createSetters Γ flags types).isSome := by
  induction types generalizing p with
  | nil => rfl
  | cons type types ih =>
    have hstorage' : (p.createAccessor flags .setter type {}).storageKind = .undefined ∨
        (p.createAccessor flags .setter type {}).storageKind = .static := by
      unfold Property.createAccessor Property.getAccessorStorageKind
      cases flags.noStorage <;> simp [hstorage]
    have hconvert := convertMethod_static (Γ := Γ) hparent hstorage' rfl
    have hindex := htypes type List.mem_cons_self
    have hfresh : (p.setter.any fun f => f.type.argSignature == type.argSignature) = false := by
      rw [List.any_eq_false]
      intro f hf
      rw [beq_iff_eq]
      intro heq
      obtain ⟨-,-,hdisjoint⟩ := List.nodup_append.mp hnodup
      exact hdisjoint _ (List.mem_map_of_mem hf) _ List.mem_cons_self heq
    have hadd := addMethod_setter hconvert rfl hconst hverifier hindex hfresh
    show ((p.addMethod Γ (p.createAccessor flags .setter type {})).bind
      fun p => p.createSetters Γ flags types).isSome
    rw [hadd]
    refine ih hparent hstorage hconst hverifier (fun f hf => htypes f (List.mem_cons_of_mem _ hf)) ?_
    simpa [Property.createAccessor] using hnodup

theorem createBinderOf_static (T : PropertyType κ α) (hparent : p.parentType = none)
    (hstorage : p.storageKind = .static) (hbinder : p.binder = none) (hchanged : p.onChanged = none) :
    ∃ binder onChanged, p.createBinderOf Γ T =
      some { p with binder := binder, onChanged := onChanged } := by
  unfold Property.createBinderOf
  split
  · have hconst : p.constThis = {} := by simp [Property.constThis, hparent]
    have haccessor : p.getAccessorStorageKind = .static := by
      simp [Property.getAccessorStorageKind, hstorage]
    have hconvert := convertMethod_static (Γ := Γ) (p := { p with
        onChanged := some (.data (some (.data Γ.simpleMulticast))) })
      (f := p.createBinder Γ) hparent (.inr haccessor) hconst
    have hadd := addMethod_binder hconvert rfl hbinder
    refine ⟨some { p.createBinder Γ with storageKind := .static },
      some (.data (some (.data Γ.simpleMulticast))),?_⟩
    unfold Property.createOnChanged Property.setOnChanged
    rw [hchanged]
    exact hadd
  · exact ⟨p.binder,p.onChanged,rfl⟩

theorem create_isSome (h : T.Verified) :
    (Property.create Γ { noStorage := true } T
      { storageKind := .static, parentType := none }).isSome := by
  obtain ⟨args,hgetter,hsetter,hnodup⟩ := h
  obtain ⟨binder,onChanged,hbinder⟩ := createBinderOf_static (Γ := Γ)
    (p := { storageKind := .static, parentType := none }) T rfl rfl rfl rfl
  have hconvert := convertMethod_static (Γ := Γ)
    (p := { storageKind := .static, parentType := none, binder := binder, onChanged := onChanged })
    (f := ⟨.getter,.undefined,{},T.getterType⟩) rfl (.inl rfl) rfl
  have hget : Property.createGetterOf Γ { noStorage := true } T _ = some _ :=
    addMethod_getter hconvert rfl rfl rfl hgetter
  have hset : (Property.createSetters Γ { noStorage := true } {
      storageKind := .static
      parentType := none
      binder := binder
      onChanged := onChanged
      getter := some ⟨.getter,.static,{},T.getterType⟩
      verifier := some args } T.setterType).isSome :=
    createSetters_isSome rfl rfl rfl rfl hsetter (by simpa using hnodup)
  obtain ⟨p,hset⟩ := Option.isSome_iff_exists.mp hset
  have hset : Property.createSettersOf Γ { noStorage := true } T _ = some p := hset
  simp only [Property.create, hbinder, Option.bind_eq_bind, Option.bind_some]
  erw [hget]
  simp only [Option.bind_some]
  erw [hset]
  rfl

/-- `Cast_PropertyPtr_FromDataPtr::getCastKind`. -/
def getDataPtrCastKind (Γ : TypeMgr κ α) (dataType : Ty κ α) (dstType : PropertyType κ α) :
    CastKind :=
  if dstType.getterType.args = [] then Γ.castKind dataType dstType.getterType.returnType else .none

theorem createDataThunkProperty_isSome (dst : DeclaredPropertyType κ α) (hasUnusedClosure : Bool) :
    (createDataThunkProperty Γ dst.type hasUnusedClosure).isSome := by
  unfold createDataThunkProperty
  apply create_isSome
  cases hasUnusedClosure with
  | false => exact dst.verified
  | true => exact dst.verified.member Γ.abstractClass dst.plainGetter dst.plainSetter

end Jancy.Ct.Properties
