import Jancy.Ct.TypeMgr

/-! Every run of requests that can be told apart gets exactly the types it asks for. -/
namespace Jancy.Ct.Types

/-- The slot in which a pointer type is filed. -/
def Ty.slot : Ty → Option PtrSlot
  | .dataPtr isRef ptrKind flags none targetType =>
    some (dataPtrSlot targetType isRef ptrKind flags)
  | .classPtr isRef ptrKind flags targetType => some (classPtrSlot targetType isRef ptrKind flags)
  | .functionPtr isRef ptrKind flags targetType =>
    some (functionPtrSlot targetType isRef ptrKind flags)
  | .propertyPtr isRef ptrKind flags targetType =>
    some (propertyPtrSlot targetType isRef ptrKind flags)
  | _ => none

/-- What a slot says of the pointer type in it, apart from the flags. -/
def PtrSlot.type (flags : PtrTypeFlags) : PtrSlot → Ty
  | .data targetType _ isRef ptrKind _ _ _ => .dataPtr isRef ptrKind flags none targetType
  | .class_ targetType _ isRef ptrKind _ _ _ => .classPtr isRef ptrKind flags targetType
  | .function targetType isRef ptrKind _ => .functionPtr isRef ptrKind flags targetType
  | .property targetType isRef ptrKind _ => .propertyPtr isRef ptrKind flags targetType

theorem classPtrSlot_type (targetType : LinkId) (isRef : Bool) (ptrKind : ClassPtrKind)
    (flags : PtrTypeFlags) : (classPtrSlot targetType isRef ptrKind flags).type flags =
      .classPtr isRef ptrKind flags targetType := by
  rw [classPtrSlot]
  split_ifs <;> rfl

theorem Ty.eq_of_slot {type : Ty} {slot : PtrSlot} (h : type.slot = some slot) :
    type = slot.type type.ptrTypeFlags := by
  cases type with
  | primitive kind => cases h
  | named kind linkId => cases h
  | array elementType elementCount serial => cases h
  | dataPtr isRef ptrKind flags bits targetType =>
    cases bits with
    | none =>
      obtain rfl := Option.some.inj h
      rfl
    | some bits => cases h
  | classPtr isRef ptrKind flags targetType =>
    obtain rfl := Option.some.inj h
    exact (classPtrSlot_type targetType isRef ptrKind flags).symm
  | functionPtr isRef ptrKind flags targetType =>
    obtain rfl := Option.some.inj h
    rfl
  | propertyPtr isRef ptrKind flags targetType =>
    obtain rfl := Option.some.inj h
    rfl

namespace TypeMgr

variable {promisePtr : Ty} {s : TypeMgr}

structure Inv (s : TypeMgr) : Prop where
  typeMap : ∀ sig type, s.typeMap sig = some type → type ∈ s.typeList ∧ type.signature = sig
  ptrTypeTuple : ∀ slot type, s.ptrTypeTuple slot = some type →
    .data type ∈ s.typeList ∧ type.slot = some slot
  simplePropertyTypeTuple : ∀ slot type, s.simplePropertyTypeTuple slot = some type →
    .property type ∈ s.typeList ∧ ∀ callConv, type.callConv = callConv →
      type.shape = (simplePropertyTy callConv slot.returnType slot.isConst slot.bindable).shape
  fresh : ∀ type ∈ s.typeList, s.Fresh type

theorem Inv.coherent (hinv : s.Inv) : s.Coherent := by
  intro type htype type' htype'
  constructor
  · intro hequal
    exact hinv.fresh type' htype' type htype (AnyTy.isEqual_iff.1 hequal)
  · intro hshape
    exact AnyTy.isEqual_iff.2 (AnyTy.forget_eq_of_shape hshape)

theorem Fresh.of_shape {type type' : AnyTy} (h : s.Fresh type) (hshape : type'.shape = type.shape) :
    s.Fresh type' := by
  intro other hother hforget
  rw [hshape]
  exact h other hother (hforget.trans (AnyTy.forget_eq_of_shape hshape))

variable {type : AnyTy}

theorem Inv.fresh_append (hinv : s.Inv) (hfresh : s.Fresh type) :
    ∀ type₁ ∈ s.typeList ++ [type], ∀ type₂ ∈ s.typeList ++ [type],
      type₂.forget = type₁.forget → type₂.shape = type₁.shape := by
  intro type₁ h₁ type₂ h₂ hforget
  simp only [List.mem_append,List.mem_singleton] at h₁ h₂
  rcases h₁ with h₁ | rfl <;> rcases h₂ with h₂ | rfl
  · exact hinv.fresh type₁ h₁ type₂ h₂ hforget
  · exact (hfresh type₁ h₁ hforget.symm).symm
  · exact hfresh type₂ h₂ hforget
  · rfl

/-- What a request leaves: the type that was asked for, and no other new type. -/
structure Served (s : TypeMgr) (asked type : AnyTy) (s' : TypeMgr) : Prop where
  shape : type.shape = asked.shape
  inv : s'.Inv
  mem : type ∈ s'.typeList
  only : ∀ other ∈ s'.typeList, other ∈ s.typeList ∨ other.shape = asked.shape

theorem Inv.append (hinv : s.Inv) (hfresh : s.Fresh type) {s' : TypeMgr}
    (hlist : s'.typeList = s.typeList ++ [type])
    (hmap : ∀ sig cached, s'.typeMap sig = some cached →
      s.typeMap sig = some cached ∨ cached = type ∧ type.signature = sig)
    (htuple : ∀ slot cached, s'.ptrTypeTuple slot = some cached →
      s.ptrTypeTuple slot = some cached ∨ .data cached = type ∧ cached.slot = some slot)
    (hsimple : s'.simplePropertyTypeTuple = s.simplePropertyTypeTuple) : s'.Inv where
  typeMap := by
    intro sig cached hcached
    rw [hlist]
    rcases hmap sig cached hcached with hcached | ⟨rfl,hsig⟩
    · obtain ⟨hmem,hsig⟩ := hinv.typeMap sig cached hcached
      exact ⟨List.mem_append_left _ hmem,hsig⟩
    · exact ⟨by simp,hsig⟩
  ptrTypeTuple := by
    intro slot cached hcached
    rw [hlist]
    rcases htuple slot cached hcached with hcached | ⟨htype,hslot⟩
    · obtain ⟨hmem,hslot⟩ := hinv.ptrTypeTuple slot cached hcached
      exact ⟨List.mem_append_left _ hmem,hslot⟩
    · exact ⟨by simp [htype],hslot⟩
  simplePropertyTypeTuple := by
    intro slot cached hcached
    rw [hlist]
    rw [hsimple] at hcached
    obtain ⟨hmem,hshape⟩ := hinv.simplePropertyTypeTuple slot cached hcached
    exact ⟨List.mem_append_left _ hmem,hshape⟩
  fresh := by
    intro type₁ h₁ type₂ h₂
    rw [hlist] at h₁ h₂
    exact hinv.fresh_append hfresh type₁ h₁ type₂ h₂

theorem mem_append_or_shape {asked type : AnyTy} (hshape : type.shape = asked.shape) :
    ∀ other ∈ s.typeList ++ [type], other ∈ s.typeList ∨ other.shape = asked.shape := by
  intro other hother
  simp only [List.mem_append,List.mem_singleton] at hother
  rcases hother with hother | rfl
  · exact Or.inl hother
  · exact Or.inr hshape

theorem create_served (hinv : s.Inv) {asked type : AnyTy} (hfresh : s.Fresh asked)
    (hshape : type.shape = asked.shape) :
    Served s asked (s.create type).1 (s.create type).2 where
  shape := hshape
  inv := by
    apply hinv.append (hfresh.of_shape hshape)
    · rfl
    · exact fun sig cached hcached => Or.inl hcached
    · exact fun slot cached hcached => Or.inl hcached
    · rfl
  mem := by simp [create]
  only := mem_append_or_shape hshape

theorem visit_served (hinv : s.Inv) (hfresh : s.Fresh type) :
    Served s type (s.visit type).1 (s.visit type).2 := by
  rw [visit]
  cases hcached : s.typeMap type.signature with
  | some cached =>
    obtain ⟨hmem,hsig⟩ := hinv.typeMap _ cached hcached
    have hshape := hfresh cached hmem (AnyTy.isEqual_iff.1 hsig)
    exact ⟨hshape,hinv,hmem,fun other hother => Or.inl hother⟩
  | none =>
    refine ⟨rfl,?_,by simp,mem_append_or_shape rfl⟩
    apply hinv.append hfresh
    · rfl
    · intro sig cached hcached'
      simp only [Function.update_apply] at hcached'
      split_ifs at hcached' with hsig
      · exact Or.inr ⟨(Option.some.inj hcached').symm,hsig.symm⟩
      · exact Or.inl hcached'
    · exact fun slot cached hcached' => Or.inl hcached'
    · rfl

theorem visitPtr_served (hinv : s.Inv) {slot : PtrSlot} {type : Ty} (hfresh : s.Fresh (.data type))
    (hslot : type.slot = some slot) (hflags : s.SlotFlags slot type.ptrTypeFlags) :
    Served s (.data type) (s.visitPtr slot type).1 (s.visitPtr slot type).2 := by
  rw [visitPtr]
  cases hcached : s.ptrTypeTuple slot with
  | some cached =>
    obtain ⟨hmem,hcachedSlot⟩ := hinv.ptrTypeTuple slot cached hcached
    have hsame : cached = type := by
      rw [Ty.eq_of_slot hcachedSlot,hflags cached hcached,← Ty.eq_of_slot hslot]
    exact ⟨by rw [hsame],hinv,hmem,fun other hother => Or.inl hother⟩
  | none =>
    refine ⟨rfl,?_,by simp,mem_append_or_shape rfl⟩
    apply hinv.append hfresh
    · rfl
    · exact fun sig cached hcached' => Or.inl hcached'
    · intro slot' cached hcached'
      simp only [Function.update_apply] at hcached'
      split_ifs at hcached' with hsame
      · obtain rfl := Option.some.inj hcached'
        exact Or.inr ⟨rfl,by rw [hslot,hsame]⟩
      · exact Or.inl hcached'
    · rfl

variable {callConv : CallConvKind} {returnType : Ty}

theorem getFunctionType_served (hinv : s.Inv) {argArray : ArgTys} {flags : FunctionTypeFlags}
    (hfresh : s.Fresh (.function (.mk flags callConv returnType .null argArray none))) :
    ∃ type s', s.getFunctionType callConv returnType argArray flags = some (type,s') ∧
      Served s (.function (.mk flags callConv returnType .null argArray none)) (.function type)
        s' := by
  have hserved := visit_served hinv hfresh
  rw [getFunctionType]
  generalize s.visit (.function (.mk flags callConv returnType .null argArray none)) = result
    at hserved ⊢
  rcases result with ⟨type | type | type,s'⟩
  · exact absurd hserved.shape (by simp [AnyTy.shape])
  · exact ⟨type,s',rfl,hserved⟩
  · exact absurd hserved.shape (by simp [AnyTy.shape])

variable {isConst bindable : Bool}

theorem getPropertyType_served (hinv : s.Inv) {getterType : FunctionTy} {setterType : SetterTys}
    (hfresh : s.Fresh (.property (propertyTy getterType setterType isConst bindable))) :
    ∃ type s', s.getPropertyType getterType setterType isConst bindable = some (type,s') ∧
      Served s (.property (propertyTy getterType setterType isConst bindable)) (.property type)
        s' := by
  have hserved := visit_served hinv hfresh
  rw [getPropertyType]
  generalize s.visit (.property (propertyTy getterType setterType isConst bindable)) = result
    at hserved ⊢
  rcases result with ⟨type | type | type,s'⟩
  · exact absurd hserved.shape (by simp [AnyTy.shape])
  · exact absurd hserved.shape (by simp [AnyTy.shape])
  · exact ⟨type,s',rfl,hserved⟩

theorem Served.fresh_property {s' : TypeMgr} {asked : FunctionTy}
    (hserved : Served s (.function asked) type s') {property : PropertyTy}
    (hfresh : s.Fresh (.property property)) : s'.Fresh (.property property) := by
  intro other hother hforget
  rcases hserved.only other hother with hold | hshape
  · exact hfresh other hold hforget
  · have hfunction := AnyTy.forget_eq_of_shape hshape
    rw [hforget] at hfunction
    cases hfunction

theorem Served.fresh_setter {s' : TypeMgr}
    (hserved : Served s (.function (simpleGetterTy callConv returnType)) type s')
    (hfresh : s.Fresh (.function (simpleSetterTy callConv returnType))) :
    s'.Fresh (.function (simpleSetterTy callConv returnType)) := by
  intro other hother hforget
  rcases hserved.only other hother with hold | hshape
  · exact hfresh other hold hforget
  · have hgetter := AnyTy.forget_eq_of_shape hshape
    rw [hforget] at hgetter
    simp [AnyTy.forget,simpleSetterTy,simpleGetterTy,FunctionTy.forget,ArgTys.forget] at hgetter

theorem createSimplePropertyType_served (hinv : s.Inv)
    (hgetter : s.Fresh (.function (simpleGetterTy callConv returnType)))
    (hsetter : isConst = false → s.Fresh (.function (simpleSetterTy callConv returnType)))
    (hproperty : s.Fresh (.property (simplePropertyTy callConv returnType isConst bindable))) :
    ∃ type s', s.createSimplePropertyType callConv returnType isConst bindable = some (type,s') ∧
      type.shape = (simplePropertyTy callConv returnType isConst bindable).shape ∧ s'.Inv ∧
      .property type ∈ s'.typeList := by
  obtain ⟨getterType,s₁,hget,hserved₁⟩ := getFunctionType_served hinv hgetter
  have hgetterShape := AnyTy.function.inj hserved₁.shape
  rw [createSimplePropertyType,hget]
  cases isConst with
  | true =>
    have hshape : (propertyTy getterType .nil true bindable).shape =
        (simplePropertyTy callConv returnType true bindable).shape := by
      simp [propertyTy,simplePropertyTy,PropertyTy.shape,hgetterShape,simpleGetterTy]
    have hany : (AnyTy.property (propertyTy getterType .nil true bindable)).shape =
        (AnyTy.property (simplePropertyTy callConv returnType true bindable)).shape :=
      congrArg AnyTy.property hshape
    have hfresh := (hserved₁.fresh_property hproperty).of_shape hany
    obtain ⟨type,s₂,hprop,hserved₂⟩ := getPropertyType_served hserved₁.inv hfresh
    exact ⟨type,s₂,hprop,(AnyTy.property.inj hserved₂.shape).trans hshape,hserved₂.inv,
      hserved₂.mem⟩
  | false =>
    obtain ⟨setterType,s₂,hset,hserved₂⟩ := getFunctionType_served hserved₁.inv
      (hserved₁.fresh_setter (hsetter rfl))
    have hsetterShape := AnyTy.function.inj hserved₂.shape
    have hshape : (propertyTy getterType (.cons setterType .nil) false bindable).shape =
        (simplePropertyTy callConv returnType false bindable).shape := by
      simp [propertyTy,simplePropertyTy,PropertyTy.shape,SetterTys.shape,hgetterShape,
        hsetterShape,simpleGetterTy,simpleSetterTy]
    have hany : (AnyTy.property (propertyTy getterType (.cons setterType .nil) false bindable)).shape
        = (AnyTy.property (simplePropertyTy callConv returnType false bindable)).shape :=
      congrArg AnyTy.property hshape
    have hfresh := (hserved₂.fresh_property (hserved₁.fresh_property hproperty)).of_shape hany
    obtain ⟨type,s₃,hprop,hserved₃⟩ := getPropertyType_served hserved₂.inv hfresh
    refine ⟨type,s₃,?_,(AnyTy.property.inj hserved₃.shape).trans hshape,hserved₃.inv,
      hserved₃.mem⟩
    simp only [Option.bind_eq_bind,Option.bind_some,Bool.false_eq_true,if_false,hset,hprop]

theorem callConv_of_shape {type : PropertyTy}
    (h : type.shape = (simplePropertyTy callConv returnType isConst bindable).shape) :
    type.callConv = callConv := by
  rcases type with ⟨isConst',bindable',⟨flags,callConv',returnType',asyncReturnType,args,serial⟩,
    setterType⟩
  simp only [simplePropertyTy,propertyTy,simpleGetterTy,PropertyTy.shape,FunctionTy.shape,
    PropertyTy.mk.injEq,FunctionTy.mk.injEq] at h
  exact h.2.2.1.2.1

theorem getSimplePropertyType_served (hinv : s.Inv)
    (hdistinct : s.Distinguished promisePtr (.simpleProperty callConv returnType isConst bindable)) :
    ∃ type s', s.getSimplePropertyType callConv returnType isConst bindable = some (type,s') ∧
      type.shape = (simplePropertyTy callConv returnType isConst bindable).shape ∧ s'.Inv := by
  obtain ⟨hproperty,hgetter,hsetter,hslot⟩ := hdistinct
  rw [getSimplePropertyType]
  cases hcached : s.simplePropertyTypeTuple
      ⟨returnType,callConv.simplePropertyIdx,isConst,bindable⟩ with
  | some cached =>
    obtain ⟨-,hshape⟩ := hinv.simplePropertyTypeTuple _ cached hcached
    exact ⟨cached,s,rfl,hshape callConv (hslot cached hcached),hinv⟩
  | none =>
    obtain ⟨type,s',hcreate,hshape,hinv',hmem⟩ := createSimplePropertyType_served hinv hgetter
      hsetter hproperty
    refine ⟨type,_,by simp only [hcreate,Option.bind_eq_bind,Option.bind_some]; rfl,hshape,?_⟩
    refine ⟨hinv'.typeMap,hinv'.ptrTypeTuple,?_,hinv'.fresh⟩
    intro slot cached hcached'
    simp only [Function.update_apply] at hcached'
    split_ifs at hcached' with hsame
    · obtain rfl := Option.some.inj hcached'
      refine ⟨hmem,?_⟩
      rintro callConv' rfl
      rw [hsame,callConv_of_shape hshape]
      exact hshape
    · exact hinv'.simplePropertyTypeTuple slot cached hcached'

/-- One request that can be told apart gets the type that it describes. -/
theorem request_exact (hinv : s.Inv) {r : Request} (hdistinct : s.Distinguished promisePtr r) :
    ∃ type s', s.request promisePtr r = some (type,s') ∧
      type.shape = (r.asked promisePtr).shape ∧ s'.Inv := by
  have hserve {asked : AnyTy} {result : AnyTy × TypeMgr} (h : Served s asked result.1 result.2) :
      ∃ type s', some result = some (type,s') ∧ type.shape = asked.shape ∧ s'.Inv :=
    ⟨result.1,result.2,rfl,h.shape,h.inv⟩
  cases r with
  | named kind linkId => exact hserve (create_served hinv hdistinct.1 rfl)
  | array elementType elementCount => exact hserve (visit_served hinv hdistinct.1)
  | userArray elementType elementCount => exact hserve (create_served hinv hdistinct.1 rfl)
  | dataPtr targetType isRef ptrKind flags =>
    exact hserve (visitPtr_served hinv hdistinct.1 rfl hdistinct.2)
  | bitFieldPtr targetType bits isRef ptrKind flags =>
    exact hserve (visit_served hinv hdistinct.1)
  | classPtr targetType isRef ptrKind flags =>
    exact hserve (visitPtr_served hinv hdistinct.1 rfl hdistinct.2)
  | functionPtr targetType isRef ptrKind flags =>
    obtain ⟨hfresh,hslot,hsafe⟩ := hdistinct
    have hflags : functionPtrFlags targetType flags = flags := by
      rw [functionPtrFlags]
      split_ifs with hnotSafe
      · have hnot : flags.safe = false := by simpa [hnotSafe] using hsafe
        rw [← hnot]
      · rfl
    rw [request,hflags]
    exact hserve (visitPtr_served hinv hfresh rfl hslot)
  | propertyPtr targetType isRef ptrKind flags =>
    exact hserve (visitPtr_served hinv hdistinct.1 rfl hdistinct.2)
  | function callConv returnType argArray flags =>
    obtain ⟨hfresh,hasync⟩ := hdistinct
    have hasked : userFunctionTy promisePtr callConv returnType argArray flags none =
        .mk flags callConv returnType .null argArray none := by
      simp [userFunctionTy,hasync]
    rw [Request.asked,hasked] at hfresh ⊢
    obtain ⟨type,s',hget,hserved⟩ := getFunctionType_served hinv hfresh
    refine ⟨.function type,s',?_,hserved.shape,hserved.inv⟩
    rw [request,hget]
    rfl
  | userFunction callConv returnType argArray flags =>
    apply hserve (create_served hinv hdistinct.1 _)
    simp only [AnyTy.shape,Request.asked,userFunctionTy]
    split_ifs <;> rfl
  | property getterType setterType isConst bindable =>
    obtain ⟨type,s',hget,hserved⟩ := getPropertyType_served hinv hdistinct.1
    refine ⟨.property type,s',?_,hserved.shape,hserved.inv⟩
    rw [request,hget]
    rfl
  | simpleProperty callConv returnType isConst bindable =>
    obtain ⟨type,s',hget,hshape,hinv'⟩ := getSimplePropertyType_served hinv hdistinct
    refine ⟨.property type,s',?_,congrArg AnyTy.property hshape,hinv'⟩
    rw [request,hget]
    rfl

theorem exactRequests_of_distinct (hinv : s.Inv) {rs : List Request}
    (h : DistinctRequests promisePtr s rs) : ExactRequests promisePtr s rs := by
  induction rs generalizing s with
  | nil => exact hinv.coherent
  | cons r rs ih =>
    obtain ⟨hdistinct,hrest⟩ := h
    obtain ⟨type,s',hrequest,hshape,hinv'⟩ := request_exact hinv hdistinct
    exact ⟨hinv.coherent,type,s',hrequest,hshape,ih hinv' (hrest type s' hrequest)⟩

theorem init_inv : init.Inv where
  typeMap := by
    intro sig type h
    cases h
  ptrTypeTuple := by
    intro slot type h
    cases h
  simplePropertyTypeTuple := by
    intro slot type h
    cases h
  fresh := by
    intro type htype other hother hforget
    simp only [init,List.mem_map] at htype hother
    obtain ⟨kind,-,rfl⟩ := htype
    obtain ⟨kind',-,rfl⟩ := hother
    exact hforget

/-- Two types are told apart by their signatures exactly if they do not differ in forgotten parts
only; and in every run in which no request differs in forgotten parts only from what there is, every
request gets exactly the type that it describes. -/
theorem exactRequests (promisePtr : Ty) :
    (∀ type type' : AnyTy, (type.isEqual type' ↔ type.shape = type'.shape) ↔
      (type.forget = type'.forget → type.shape = type'.shape)) ∧
    ∀ rs, DistinctRequests promisePtr init rs → ExactRequests promisePtr init rs := by
  constructor
  · intro type type'
    rw [AnyTy.isEqual_iff]
    exact ⟨fun h => h.1,fun h => ⟨h,AnyTy.forget_eq_of_shape⟩⟩
  · intro rs h
    exact exactRequests_of_distinct init_inv h

/-- A request that is made twice. -/
theorem exactRequests_array : ExactRequests (.primitive .void) init
    [.array (.primitive .int8) 4,.array (.primitive .int8) 4] := by
  apply (exactRequests (.primitive .void)).2
  refine ⟨⟨by decide,trivial⟩,?_⟩
  intro type s' h
  obtain ⟨rfl,rfl⟩ := Prod.mk.inj (Option.some.inj h)
  exact ⟨⟨by decide,trivial⟩,fun type s' h => trivial⟩

def thinPtrRequests : List Request :=
  [.dataPtr (.primitive .int8) false .thin {},
    .dataPtr (.primitive .int8) true .normal {},
    .function .cdecl_gcc64 (.primitive .void)
      (.cons false (.dataPtr false .thin {} none (.primitive .int8)) .nil) {},
    .function .cdecl_gcc64 (.primitive .void)
      (.cons false (.dataPtr true .normal {} none (.primitive .int8)) .nil) {}]

/-- A thin pointer and a normal reference have one signature. -/
theorem thinPtrRequests_not_exact :
    ¬ ExactRequests (.primitive .void) init thinPtrRequests := by
  rintro ⟨-,type₁,s₁,h₁,-,-,type₂,s₂,h₂,-,hcoherent,-⟩
  obtain ⟨rfl,rfl⟩ := Prod.mk.inj (Option.some.inj h₁)
  obtain ⟨rfl,rfl⟩ := Prod.mk.inj (Option.some.inj h₂)
  have hequal := hcoherent (.data (.dataPtr false .thin {} none (.primitive .int8))) (by decide)
    (.data (.dataPtr true .normal {} none (.primitive .int8))) (by decide)
  exact absurd (hequal.1 (by decide)) (by decide)

/-- The function that takes the reference is the one that takes the thin pointer. -/
example : (do
    let (_,s) ← init.request (.primitive .void) thinPtrRequests[2]
    let (type,_) ← s.request (.primitive .void) thinPtrRequests[3]
    pure type) = some (.function (.mk {} .cdecl_gcc64 (.primitive .void) .null
      (.cons false (.dataPtr false .thin {} none (.primitive .int8)) .nil) none)) := by
  decide

end TypeMgr

end Jancy.Ct.Types
