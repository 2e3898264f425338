import Jancy.Ct.Property
import Mathlib.Data.List.Forall2

/-! The vtable of a property against the struct type of its vtable, and what the thunks of a pointer
cast make of it. -/
namespace Jancy.Ct.Properties

variable {κ α : Type} [DecidableEq κ] [DecidableEq α]

def FitsField (slot : PropertyType.Role × Accessor κ α)
    (field : PropertyType.Role × FunctionType κ α) : Prop :=
  slot.1 = field.1 ∧ slot.2.type.isEqual field.2 = true

instance (slot : PropertyType.Role × Accessor κ α)
    (field : PropertyType.Role × FunctionType κ α) : Decidable (FitsField slot field) :=
  inferInstanceAs (Decidable (_ ∧ _))

/-- The accessors correspond one to one and in order to the fields of the vtable struct type. -/
def VtableAgrees (Γ : TypeMgr κ α) (p : Property κ α) : Prop :=
  ∃ T vtable, p.type = some T ∧ p.prepareVtable = some vtable ∧
    List.Forall₂ FitsField vtable (T.getVtableFields Γ)

def Reaches (Γ : TypeMgr κ α) (p : Property κ α) : Prop :=
  ∃ T vtable, p.type = some T ∧ p.prepareVtable = some vtable ∧
    ∀ role f, (role,f) ∈ T.getVtableFields Γ → ∃ accessor,
      vtable[T.vtableIndex role]? = some (role,accessor) ∧ p.accessor role = some accessor ∧
      accessor.type.isEqual f = true

theorem forall₂_setters {setter : List (Accessor κ α)} {types : List (FunctionType κ α)} {n : ℕ} :
    List.Forall₂ FitsField
      ((setter.zipIdx n).map fun slot => (PropertyType.Role.setter slot.2,slot.1))
      ((types.zipIdx n).map fun field => (PropertyType.Role.setter field.2,field.1)) ↔
    List.Forall₂ (fun f type => f.type.isEqual type = true) setter types := by
  induction setter generalizing types n with
  | nil => cases types <;> simp
  | cons f setter ih =>
    cases types with
    | nil => simp
    | cons type types =>
      simp only [List.zipIdx_cons, List.map_cons, List.forall₂_cons, FitsField]
      rw [ih]
      simp

variable {Γ : TypeMgr κ α} {p : Property κ α}

theorem vtableAgrees_iff {T : PropertyType κ α} {getter : Accessor κ α} (htype : p.type = some T)
    (hgetter : p.getter = some getter) :
    VtableAgrees Γ p ↔ p.binder.isSome = T.isBindable ∧
      (∀ binder, p.binder = some binder → binder.type.isEqual (T.binderType Γ) = true) ∧
      getter.type.isEqual T.getterType = true ∧
      List.Forall₂ (fun f type => f.type.isEqual type = true) p.setter T.setterType := by
  have hvtable : VtableAgrees Γ p ↔ List.Forall₂ FitsField
      (p.binder.toList.map ((PropertyType.Role.binder,·)) ++ (.getter,getter) ::
        p.setter.zipIdx.map fun slot => (.setter slot.2,slot.1)) (T.getVtableFields Γ) := by
    simp [VtableAgrees, Property.prepareVtable, htype, hgetter]
  rw [hvtable, PropertyType.getVtableFields, ← forall₂_setters (n := 0)]
  cases hbinder : p.binder with
  | none => cases hbindable : T.isBindable <;> simp [FitsField]
  | some binder => cases hbindable : T.isBindable <;> simp [FitsField]

variable {f : FunctionType κ α}

omit [DecidableEq α] in
theorem getElem?_vtableIndex {T : PropertyType κ α} {role : PropertyType.Role}
    (h : (role,f) ∈ T.getVtableFields Γ) :
    (T.getVtableFields Γ)[T.vtableIndex role]? = some (role,f) := by
  simp only [PropertyType.getVtableFields, List.mem_append, List.mem_cons, List.mem_map] at h
  obtain h | h | ⟨⟨g,i⟩,hmem,h⟩ := h
  · split at h
    · next hbindable =>
      obtain ⟨rfl,rfl⟩ : role = .binder ∧ f = T.binderType Γ := by simpa using h
      simp [PropertyType.getVtableFields, PropertyType.vtableIndex, hbindable]
    · simp at h
  · obtain ⟨rfl,rfl⟩ : role = .getter ∧ f = T.getterType := by simpa using h
    cases hbindable : T.isBindable <;>
      simp [PropertyType.getVtableFields, PropertyType.vtableIndex, hbindable]
  · obtain ⟨rfl,rfl⟩ : PropertyType.Role.setter i = role ∧ g = f := by simpa using h
    have hg : T.setterType[i]? = some g := List.mem_zipIdx_iff_getElem?.mp hmem
    cases hbindable : T.isBindable
    · simp [PropertyType.getVtableFields, PropertyType.vtableIndex, hbindable, Nat.add_comm 1, hg]
    · simp [PropertyType.getVtableFields, PropertyType.vtableIndex, hbindable,
        show 2 + i = i + 1 + 1 by omega, hg]

omit [DecidableEq κ] [DecidableEq α] in
theorem accessor_of_mem {vtable : List (PropertyType.Role × Accessor κ α)}
    (h : p.prepareVtable = some vtable) {role : PropertyType.Role} {accessor : Accessor κ α}
    (hmem : (role,accessor) ∈ vtable) : p.accessor role = some accessor := by
  cases hgetter : p.getter with
  | none => simp [Property.prepareVtable, hgetter] at h
  | some getter =>
    obtain rfl : _ = vtable := by simpa [Property.prepareVtable, hgetter] using h
    simp only [List.mem_append, List.mem_map, List.mem_cons] at hmem
    obtain ⟨binder,hb,heq⟩ | heq | ⟨⟨f,i⟩,hf,heq⟩ := hmem
    · obtain ⟨rfl,rfl⟩ : PropertyType.Role.binder = role ∧ binder = accessor := by simpa using heq
      simpa [Property.accessor] using hb
    · obtain ⟨rfl,rfl⟩ : role = .getter ∧ accessor = getter := by simpa using heq
      exact hgetter
    · obtain ⟨rfl,rfl⟩ : PropertyType.Role.setter i = role ∧ f = accessor := by simpa using heq
      exact List.mem_zipIdx_iff_getElem?.mp hf

theorem VtableAgrees.reaches (h : VtableAgrees Γ p) :
    Reaches Γ p := by
  obtain ⟨T,vtable,htype,hvtable,hfits⟩ := h
  refine ⟨T,vtable,htype,hvtable,?_⟩
  intro role f hmem
  have hfield := getElem?_vtableIndex hmem
  obtain ⟨hlt,hat⟩ := List.getElem?_eq_some_iff.mp hfield
  have hlt' : T.vtableIndex role < vtable.length := by rw [hfits.length_eq]; exact hlt
  have hslot : FitsField (vtable[T.vtableIndex role]) (role,f) := by
    have := hfits.get hlt' hlt
    simpa [hat] using this
  have hrole : (vtable[T.vtableIndex role]).1 = role := hslot.1
  have hequal : (vtable[T.vtableIndex role]).2.type.isEqual f = true := hslot.2
  have hget : vtable[T.vtableIndex role]? =
      some (role,(vtable[T.vtableIndex role]).2) := by
    rw [List.getElem?_eq_getElem hlt', Option.some.injEq, Prod.ext_iff]
    exact ⟨hrole,rfl⟩
  exact ⟨_,hget,accessor_of_mem hvtable (List.mem_of_getElem? hget),hequal⟩

theorem isEqual_member {parentType : κ} {f g : FunctionType κ α} {flags : Types.PtrTypeFlags} :
    (Γ.getMemberMethodType parentType f flags).isEqual (Γ.getMemberMethodType parentType g flags) =
      f.isEqual g := by
  rw [Bool.eq_iff_iff, FunctionType.isEqual_iff, FunctionType.isEqual_iff]
  simp [FunctionType.signature, TypeMgr.getMemberMethodType]

theorem not_isEqual_member {parentType : κ} {flags : Types.PtrTypeFlags} :
    f.isEqual (Γ.getMemberMethodType parentType f flags) = false := by
  rw [Bool.eq_false_iff, Ne, FunctionType.isEqual_iff]
  intro h
  have hlength := congrArg (fun s => s.argTypes.length) h
  simp [FunctionType.signature, TypeMgr.getMemberMethodType] at hlength

theorem not_isEqual_of_flags {flags flags' : Types.PtrTypeFlags} (h : flags ≠ flags') :
    (Γ.getMemberMethodType Γ.abstractClass f flags).isEqual
      (Γ.getMemberMethodType Γ.abstractClass f flags') = false := by
  rw [Bool.eq_false_iff, Ne, FunctionType.isEqual_iff]
  simp [FunctionType.signature, TypeMgr.getMemberMethodType, h]

theorem getDirectThunkFunction_isEqual {target : Accessor κ α} {thunkType : FunctionType κ α} :
    (getDirectThunkFunction Γ target thunkType false).type.isEqual thunkType = true := by
  unfold getDirectThunkFunction
  split
  · next h => simpa using h
  · exact FunctionType.isEqual_refl _

theorem getDirectThunkFunction_unused {target : Accessor κ α} {thunkType : FunctionType κ α} :
    (getDirectThunkFunction Γ target thunkType true).type =
      Γ.getStdObjectMemberMethodType thunkType := by
  simp [getDirectThunkFunction]

variable {hasUnusedClosure : Bool}

theorem createThunkSetters_fits {target : Property κ α} {thunkTypes : List (FunctionType κ α)}
    {setter setter' : List (Accessor κ α)}
    (h : createThunkSetters Γ target hasUnusedClosure thunkTypes setter = some setter') :
    ∃ thunks, setter' = setter ++ thunks ∧ List.Forall₂ (fun thunk thunkType =>
      ∃ overload ∈ target.setter,
        thunk = getDirectThunkFunction Γ overload thunkType hasUnusedClosure) thunks thunkTypes := by
  induction thunkTypes generalizing setter with
  | nil =>
    obtain rfl : setter = setter' := by simpa [createThunkSetters] using h
    exact ⟨[],by simp,.nil⟩
  | cons thunkType thunkTypes ih =>
    simp only [createThunkSetters, Option.bind_eq_bind, Option.bind_eq_some_iff] at h
    obtain ⟨i,-,overload,hoverload,h⟩ := h
    split at h
    · exact absurd h (by simp)
    · obtain ⟨thunks,rfl,hthunks⟩ := ih h
      exact ⟨_ :: thunks,by simp,.cons ⟨overload,List.mem_of_getElem? hoverload,rfl⟩ hthunks⟩

theorem createThunkSetters_types {target : Property κ α} {thunkType : PropertyType κ α}
    {setter : List (Accessor κ α)}
    (h : createThunkSetters Γ target hasUnusedClosure thunkType.setterType [] = some setter) :
    List.Forall₂ (fun f type => f.type.isEqual type = true) setter
      (if hasUnusedClosure then thunkType.getStdObjectMemberPropertyType Γ
        else thunkType).setterType := by
  obtain ⟨thunks,rfl,hthunks⟩ := createThunkSetters_fits h
  cases hasUnusedClosure with
  | false =>
    refine hthunks.imp ?_
    rintro thunk type ⟨overload,-,rfl⟩
    exact getDirectThunkFunction_isEqual
  | true =>
    simp only [if_true, PropertyType.getStdObjectMemberPropertyType,
      PropertyType.getMemberPropertyType, List.forall₂_map_right_iff]
    refine hthunks.imp ?_
    rintro thunk type ⟨overload,-,rfl⟩
    rw [getDirectThunkFunction_unused]
    exact FunctionType.isEqual_refl _

/-- A thunk never has a binder, and for an unused closure its getter takes another `this` than the
field does. -/
theorem createThunkProperty_agrees_iff {target p : Property κ α} {thunkType : PropertyType κ α}
    (h : createThunkProperty Γ target thunkType hasUnusedClosure = some p) :
    VtableAgrees Γ p ↔ thunkType.isBindable = false ∧ hasUnusedClosure = false := by
  simp only [createThunkProperty, Option.bind_eq_bind, Option.bind_eq_some_iff] at h
  obtain ⟨getter,hgetter,h⟩ := h
  split at h
  · exact absurd h (by simp)
  simp only [Option.bind_eq_some_iff, Option.some.injEq] at h
  obtain ⟨setter,hsetter,rfl⟩ := h
  rw [vtableAgrees_iff rfl rfl]
  have htypes := createThunkSetters_types hsetter
  cases hasUnusedClosure with
  | false =>
    have htypes : List.Forall₂ (fun f type => f.type.isEqual type = true) setter
      thunkType.setterType := htypes
    cases hbindable : thunkType.isBindable <;>
      simp [getDirectThunkFunction_isEqual, hbindable, htypes]
  | true =>
    have hgetter : (getDirectThunkFunction Γ getter thunkType.getterType true).type.isEqual
        (thunkType.getStdObjectMemberPropertyType Γ).getterType = false := by
      rw [getDirectThunkFunction_unused]
      exact not_isEqual_of_flags (by decide)
    simp [hgetter]

end Jancy.Ct.Properties

/-! Declared properties: every way in which a property comes about, and when its vtable agrees with
its type. -/
namespace Jancy.Ct.Properties

variable {κ α : Type} [DecidableEq κ] [DecidableEq α]

/-- Where a property is declared: it has a parent type unless it is static. -/
structure Placement (κ : Type) where
  storageKind : StorageKind
  parentType : Option κ
  placed : storageKind ≠ .undefined ∧ (parentType = none ↔ storageKind = .static)

def Placement.property (placement : Placement κ) (isConst : Bool) : Property κ α where
  storageKind := placement.storageKind
  parentType := placement.parentType
  isConst := isConst

/-- A property as the compiler gets to make it. -/
inductive PropertySource (κ α : Type) where
  | typed (placement : Placement κ) (flags : Property.CreateFlags) (type : PropertyType κ α)
  | body (placement : Placement κ) (mods : Property.DeclModifiers κ α) (hasBody : Bool)
    (items : List (Property.BodyItem κ α))
  /-- The member and index properties of variants. -/
  | standard (getterType setterType : FunctionType κ α)
  | thunk (target : Property κ α) (thunkType : PropertyType κ α) (hasUnusedClosure : Bool)
  | dataThunk (thunkType : PropertyType κ α) (hasUnusedClosure : Bool)

def addBodyItems (Γ : TypeMgr κ α) (p : Property κ α) :
    List (Property.BodyItem κ α) → Option (Property κ α)
  | [] => some p
  | item :: items => do
    let p ← p.addBodyItem Γ item
    addBodyItems Γ p items

def standardAccessor (functionKind : AccessorKind) (type : FunctionType κ α) : Accessor κ α where
  functionKind := functionKind
  storageKind := .static
  type := type

/-- The finished property, unless an error is reported on the way. -/
def PropertySource.build (Γ : TypeMgr κ α) : PropertySource κ α → Option (Property κ α)
  | typed placement flags type => do
    let p ← Property.create Γ flags type (placement.property false)
    p.finalize Γ
  | body placement mods hasBody items => do
    let p ← addBodyItems Γ (placement.property mods.isConst) items
    let p ← p.finalizeLastProperty Γ mods hasBody
    p.finalize Γ
  | standard getterType setterType => some {
      storageKind := .static
      parentType := none
      type := some ⟨getterType,[setterType],false⟩
      getter := some (standardAccessor .getter getterType)
      setter := [standardAccessor .setter setterType] }
  | thunk target thunkType hasUnusedClosure =>
    createThunkProperty Γ target thunkType hasUnusedClosure
  | dataThunk thunkType hasUnusedClosure => createDataThunkProperty Γ thunkType hasUnusedClosure

def Property.BodyItem.isBinder : Property.BodyItem κ α → Bool
  | .method .binder _ _ _ => true
  | _ => false

def Property.BodyItem.isStaticGetter : Property.BodyItem κ α → Bool
  | .method .getter .static _ _ => true
  | _ => false

def Property.BodyItem.isBindable : Property.BodyItem κ α → Bool
  | .bindable _ => true
  | _ => false

/-- What `create` asks for the vtable to agree with the type: an autoget property has the getter
type that `setAutoGetValue` makes, an autoset property one setter, and the binder of a bindable
property without a parent type has no `this`. -/
def TypedSound (Γ : TypeMgr κ α) (parentType : Option κ) (flags : Property.CreateFlags)
    (type : PropertyType κ α) : Prop :=
  (flags.autoGet = true →
    (Γ.getSimpleGetterType type.getterType.returnType).isEqual type.getterType = true) ∧
  (flags.autoSet = true → type.setterType.length = 1) ∧
  (type.isBindable = true → parentType = none → type.getterType.getThisTargetType = none)

/-- The sources of properties whose vtables agree with their types. -/
def PropertySource.Sound (Γ : TypeMgr κ α) : PropertySource κ α → Prop
  | typed placement flags type => TypedSound Γ placement.parentType flags type
  | body placement mods _ items =>
    (∀ item ∈ items, item.isBinder = false) ∧
    (mods.bindable = true ∨ (∃ item ∈ items, item.isBindable = true) →
      placement.parentType = none ∨ ∀ item ∈ items, item.isStaticGetter = false)
  | standard _ _ => True
  | thunk _ thunkType hasUnusedClosure => thunkType.isBindable = false ∧ hasUnusedClosure = false
  | dataThunk thunkType hasUnusedClosure =>
    thunkType.isBindable = true → hasUnusedClosure = false ∧
      thunkType.getterType.getThisTargetType = none

inductive Added (f : Accessor κ α) (p : Property κ α) : AccessorKind → Property κ α → Prop
  | getter (indexArgs : Option (List (Ty κ α))) (h : p.getter = none) :
    Added f p .getter { p with getter := some f, verifier := indexArgs }
  | setter (indexArgs : Option (List (Ty κ α))) :
    Added f p .setter { p with setter := p.setter ++ [f], verifier := indexArgs }
  | binder (h : p.binder = none) : Added f p .binder { p with binder := some f }

variable {p p' : Property κ α}

theorem checkIndexSignature_eq {functionKind : AccessorKind} {f : FunctionType κ α}
    (h : p.checkIndexSignature functionKind f = some p') :
    ∃ indexArgs, p' = { p with verifier := indexArgs } := by
  simp only [Property.checkIndexSignature, Option.bind_eq_bind, Option.bind_eq_some_iff] at h
  obtain ⟨indexArgs,-,h⟩ := h
  split at h
  · exact ⟨_,(Option.some.inj h).symm⟩
  · split at h
    · exact ⟨p.verifier,(Option.some.inj h).symm⟩
    · exact absurd h (by simp)

variable {f : Accessor κ α} {Γ : TypeMgr κ α}

theorem addMethod_added (h : p.addMethod Γ f = some p') :
    ∃ f', p.convertMethod Γ f = some f' ∧ Added f' p f'.functionKind p' := by
  simp only [Property.addMethod, Option.bind_eq_bind, Option.bind_eq_some_iff] at h
  obtain ⟨f',hf',h⟩ := h
  refine ⟨f',hf',?_⟩
  cases hkind : f'.functionKind with
  | getter =>
    simp only [hkind, Option.bind_eq_some_iff] at h
    obtain ⟨q,hq,h⟩ := h
    obtain ⟨indexArgs,rfl⟩ := checkIndexSignature_eq hq
    split at h
    · exact absurd h (by simp)
    · next hnone =>
      obtain rfl := Option.some.inj h
      exact .getter indexArgs (by simpa using hnone)
  | setter =>
    simp only [hkind] at h
    split at h
    · exact absurd h (by simp)
    · obtain ⟨q,hq,h⟩ := Option.bind_eq_some_iff.mp h
      obtain ⟨indexArgs,rfl⟩ := checkIndexSignature_eq hq
      split at h
      · exact absurd h (by simp)
      · obtain rfl := Option.some.inj h
        exact .setter indexArgs
  | binder =>
    simp only [hkind] at h
    split at h
    · exact absurd h (by simp)
    · next hnone =>
      obtain rfl := Option.some.inj h
      exact .binder (by simpa using hnone)
  | thunk => simp [hkind] at h

def memberTypeOf (Γ : TypeMgr κ α) (parentType : Option κ) (f : FunctionType κ α)
    (flags : Types.PtrTypeFlags) : FunctionType κ α :=
  match parentType with
  | some parentType => Γ.getMemberMethodType parentType f flags
  | none => f

omit [DecidableEq α] in
/-- A converted accessor takes a `this` argument just when the property has a parent type and the
accessor is not static. -/
theorem convertMethod_eq {p : Property κ α} {f f' : Accessor κ α}
    (h : p.convertMethod Γ f = some f') :
    ∃ storageKind, f' = { f with
      storageKind := storageKind
      type := if f.storageKind = .static then f.type
        else memberTypeOf Γ p.parentType f.type f.thisArgTypeFlags } := by
  unfold Property.convertMethod at h
  cases hparent : p.parentType with
  | none =>
    simp only [hparent] at h
    cases hstorage : f.storageKind <;> simp only [hstorage] at h
    all_goals first
      | cases h
      | (split at h
         · exact ⟨.static,(Option.some.inj h).symm⟩
         · cases h)
  | some parentType =>
    simp only [hparent] at h
    cases hstorage : f.storageKind <;> simp only [hstorage] at h
    case static =>
      split at h
      · exact ⟨.static,by obtain rfl := Option.some.inj h; simp [← hstorage]⟩
      · cases h
    case reactor => cases h
    all_goals first
      | exact ⟨_,(Option.some.inj h).symm⟩
      | (split at h
         · exact ⟨_,(Option.some.inj h).symm⟩
         · cases h)

def Property.Placed (p : Property κ α) : Prop :=
  p.parentType = none ↔ p.storageKind = .static

omit [DecidableEq κ] [DecidableEq α] in
theorem Property.Placed.accessor {p : Property κ α} (hplaced : p.Placed) {parentType : κ}
    (hparent : p.parentType = some parentType) : p.getAccessorStorageKind ≠ .static := by
  have hne : p.storageKind ≠ .static := by
    rw [Ne, ← hplaced.eq, hparent]
    simp
  unfold Property.getAccessorStorageKind
  cases hstorage : p.storageKind <;> simp_all

/-- What adding a method keeps. -/
structure SamePlace (p p' : Property κ α) : Prop where
  storageKind : p'.storageKind = p.storageKind
  parentType : p'.parentType = p.parentType
  isConst : p'.isConst = p.isConst
  type : p'.type = p.type

omit [DecidableEq κ] [DecidableEq α] in
theorem SamePlace.placed (h : SamePlace p p') (hplaced : p.Placed) :
    p'.Placed := by
  rw [Property.Placed, h.parentType, h.storageKind]
  exact hplaced

omit [DecidableEq κ] [DecidableEq α] in
theorem Added.samePlace {functionKind : AccessorKind} (h : Added f p functionKind p') :
    SamePlace p p' := by
  cases h <;> exact ⟨rfl,rfl,rfl,rfl⟩

def FollowsPlace (p : Property κ α) (f : Accessor κ α) : Prop :=
  p.parentType = none ∨ f.storageKind ≠ .static

theorem addMethod_created (h : p.addMethod Γ f = some p') (hf : FollowsPlace p f) :
    ∃ f', Added f' p f.functionKind p' ∧
      f'.type = memberTypeOf Γ p.parentType f.type f.thisArgTypeFlags := by
  obtain ⟨f',hf',hadded⟩ := addMethod_added h
  obtain ⟨storageKind,rfl⟩ := convertMethod_eq hf'
  refine ⟨_,hadded,?_⟩
  show (if _ then _ else _) = _
  split
  · next hstatic =>
    obtain hnone | hne := hf
    · rw [hnone]
      rfl
    · exact absurd hstatic hne
  · rfl

end Jancy.Ct.Properties
