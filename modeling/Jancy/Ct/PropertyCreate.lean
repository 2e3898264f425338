import Jancy.Ct.PropertyVtable

/-! Properties created from a type: what `create` makes of the type, and when that agrees with it. -/
namespace Jancy.Ct.Properties
open Property (placedType)

variable {κ α : Type} [DecidableEq κ] [DecidableEq α] {Γ : TypeMgr κ α} {p p' : Property κ α}

omit [DecidableEq α] in
theorem constThis_member {f : FunctionType κ α} :
    memberTypeOf Γ p.parentType f p.constThis =
      memberTypeOf Γ p.parentType f { constKind := .const } := by
  unfold Property.constThis memberTypeOf
  cases p.parentType <;> rfl

omit [DecidableEq κ] [DecidableEq α] in
theorem followsPlace_accessor (hplaced : p.Placed) {f : Accessor κ α}
    (hf : f.storageKind = .undefined ∨ f.storageKind = p.getAccessorStorageKind) :
    FollowsPlace p f := by
  cases hparent : p.parentType with
  | none => exact .inl hparent
  | some parentType =>
    obtain hf | hf := hf
    · exact .inr (by rw [hf]; decide)
    · exact .inr (by rw [hf]; exact hplaced.accessor hparent)

theorem setOnChanged_data {type : Option (Ty κ α)} {isForced : Bool} (hplaced : p.Placed)
    (h : p.setOnChanged Γ (.data type) isForced = some p') :
    ∃ binder, p.binder = none ∧
      binder.type = memberTypeOf Γ p.parentType Γ.binderType { constKind := .const } ∧
      p' = { p with onChanged := some (.data type), binder := some binder } := by
  unfold Property.setOnChanged at h
  split at h
  · cases h
  cases type with
  | none => cases h
  | some type =>
    obtain ⟨binder,hadded,htype⟩ := addMethod_created h (followsPlace_accessor hplaced (.inr rfl))
    cases hadded with
    | binder hnone =>
      refine ⟨binder,hnone,?_,rfl⟩
      rw [htype]
      exact constThis_member

theorem setAutoGetValue_data {type : Option (Ty κ α)} {isForced : Bool} (hplaced : p.Placed)
    (h : p.setAutoGetValue Γ (.data type) isForced = some p') :
    (p.getter ≠ none ∧ p' = { p with autoGetValue := some (.data type) }) ∨
    ∃ returnType getter indexArgs, type = some returnType ∧ p.getter = none ∧
      getter.type = memberTypeOf Γ p.parentType (Γ.getSimpleGetterType returnType)
        { constKind := .const } ∧
      p' = { p with
        autoGetValue := some (.data type)
        getter := some getter
        verifier := indexArgs } := by
  unfold Property.setAutoGetValue at h
  split at h
  · cases h
  cases type with
  | none => cases h
  | some type =>
    dsimp only at h
    cases hgetter : p.getter with
    | some getter =>
      simp only [hgetter] at h
      split at h
      · exact .inl ⟨by simp,(Option.some.inj h).symm⟩
      · cases h
    | none =>
      simp only [hgetter] at h
      obtain ⟨getter,hadded,htype⟩ := addMethod_created h (followsPlace_accessor hplaced (.inr rfl))
      cases hadded with
      | getter indexArgs hnone =>
        refine .inr ⟨type,getter,indexArgs,rfl,rfl,?_,rfl⟩
        rw [htype]
        exact constThis_member

variable {flags : Property.CreateFlags}

theorem createSetters_spec {types : List (FunctionType κ α)} (hplaced : p.Placed)
    (h : p.createSetters Γ flags types = some p') :
    ∃ setter indexArgs, p' = { p with setter := p.setter ++ setter, verifier := indexArgs } ∧
      setter.map (·.type) = types.map (memberTypeOf Γ p.parentType · {}) := by
  induction types generalizing p with
  | nil =>
    obtain rfl : p = p' := Option.some.inj h
    exact ⟨[],p.verifier,by simp,rfl⟩
  | cons type types ih =>
    obtain ⟨q,hq,h⟩ := Option.bind_eq_some_iff.mp h
    have hfollows : FollowsPlace p (p.createAccessor flags .setter type {}) := by
      apply followsPlace_accessor hplaced
      unfold Property.createAccessor
      cases flags.noStorage
      · exact .inr rfl
      · exact .inl rfl
    obtain ⟨f,hadded,htype⟩ := addMethod_created hq hfollows
    have hq' : q.Placed := hadded.samePlace.placed hplaced
    cases hadded with
    | setter indexArgs =>
      obtain ⟨setter,indexArgs',rfl,htypes⟩ := ih hq' h
      refine ⟨f :: setter,indexArgs',by simp,?_⟩
      rw [List.map_cons, List.map_cons, htypes, htype]
      rfl

/-- The property that `create` makes of one without any accessor. -/
structure Created (Γ : TypeMgr κ α) (flags : Property.CreateFlags) (parentType : Option κ)
    (T : PropertyType κ α) (p : Property κ α) : Prop where
  type : p.type = some (placedType Γ parentType T)
  getter : ∃ getter, p.getter = some getter ∧
    getter.type = memberTypeOf Γ parentType
      (if flags.autoGet then Γ.getSimpleGetterType T.getterType.returnType else T.getterType)
      { constKind := .const }
  setter : p.setter.map (·.type) =
    (if flags.autoSet then T.setterType.take 1 else T.setterType).map (memberTypeOf Γ parentType · {})
  autoSet : flags.autoSet = true → T.setterType ≠ []
  binder : p.binder.isSome = T.isBindable
  binderType : ∀ binder, p.binder = some binder →
    binder.type = memberTypeOf Γ parentType Γ.binderType { constKind := .const }
  notAlias : ∀ target, p.autoGetValue ≠ some (.alias target) ∧ p.onChanged ≠ some (.alias target)

/-- A property before its first accessor. -/
structure Blank (parentType : Option κ) (p : Property κ α) : Prop where
  parentType : p.parentType = parentType
  placed : p.Placed
  getter : p.getter = none
  setter : p.setter = []
  binder : p.binder = none
  onChanged : p.onChanged = none
  autoGetValue : p.autoGetValue = none

variable {T : PropertyType κ α} {parentType : Option κ}

theorem create_binder (hblank : Blank parentType p) (h : p.createBinderOf Γ T = some p') :
    ∃ binder onChanged, p' = { p with binder := binder, onChanged := onChanged } ∧
      binder.isSome = T.isBindable ∧
      (∀ b, binder = some b →
        b.type = memberTypeOf Γ parentType Γ.binderType { constKind := .const }) ∧
      ∀ target, onChanged ≠ some (.alias target) := by
  unfold Property.createBinderOf at h
  split at h
  · next hbindable =>
    obtain ⟨binder,-,htype,rfl⟩ := setOnChanged_data hblank.placed h
    refine ⟨some binder,_,rfl,hbindable.symm,?_,by simp⟩
    rintro b ⟨⟩
    rw [htype, hblank.parentType]
  · next hbindable =>
    obtain rfl := Option.some.inj h
    refine ⟨none,none,?_,by simpa using hbindable,by simp,by simp⟩
    rw [← hblank.binder, ← hblank.onChanged]

theorem create_getter (hplaced : p.Placed) (hgetter : p.getter = none)
    (h : p.createGetterOf Γ flags T = some p') :
    ∃ getter indexArgs autoGetValue,
      p' = { p with
        getter := some getter
        verifier := indexArgs
        autoGetValue := autoGetValue } ∧
      getter.type = memberTypeOf Γ p.parentType
        (if flags.autoGet then Γ.getSimpleGetterType T.getterType.returnType else T.getterType)
        { constKind := .const } ∧
      (autoGetValue = p.autoGetValue ∨ ∃ type, autoGetValue = some (.data type)) := by
  unfold Property.createGetterOf at h
  split at h
  · next hauto =>
    obtain ⟨hsome,-⟩ | ⟨returnType,getter,indexArgs,heq,-,htype,rfl⟩ := setAutoGetValue_data hplaced h
    · exact absurd hgetter hsome
    · obtain rfl := Option.some.inj heq
      exact ⟨getter,indexArgs,_,rfl,by rw [htype, if_pos hauto],.inr ⟨_,rfl⟩⟩
  · next hauto =>
    have hfollows : FollowsPlace p
        (p.createAccessor flags .getter T.getterType p.constThis) := by
      apply followsPlace_accessor hplaced
      unfold Property.createAccessor
      cases flags.noStorage
      · exact .inr rfl
      · exact .inl rfl
    obtain ⟨getter,hadded,htype⟩ := addMethod_created h hfollows
    cases hadded with
    | getter indexArgs hnone =>
      refine ⟨getter,indexArgs,_,rfl,?_,.inl rfl⟩
      rw [if_neg hauto]
      exact htype.trans constThis_member

theorem create_setters (hplaced : p.Placed) (hsetter : p.setter = [])
    (h : p.createSettersOf Γ flags T = some p') :
    ∃ setter indexArgs, p' = { p with setter := setter, verifier := indexArgs } ∧
      setter.map (·.type) = (if flags.autoSet then T.setterType.take 1 else T.setterType).map
        (memberTypeOf Γ p.parentType · {}) ∧
      (flags.autoSet = true → T.setterType ≠ []) := by
  unfold Property.createSettersOf at h
  split at h
  · next hauto =>
    split at h
    · cases h
    · next setterType setterTypes heq =>
      obtain ⟨f,hadded,htype⟩ :=
        addMethod_created h (followsPlace_accessor hplaced (.inr rfl))
      cases hadded with
      | setter indexArgs =>
        exact ⟨p.setter ++ [f],indexArgs,rfl,by simp [hsetter, heq, htype, hauto],by simp [heq]⟩
  · next hauto =>
    obtain ⟨setter,indexArgs,rfl,htypes⟩ := createSetters_spec hplaced h
    exact ⟨p.setter ++ setter,indexArgs,rfl,by simpa [hsetter, hauto] using htypes,
      fun h => absurd h hauto⟩

theorem create_created (hblank : Blank parentType p) (h : Property.create Γ flags T p = some p') :
    Created Γ flags parentType T p' := by
  simp only [Property.create, Option.bind_eq_bind] at h
  obtain ⟨p₁,h₁,h⟩ := Option.bind_eq_some_iff.mp h
  obtain ⟨p₂,h₂,h⟩ := Option.bind_eq_some_iff.mp h
  obtain ⟨p₃,h₃,h⟩ := Option.bind_eq_some_iff.mp h
  obtain rfl := Option.some.inj h
  obtain ⟨binder,onChanged,rfl,hbinder,hbinderType,honChanged⟩ := create_binder hblank h₁
  obtain ⟨getter,indexArgs,autoGetValue,rfl,hgetter,hauto⟩ :=
    create_getter (by exact hblank.placed) (by exact hblank.getter) h₂
  obtain ⟨setter,indexArgs',rfl,hsetter,hautoSet⟩ :=
    create_setters (by exact hblank.placed) (by exact hblank.setter) h₃
  have hparent := hblank.parentType
  subst hparent
  refine ⟨rfl,⟨getter,rfl,hgetter⟩,hsetter,hautoSet,hbinder,hbinderType,?_⟩
  intro target
  refine ⟨?_,honChanged target⟩
  obtain rfl | ⟨type,rfl⟩ := hauto
  · show p.autoGetValue ≠ _
    rw [hblank.autoGetValue]
    simp
  · simp

theorem isEqual_memberTypeOf {f g : FunctionType κ α} {flags : Types.PtrTypeFlags} :
    (memberTypeOf Γ parentType f flags).isEqual (memberTypeOf Γ parentType g flags) =
      f.isEqual g := by
  cases parentType with
  | none => rfl
  | some parentType => exact isEqual_member

omit [DecidableEq α] in
theorem placedType_getterType :
    (placedType Γ parentType T).getterType =
      memberTypeOf Γ parentType T.getterType { constKind := .const } := by
  cases parentType <;> rfl

omit [DecidableEq α] in
theorem placedType_setterType :
    (placedType Γ parentType T).setterType =
      T.setterType.map (memberTypeOf Γ parentType · {}) := by
  cases parentType with
  | none => simp [placedType, memberTypeOf]
  | some parentType => rfl

omit [DecidableEq α] in
theorem placedType_isBindable :
    (placedType Γ parentType T).isBindable = T.isBindable := by
  cases parentType <;> rfl

/-- The binder of a created property has the binder type of its type unless the type brings a
`this` argument of its own. -/
theorem isEqual_binderType :
    (memberTypeOf Γ parentType Γ.binderType { constKind := .const }).isEqual
      ((placedType Γ parentType T).binderType Γ) = true ↔
    (parentType = none → T.getterType.getThisTargetType = none) := by
  cases parentType with
  | some parentType =>
    simp [placedType, memberTypeOf, PropertyType.binderType, PropertyType.getMemberPropertyType,
      FunctionType.isEqual_refl]
  | none =>
    cases htarget : T.getterType.getThisTargetType with
    | none =>
      simp [placedType, memberTypeOf, PropertyType.binderType, htarget, FunctionType.isEqual_refl]
    | some targetType =>
      simp [placedType, memberTypeOf, PropertyType.binderType, htarget, not_isEqual_member]

theorem forall₂_of_map {setter : List (Accessor κ α)} {types : List (FunctionType κ α)}
    (h : setter.map (·.type) = types) :
    List.Forall₂ (fun f type => f.type.isEqual type = true) setter types := by
  subst h
  rw [List.forall₂_map_right_iff, List.forall₂_same]
  exact fun f _ => FunctionType.isEqual_refl f.type

section

variable (h : Created Γ flags parentType T p)

include h

theorem Created.setters_iff :
    List.Forall₂ (fun f type => f.type.isEqual type = true) p.setter
        (placedType Γ parentType T).setterType ↔
      (flags.autoSet = true → T.setterType.length = 1) := by
  rw [placedType_setterType]
  have hsetter := h.setter
  cases hauto : flags.autoSet with
  | false =>
    rw [hauto] at hsetter
    simpa using forall₂_of_map hsetter
  | true =>
    rw [hauto] at hsetter
    have hlength : p.setter.length = 1 := by
      have hne := List.length_pos_of_ne_nil (h.autoSet hauto)
      have hmap := congrArg List.length hsetter
      simp at hmap
      omega
    constructor
    · intro hfits _
      have := hfits.length_eq
      rw [List.length_map] at this
      omega
    · intro hone
      have htake : T.setterType.take 1 = T.setterType :=
        List.take_of_length_le (le_of_eq (hone rfl))
      rw [if_pos rfl, htake] at hsetter
      exact forall₂_of_map hsetter

theorem Created.agrees_iff :
    VtableAgrees Γ p ↔ TypedSound Γ parentType flags T := by
  obtain ⟨getter,hgetter,htype⟩ := h.getter
  rw [vtableAgrees_iff h.type hgetter, placedType_isBindable, placedType_getterType, htype,
    isEqual_memberTypeOf, h.setters_iff, TypedSound]
  have hget : (if flags.autoGet then Γ.getSimpleGetterType T.getterType.returnType
      else T.getterType).isEqual T.getterType = true ↔
      (flags.autoGet = true →
        (Γ.getSimpleGetterType T.getterType.returnType).isEqual T.getterType = true) := by
    cases flags.autoGet <;> simp [FunctionType.isEqual_refl]
  have hbinder : (∀ binder, p.binder = some binder →
      binder.type.isEqual ((placedType Γ parentType T).binderType Γ) = true) ↔
      (T.isBindable = true → parentType = none → T.getterType.getThisTargetType = none) := by
    rw [← isEqual_binderType (Γ := Γ), ← h.binder]
    cases hb : p.binder with
    | none => simp
    | some binder => simp [h.binderType binder hb]
  rw [hget, hbinder]
  constructor
  · rintro ⟨-,hbinder,hget,hset⟩
    exact ⟨hget,hset,hbinder⟩
  · rintro ⟨hget,hset,hbinder⟩
    exact ⟨h.binder,hbinder,hget,hset⟩

theorem Created.finalize : p.finalize Γ = some p := by
  obtain ⟨getter,hgetter,-⟩ := h.getter
  have hauto : ∀ target, p.autoGetValue ≠ some (.alias target) := fun target => (h.notAlias target).1
  have hchanged : ∀ target, p.onChanged ≠ some (.alias target) := fun target => (h.notAlias target).2
  have hresolve : p.resolveAutoGetValue Γ = some p := by
    unfold Property.resolveAutoGetValue
    split
    · next target heq => exact absurd heq (hauto target)
    · rfl
  have hresolve' : p.resolveOnChanged Γ = some p := by
    unfold Property.resolveOnChanged
    split
    · next target heq => exact absurd heq (hchanged target)
    · rfl
  simp [Property.finalize, hresolve, hresolve', hgetter, h.type]

end

end Jancy.Ct.Properties
