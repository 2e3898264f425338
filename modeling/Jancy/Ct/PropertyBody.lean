import Jancy.Ct.PropertyCreate

/-! Properties declared with a body: what is known of the accessors after every item of the body, and
when the vtable agrees with the type that is made of them. -/
namespace Jancy.Ct.Properties
open Property (BodyItem DeclModifiers)

variable {κ α : Type} [DecidableEq κ] [DecidableEq α] {Γ : TypeMgr κ α} {p p' : Property κ α}

/-- The binder against the bindable event: there is no binder before the event is known, the binder
comes with the event, or it was declared in the body. -/
inductive BinderState (Γ : TypeMgr κ α) (parentType : Option κ) :
    Bool → Option (Accessor κ α) → Option (Item κ α) → Prop
  | none {onChanged : Option (Item κ α)} (h : ∀ type, onChanged ≠ some (.data type)) :
    BinderState Γ parentType false none onChanged
  | created (binder : Accessor κ α) (type : Option (Ty κ α))
    (h : binder.type = memberTypeOf Γ parentType Γ.binderType { constKind := .const }) :
    BinderState Γ parentType false (some binder) (some (.data type))
  | declared (binder : Accessor κ α) {onChanged : Option (Item κ α)}
    (h : ∀ type, onChanged ≠ some (.data type)) :
    BinderState Γ parentType true (some binder) onChanged

/-- What is known of a property while it is declared: whether a binder or a static getter stood in the
body, and whether the property is bindable so far. -/
structure Grown (Γ : TypeMgr κ α) (parentType : Option κ) (isBinder isStaticGetter isBindable : Bool)
    (p : Property κ α) : Prop where
  place : p.parentType = parentType
  placed : p.Placed
  target : ∀ getter, p.getter = some getter →
    getter.type.getThisTargetType = if isStaticGetter then none else parentType
  noGetter : p.getter = none → isStaticGetter = false
  binder : BinderState Γ parentType isBinder p.binder p.onChanged
  bindable : p.onChanged.isSome = isBindable
  type : ∀ T, p.type = some T → ∃ getter, p.getter = some getter ∧
    T = ⟨getter.type,p.setter.map (·.type),isBindable⟩

variable {parentType : Option κ} {isBinder isStaticGetter isBindable : Bool}

omit [DecidableEq α] in
theorem memberTypeOf_target {f : FunctionType κ α} {flags : Types.PtrTypeFlags}
    (hf : f.isMemberMethodType = false) :
    (memberTypeOf Γ parentType f flags).getThisTargetType = parentType := by
  cases parentType with
  | some parentType => rfl
  | none =>
    show f.getThisTargetType = none
    unfold FunctionType.getThisTargetType
    split
    · next heq => simp [FunctionType.isMemberMethodType, heq] at hf
    · rfl

omit [DecidableEq κ] [DecidableEq α] in
theorem thisTarget_plain {f : FunctionType κ α} (hf : f.isMemberMethodType = false) :
    f.getThisTargetType = none := by
  unfold FunctionType.getThisTargetType
  split
  · next heq => simp [FunctionType.isMemberMethodType, heq] at hf
  · rfl

omit [DecidableEq α] in
theorem Grown.addGetter {getter : Accessor κ α} {indexArgs : Option (List (Ty κ α))} {static : Bool}
    (h : Grown Γ parentType isBinder isStaticGetter isBindable p) (hnone : p.getter = none)
    (htarget : getter.type.getThisTargetType = if static then none else parentType) :
    Grown Γ parentType isBinder static isBindable
      { p with getter := some getter, verifier := indexArgs } := by
  refine ⟨h.place,h.placed,?_,by simp,h.binder,h.bindable,?_⟩
  · rintro _ ⟨⟩
    exact htarget
  · intro T hT
    obtain ⟨_,hsome,-⟩ := h.type T hT
    exact absurd (hnone.symm.trans hsome) (by simp)

omit [DecidableEq α] in
theorem Grown.addSetter {setter : List (Accessor κ α)} {indexArgs : Option (List (Ty κ α))}
    (h : Grown Γ parentType isBinder isStaticGetter isBindable p) (htype : p.type = none) :
    Grown Γ parentType isBinder isStaticGetter isBindable
      { p with setter := setter, verifier := indexArgs } := by
  refine ⟨h.place,h.placed,h.target,h.noGetter,h.binder,h.bindable,?_⟩
  intro T hT
  exact absurd (htype.symm.trans hT) (by simp)

omit [DecidableEq α] in
theorem Grown.withAutoGetValue {autoGetValue : Option (Item κ α)}
    (h : Grown Γ parentType isBinder isStaticGetter isBindable p) :
    Grown Γ parentType isBinder isStaticGetter isBindable
      { p with autoGetValue := autoGetValue } :=
  ⟨h.place,h.placed,h.target,h.noGetter,h.binder,h.bindable,h.type⟩

section

variable (h : Grown Γ parentType isBinder isStaticGetter isBindable p)

include h

theorem Grown.setOnChanged {item : Item κ α} {isForced : Bool}
    (hset : p.setOnChanged Γ item isForced = some p')
    (hforced : isForced = true → ∃ type, item = .data type)
    (htype : p.type = none ∨ isBindable = true) :
    Grown Γ parentType isBinder isStaticGetter true p' ∧ p'.type = p.type ∧
      p'.autoGetValue = p.autoGetValue ∧ p'.onChanged = some item ∧ p'.getter = p.getter := by
  have htypes : ∀ T, p.type = some T → ∃ getter, p.getter = some getter ∧
      T = ⟨getter.type,p.setter.map (·.type),true⟩ := by
    intro T hT
    obtain hnone | hbindable := htype
    · exact absurd (hnone.symm.trans hT) (by simp)
    · rw [← hbindable]
      exact h.type T hT
  cases item with
  | «alias» target =>
    have hfree : p.onChanged = none ∧ p' = { p with onChanged := some (.alias target) } := by
      unfold Property.setOnChanged at hset
      split at hset
      · cases hset
      · next hne =>
        obtain rfl := Option.some.inj hset
        cases isForced with
        | false => exact ⟨by simpa using hne,rfl⟩
        | true => obtain ⟨type,htype⟩ := hforced rfl; cases htype
    obtain ⟨hnone,rfl⟩ := hfree
    refine ⟨⟨h.place,h.placed,h.target,h.noGetter,?_,rfl,htypes⟩,rfl,rfl,rfl,rfl⟩
    have hstate := h.binder
    rw [hnone] at hstate
    show BinderState Γ parentType isBinder p.binder (some (.alias target))
    generalize p.binder = binder at hstate
    cases hstate with
    | none _ => exact .none (by simp)
    | declared binder _ => exact .declared binder (by simp)
  | data type =>
    obtain ⟨binder,hnone,hbinder,rfl⟩ := setOnChanged_data h.placed hset
    have hstate := h.binder
    rw [hnone] at hstate
    cases hstate
    rw [h.place] at hbinder
    exact ⟨⟨h.place,h.placed,h.target,h.noGetter,.created binder type hbinder,rfl,htypes⟩,
      rfl,rfl,rfl,rfl⟩

theorem Grown.setAutoGetValue {item : Item κ α} {isForced : Bool}
    (hset : p.setAutoGetValue Γ item isForced = some p') :
    Grown Γ parentType isBinder isStaticGetter isBindable p' ∧ p'.type = p.type ∧
      p'.onChanged = p.onChanged ∧ p'.autoGetValue = some item := by
  cases item with
  | «alias» target =>
    unfold Property.setAutoGetValue at hset
    split at hset
    · cases hset
    · obtain rfl := Option.some.inj hset
      exact ⟨h.withAutoGetValue,rfl,rfl,rfl⟩
  | data type =>
    obtain ⟨-,rfl⟩ | ⟨returnType,getter,indexArgs,-,hnone,htype,rfl⟩ :=
      setAutoGetValue_data h.placed hset
    · exact ⟨h.withAutoGetValue,rfl,rfl,rfl⟩
    · refine ⟨?_,rfl,rfl,rfl⟩
      refine (h.addGetter hnone ?_).withAutoGetValue
      rw [htype, h.noGetter hnone, h.place]
      exact memberTypeOf_target rfl

theorem Grown.method {functionKind : AccessorKind} {storageKind : StorageKind}
    {thisArgTypeFlags : Types.PtrTypeFlags} {type : Property.DeclaredFunctionType κ α}
    (htype : p.type = none)
    (hadd : p.addBodyItem Γ (.method functionKind storageKind thisArgTypeFlags type) = some p') :
    Grown Γ parentType
      (isBinder || (BodyItem.method functionKind storageKind thisArgTypeFlags type).isBinder)
      (isStaticGetter ||
        (BodyItem.method functionKind storageKind thisArgTypeFlags type).isStaticGetter)
      isBindable p' ∧ p'.type = none := by
  simp only [Property.addBodyItem] at hadd
  split at hadd
  · cases hadd
  obtain ⟨f,hf,hadded⟩ := addMethod_added hadd
  obtain ⟨storageKind',rfl⟩ := convertMethod_eq hf
  dsimp only at hadded
  cases hadded with
  | getter indexArgs hnone =>
    refine ⟨?_,htype⟩
    rw [show (BodyItem.method AccessorKind.getter storageKind thisArgTypeFlags type).isBinder = false
      from rfl, Bool.or_false, h.noGetter hnone, Bool.false_or]
    apply h.addGetter hnone
    dsimp only
    by_cases hstatic : storageKind = .static
    · subst hstatic
      rw [if_pos (by rfl)]
      exact thisTarget_plain type.plain
    · have hitem : (BodyItem.method .getter storageKind thisArgTypeFlags type).isStaticGetter =
          false := by
        cases storageKind <;> first | rfl | exact absurd rfl hstatic
      rw [hitem, if_neg (by decide : ¬ (false = true))]
      split
      · next hplace =>
        unfold Property.methodStorageKind at hplace
        have hundefined : storageKind = .undefined := by
          by_contra hne
          rw [if_neg hne] at hplace
          exact hstatic hplace
        rw [if_pos hundefined] at hplace
        rw [thisTarget_plain type.plain, ← h.place]
        exact (h.placed.mpr hplace).symm
      · rw [h.place]
        exact memberTypeOf_target type.plain
  | setter indexArgs =>
    refine ⟨?_,htype⟩
    have hitem : (BodyItem.method .setter storageKind thisArgTypeFlags type).isStaticGetter = false :=
      rfl
    rw [show (BodyItem.method AccessorKind.setter storageKind thisArgTypeFlags type).isBinder = false
      from rfl, Bool.or_false, hitem, Bool.or_false]
    exact h.addSetter htype
  | binder hnone =>
    refine ⟨?_,htype⟩
    have hitem : (BodyItem.method .binder storageKind thisArgTypeFlags type).isStaticGetter = false :=
      rfl
    rw [show (BodyItem.method AccessorKind.binder storageKind thisArgTypeFlags type).isBinder = true
      from rfl, Bool.or_true, hitem, Bool.or_false]
    have hstate := h.binder
    rw [hnone] at hstate
    refine ⟨h.place,h.placed,h.target,h.noGetter,?_,h.bindable,h.type⟩
    show BinderState Γ parentType true (some _) p.onChanged
    generalize p.onChanged = onChanged at hstate
    cases hstate with
    | none hdata => exact .declared _ hdata

theorem Grown.addBodyItem {item : BodyItem κ α} (htype : p.type = none)
    (hadd : p.addBodyItem Γ item = some p') :
    Grown Γ parentType (isBinder || item.isBinder) (isStaticGetter || item.isStaticGetter)
      (isBindable || item.isBindable) p' ∧ p'.type = none := by
  cases item with
  | method functionKind storageKind thisArgTypeFlags type =>
    have hmethod := h.method htype hadd
    rw [show (BodyItem.method functionKind storageKind thisArgTypeFlags type).isBindable = false
      from rfl, Bool.or_false]
    exact hmethod
  | bindable item =>
    obtain ⟨hgrown,htype',-⟩ := h.setOnChanged hadd (by simp) (.inl htype)
    simpa [BodyItem.isBinder, BodyItem.isStaticGetter, BodyItem.isBindable, htype', htype]
      using hgrown
  | autoGet item =>
    obtain ⟨hgrown,htype',-⟩ := h.setAutoGetValue hadd
    simpa [BodyItem.isBinder, BodyItem.isStaticGetter, BodyItem.isBindable, htype', htype]
      using hgrown

theorem Grown.addBodyItems {items : List (BodyItem κ α)} (htype : p.type = none)
    (hadd : addBodyItems Γ p items = some p') :
    Grown Γ parentType (isBinder || items.any (·.isBinder))
      (isStaticGetter || items.any (·.isStaticGetter)) (isBindable || items.any (·.isBindable)) p' ∧
      p'.type = none := by
  induction items generalizing p isBinder isStaticGetter isBindable with
  | nil =>
    obtain rfl : p = p' := Option.some.inj hadd
    simpa using And.intro h htype
  | cons item items ih =>
    obtain ⟨q,hq,hadd⟩ := Option.bind_eq_some_iff.mp hadd
    obtain ⟨hq,htype⟩ := h.addBodyItem htype hq
    simpa [Bool.or_assoc] using ih hq htype hadd

theorem Grown.addMethod_getter {f : Accessor κ α} (hkind : f.functionKind = .getter)
    (hstorage : f.storageKind = .undefined) (hplain : f.type.isMemberMethodType = false)
    (hadd : p.addMethod Γ f = some p') :
    Grown Γ parentType isBinder isStaticGetter isBindable p' ∧ p'.type = p.type := by
  obtain ⟨getter,hadded,htype⟩ := addMethod_created hadd (.inr (by rw [hstorage]; decide))
  rw [hkind] at hadded
  cases hadded with
  | getter indexArgs hnone =>
    refine ⟨?_,rfl⟩
    apply h.addGetter hnone
    rw [h.noGetter hnone, htype, h.place]
    exact memberTypeOf_target hplain

end

variable {mods : DeclModifiers κ α}

section

variable (h : Grown Γ parentType isBinder isStaticGetter isBindable p)

include h

theorem Grown.finalizeGetter (htype : p.type = none) (hfinal : p.finalizeGetter Γ mods = some p') :
    Grown Γ parentType isBinder isStaticGetter isBindable p' ∧ p'.type = none := by
  unfold Property.finalizeGetter at hfinal
  split at hfinal
  · split at hfinal
    · obtain rfl := Option.some.inj hfinal
      exact ⟨h,htype⟩
    · cases hfinal
  · obtain rfl := Option.some.inj hfinal
    exact ⟨h,htype⟩
  · obtain rfl := Option.some.inj hfinal
    exact ⟨h,htype⟩
  · cases hfinal
  · next type _ _ _ =>
    obtain ⟨hgrown,htype'⟩ := h.addMethod_getter rfl rfl type.plain hfinal
    exact ⟨hgrown,htype'.trans htype⟩

theorem Grown.finalizeSetter {hasBody : Bool} (htype : p.type = none)
    (hfinal : p.finalizeSetter Γ mods hasBody = some p') :
    Grown Γ parentType isBinder isStaticGetter isBindable p' ∧ p'.type = none := by
  unfold Property.finalizeSetter at hfinal
  split at hfinal
  · obtain rfl := Option.some.inj hfinal
    exact ⟨h,htype⟩
  split at hfinal
  · cases hfinal
  · obtain ⟨f,hadded,-⟩ := addMethod_created hfinal (.inr (by simp))
    cases hadded with
    | setter indexArgs => exact ⟨h.addSetter htype,htype⟩

theorem Grown.finalizeBinder (htype : p.type = none) (hfinal : p.finalizeBinder Γ mods = some p') :
    Grown Γ parentType isBinder isStaticGetter (isBindable || mods.bindable) p' ∧
      p'.type = none := by
  unfold Property.finalizeBinder at hfinal
  split at hfinal
  · next hbindable =>
    obtain ⟨hmods,-⟩ : mods.bindable = true ∧ p.onChanged = none := by simpa using hbindable
    obtain ⟨hgrown,htype',-⟩ := h.setOnChanged hfinal (by simp) (.inl htype)
    rw [hmods, Bool.or_true]
    exact ⟨hgrown,htype'.trans htype⟩
  · next hbindable =>
    obtain rfl := Option.some.inj hfinal
    have heq : (isBindable || mods.bindable) = isBindable := by
      rw [← h.bindable]
      cases hmods : mods.bindable with
      | false => exact Bool.or_false _
      | true =>
        have hsome : p.onChanged.isSome = true := by
          cases hchanged : p.onChanged with
          | none => simp [hmods, hchanged] at hbindable
          | some _ => rfl
        rw [hsome]
        rfl
    rw [heq]
    exact ⟨h,htype⟩

theorem Grown.finalizeAutoGetValue (htype : p.type = none)
    (hfinal : p.finalizeAutoGetValue Γ mods = some p') :
    Grown Γ parentType isBinder isStaticGetter isBindable p' ∧ p'.type = none := by
  unfold Property.finalizeAutoGetValue at hfinal
  split at hfinal
  · split at hfinal
    · obtain rfl := Option.some.inj hfinal
      exact ⟨h,htype⟩
    · obtain ⟨hgrown,htype',-⟩ := h.setAutoGetValue hfinal
      exact ⟨hgrown,htype'.trans htype⟩
    · cases hfinal
  · split at hfinal
    · cases hfinal
    · obtain rfl := Option.some.inj hfinal
      exact ⟨h,htype⟩

end

omit [DecidableEq α] in
theorem Grown.createType (h : Grown Γ parentType isBinder isStaticGetter isBindable p)
    (hcreate : p.createType = some p') :
    Grown Γ parentType isBinder isStaticGetter isBindable p' ∧ p'.type.isSome ∧
      p'.onChanged = p.onChanged := by
  simp only [Property.createType, Option.bind_eq_bind, Option.bind_eq_some_iff,
    Option.some.injEq] at hcreate
  obtain ⟨getter,hgetter,rfl⟩ := hcreate
  refine ⟨⟨h.place,h.placed,h.target,h.noGetter,h.binder,h.bindable,?_⟩,rfl,rfl⟩
  rintro T ⟨⟩
  exact ⟨getter,hgetter,by rw [h.bindable]⟩

theorem Grown.finalizeLastProperty {hasBody : Bool}
    (h : Grown Γ parentType isBinder isStaticGetter isBindable p) (htype : p.type = none)
    (hfinal : p.finalizeLastProperty Γ mods hasBody = some p') :
    Grown Γ parentType isBinder isStaticGetter (isBindable || mods.bindable) p' := by
  unfold Property.finalizeLastProperty at hfinal
  split at hfinal
  · cases hfinal
  obtain ⟨p₁,h₁,hfinal⟩ := Option.bind_eq_some_iff.mp hfinal
  obtain ⟨p₂,h₂,hfinal⟩ := Option.bind_eq_some_iff.mp hfinal
  obtain ⟨p₃,h₃,hfinal⟩ := Option.bind_eq_some_iff.mp hfinal
  obtain ⟨p₄,h₄,hfinal⟩ := Option.bind_eq_some_iff.mp hfinal
  obtain ⟨hgetter,htype₁⟩ := h.finalizeGetter htype h₁
  obtain ⟨hsetter,htype₂⟩ := hgetter.finalizeSetter htype₁ h₂
  obtain ⟨hbinder,htype₃⟩ := hsetter.finalizeBinder htype₂ h₃
  obtain ⟨hauto,-⟩ := hbinder.finalizeAutoGetValue htype₃ h₄
  split at hfinal
  · exact (hauto.createType hfinal).1
  · obtain rfl := Option.some.inj hfinal
    exact hauto

theorem Grown.finalize (h : Grown Γ parentType isBinder isStaticGetter isBindable p)
    (hfinal : p.finalize Γ = some p') :
    Grown Γ parentType isBinder isStaticGetter isBindable p' ∧ p'.type.isSome ∧
      ∀ target, p'.onChanged ≠ some (.alias target) := by
  simp only [Property.finalize, Option.bind_eq_bind] at hfinal
  obtain ⟨p₁,h₁,hfinal⟩ := Option.bind_eq_some_iff.mp hfinal
  obtain ⟨p₂,h₂,hfinal⟩ := Option.bind_eq_some_iff.mp hfinal
  have hauto : Grown Γ parentType isBinder isStaticGetter isBindable p₁ := by
    unfold Property.resolveAutoGetValue at h₁
    split at h₁
    · obtain ⟨type,-,h₁⟩ := Option.bind_eq_some_iff.mp h₁
      exact (h.setAutoGetValue h₁).1
    · obtain rfl := Option.some.inj h₁
      exact h
  have hchanged : Grown Γ parentType isBinder isStaticGetter isBindable p₂ ∧
      ∀ target, p₂.onChanged ≠ some (.alias target) := by
    unfold Property.resolveOnChanged at h₂
    split at h₂
    · next target halias =>
      obtain ⟨type,-,h₂⟩ := Option.bind_eq_some_iff.mp h₂
      have hbindable : isBindable = true := by
        rw [← hauto.bindable, halias]
        rfl
      obtain ⟨hgrown,-,-,hitem,-⟩ := hauto.setOnChanged h₂ (fun _ => ⟨type,rfl⟩) (.inr hbindable)
      rw [hbindable]
      exact ⟨hgrown,by simp [hitem]⟩
    · next hne =>
      obtain rfl := Option.some.inj h₂
      exact ⟨hauto,hne⟩
  obtain ⟨hgrown,halias⟩ := hchanged
  split at hfinal
  · cases hfinal
  split at hfinal
  · next hsome =>
    obtain rfl := Option.some.inj hfinal
    exact ⟨hgrown,hsome,halias⟩
  · obtain ⟨hgrown,hsome,hsame⟩ := hgrown.createType hfinal
    exact ⟨hgrown,hsome,by rw [hsame]; exact halias⟩

omit [DecidableEq α] in
theorem binderType_eq (T : PropertyType κ α) : T.binderType Γ =
    memberTypeOf Γ T.getterType.getThisTargetType Γ.binderType { constKind := .const } := by
  unfold PropertyType.binderType memberTypeOf
  cases T.getterType.getThisTargetType <;> rfl

theorem isEqual_memberTypeOf_iff {parentType parentType' : Option κ}
    (h : parentType' = parentType ∨ parentType' = none) :
    (memberTypeOf Γ parentType Γ.binderType { constKind := .const }).isEqual
      (memberTypeOf Γ parentType' Γ.binderType { constKind := .const }) = true ↔
    parentType' = parentType := by
  constructor
  · intro heq
    by_contra hne
    obtain rfl := h.resolve_left hne
    cases parentType with
    | none => exact hne rfl
    | some parentType =>
      rw [FunctionType.isEqual_iff] at heq
      have hnot : Γ.binderType.isEqual
          (Γ.getMemberMethodType parentType Γ.binderType { constKind := .const }) = false :=
        not_isEqual_member
      rw [Bool.eq_false_iff, Ne, FunctionType.isEqual_iff] at hnot
      exact hnot heq.symm
  · rintro rfl
    exact FunctionType.isEqual_refl _

/-- A finalized property agrees with its type just when its binder was not declared in the body and,
if it is bindable, its getter takes the `this` that the binder takes. -/
theorem Grown.agrees_iff (h : Grown Γ parentType isBinder isStaticGetter isBindable p)
    (hsome : p.type.isSome) (halias : ∀ target, p.onChanged ≠ some (.alias target)) :
    VtableAgrees Γ p ↔ isBinder = false ∧
      (isBindable = true → parentType = none ∨ isStaticGetter = false) := by
  obtain ⟨T,hT⟩ := Option.isSome_iff_exists.mp hsome
  obtain ⟨getter,hgetter,hTeq⟩ := h.type T hT
  have hTget : T.getterType = getter.type := by rw [hTeq]
  have hTset : T.setterType = p.setter.map (·.type) := by rw [hTeq]
  have hTbind : T.isBindable = isBindable := by rw [hTeq]
  have htarget := h.target getter hgetter
  have hgetterEqual : getter.type.isEqual T.getterType = true := by
    rw [hTget]
    exact FunctionType.isEqual_refl _
  have hsetters : List.Forall₂ (fun f type => f.type.isEqual type = true) p.setter T.setterType :=
    forall₂_of_map hTset.symm
  rw [vtableAgrees_iff hT hgetter, hTbind, binderType_eq, hTget, htarget]
  have hstate := h.binder
  have hbindable := h.bindable
  generalize p.onChanged = onChanged at hstate hbindable halias
  generalize p.binder = binder at hstate
  cases hstate with
  | none hdata =>
    have hnone : onChanged = none := by
      cases onChanged with
      | none => rfl
      | some item =>
        cases item with
        | data type => exact absurd rfl (hdata type)
        | «alias» target => exact absurd rfl (halias target)
    subst hnone
    subst hbindable
    simp [hTget ▸ hgetterEqual, hsetters]
  | created binder type hbinder =>
    subst hbindable
    have hplace : (if isStaticGetter = true then none else parentType) = parentType ↔
        (parentType = none ∨ isStaticGetter = false) := by
      cases isStaticGetter <;> simp [eq_comm]
    have hor : (if isStaticGetter = true then none else parentType) = parentType ∨
        (if isStaticGetter = true then none else parentType) = none := by
      cases isStaticGetter <;> simp
    simp [hbinder, isEqual_memberTypeOf_iff hor, hplace, hTget ▸ hgetterEqual, hsetters]
  | declared binder hdata =>
    have hnone : onChanged = none := by
      cases onChanged with
      | none => rfl
      | some item =>
        cases item with
        | data type => exact absurd rfl (hdata type)
        | «alias» target => exact absurd rfl (halias target)
    subst hnone
    subst hbindable
    simp

theorem body_agrees_iff {placement : Placement κ} {hasBody : Bool} {items : List (BodyItem κ α)}
    (h : (PropertySource.body placement mods hasBody items).build Γ = some p) :
    VtableAgrees Γ p ↔ (PropertySource.body placement mods hasBody items).Sound Γ := by
  simp only [PropertySource.build, Option.bind_eq_bind] at h
  obtain ⟨p₁,h₁,h⟩ := Option.bind_eq_some_iff.mp h
  obtain ⟨p₂,h₂,h⟩ := Option.bind_eq_some_iff.mp h
  have hstart : Grown Γ placement.parentType false false false
      (placement.property mods.isConst : Property κ α) :=
    ⟨rfl,placement.placed.2,by simp [Placement.property],by simp,.none (by simp [Placement.property]),
      rfl,by simp [Placement.property]⟩
  obtain ⟨hbody,htype⟩ := hstart.addBodyItems rfl h₁
  obtain ⟨hgrown,hsome,halias⟩ := (hbody.finalizeLastProperty htype h₂).finalize h
  rw [hgrown.agrees_iff hsome halias]
  simp only [Bool.false_or, Bool.or_eq_true, List.any_eq_true, List.any_eq_false,
    Bool.not_eq_true, PropertySource.Sound]
  rw [or_comm (a := mods.bindable = true)]

end Jancy.Ct.Properties
